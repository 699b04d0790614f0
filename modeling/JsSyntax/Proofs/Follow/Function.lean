import JsSyntax.Proofs.Follow.Loops

/-! # Blocks and functions that follow each other

From here on there is one lemma for each routine. The lemma takes the routine step by step: what
stands at the same place and has read the same goes on with the same.
-/

set_option autoImplicit false
-- The whole text of a routine goes through the search for an instance.
set_option synthInstance.maxSize 1024

namespace JsSyntax

namespace Parse

/-! ## Routines that advance -/

namespace Advances

/-- A phrase has at least one token, if its nonterminal has no empty phrase. -/
theorem of_parses {n : Grammar.Nonterminal} {m : ParseM (n.Node Span)} [Shrinks m]
    (h : Parses n m) (hn : n.isNullable = false) : Advances m where
  lt hok := by
    obtain ⟨u, hu, ha⟩ := h hok
    exact hu.lt_of_ne_nil (ha.ne_nil hn)

section
variable (d : Deeper) [hd : d.Regular]

instance deeperStatement : Advances d.statement := of_parses hd.sound.statement rfl

instance deeperAssignment : Advances d.assignment := of_parses hd.sound.assignment rfl

instance deeperUnary : Advances d.unary := of_parses hd.sound.unary rfl

instance block : Advances (Parse.block d) := by
  unfold Parse.block
  infer_instance

instance methodFunction (async generator : Bool) :
    Advances (Parse.methodFunction d async generator) := by
  unfold Parse.methodFunction
  infer_instance

end

end Advances

/-! ## Nesting -/

/-- The nested routines follow each other. A statement may be the end of the common stretch, and so
may an expression where expressions may end. -/
structure Alignment.Deepens {τ : Type} (A : Alignment τ) (d d' : Deeper) : Prop where
  statement : ∀ {r pre}, A.Follows .inside r pre (A.Alike Statement.map) d.statement d'.statement
  assignment : ∀ {r pre} [A.Ends r],
    A.Follows .inside r pre (A.Alike Expr.map) d.assignment d'.assignment
  unary : ∀ {r pre} [A.Ends r], A.Follows .inside r pre (A.Alike Expr.map) d.unary d'.unary
  construction : ∀ {r} [A.Ends r],
    A.Follows .inside r A.Ready (A.Alike Expr.map) d.construction d'.construction

namespace Alignment

variable {τ : Type} {A : Alignment τ} {r : Reach} {pre : State → State → Prop}

/-! ## Blocks -/

theorem parameters_follows : A.Follows .inside .inside pre
    (A.Alike fun f => List.map (Ident.map f)) parameters parameters := by
  unfold parameters
  simp only [ite_bind]
  refine (require_follows _).of_whole.bind fun _ => ?_
  refine (isMarkNext_looks _).bind fun _ => ?_
  have hlist : A.Follows .inside .inside A.Last (A.Alike fun f => List.map (Ident.map f))
      (collect (commaItem (identifier .parameter))) (collect (commaItem (identifier .parameter))) :=
    collect_follows commaItem_lt (commaItem_follows (identifier_follows _).of_whole)
  refine Follows.bind (.ite .rfl ?_ fun _ => hlist) fun hparams => ?_
  · exact fun _ => .pure rfl
  · exact (require_follows _).of_whole.bind fun _ => .pure hparams

section
variable {d d' : Deeper} [d.Regular] (hd : A.Deepens d d')
include hd

theorem block_follows :
    A.Follows .inside r pre (A.Alike Block.map) (block d) (block d') := by
  unfold block
  refine peek_bind fun hstart => ?_
  refine (require_follows _).of_whole.bind fun _ => ?_
  have hbody : A.Follows .inside .inside A.Last (A.Alike fun f => List.map (Statement.map f))
      (collect (upTo "\x7d" do return .more (← d.statement)))
      (collect (upTo "\x7d" do return .more (← d'.statement))) :=
    collect_follows (upTo_lt fun h => Advances.lt h)
      (upTo_follows (hd.statement.bind fun hst => .pure (.more hst)))
  refine hbody.bind fun hbody => ?_
  refine (require_follows _).bind_whole fun _ => ?_
  refine spanFrom_bind hstart fun hspan => .pure ?_
  simp only [Alike] at hbody
  simp [Alike, Block.map, hbody, hspan]

/-! ## Functions -/

theorem methodFunction_follows (async generator : Bool) : A.Follows .inside r pre (A.Alike Func.map)
    (methodFunction d async generator) (methodFunction d' async generator) := by
  unfold methodFunction
  refine peek_bind fun hstart => ?_
  refine parameters_follows.bind fun hparams => ?_
  refine (block_follows hd).bind_whole fun hbody => ?_
  refine spanFrom_bind hstart fun hspan => .pure ?_
  simp only [Alike] at hparams hbody
  simp [Alike, Func.map, hparams, hbody, hspan]

theorem function_follows :
    A.Follows .inside r A.Ready (A.Alike Func.map) (function d) (function d') := by
  unfold function
  simp only [ite_bind]
  refine peek_bind fun hstart => ?_
  have hid : A.Follows .inside .inside A.Last (A.Alike fun f => Option.map (Ident.map f)) (do
      if (← peek).kind = .identifier then some <$> identifier .variable else pure none) (do
      if (← peek).kind = .identifier then some <$> identifier .variable else pure none) := by
    refine peek_bind fun _ => .ite .rfl (fun _ => ?_) fun _ => .pure rfl
    exact (identifier_follows _).of_whole.some
  refine (acceptKeyword_accepts "async").bind_same .inl fun async => ?_
  refine discard_advance_follows.of_whole.bind fun _ => ?_
  refine (acceptOperator_accepts "*").bind_same id fun generator => ?_
  refine hid.bind fun hid => ?_
  refine parameters_follows.bind fun hparams => ?_
  refine (block_follows hd).bind_whole fun hbody => ?_
  refine spanFrom_bind hstart fun hspan => .pure ?_
  simp only [Alike] at hid hparams hbody
  simp [Alike, Func.map, hid, hparams, hbody, hspan]

omit hd in
/-- A function that starts with `async` has two keywords at least. -/
theorem function_far {s : State} (hasync : s.current.isKeyword "async")
    (hsecond : s.second.isKeyword "function") :
    (after (function d s)).rest.length + 1 < s.rest.length := by
  obtain ⟨b, s₁, haccept, -⟩ := acceptKeyword_consumes "async" s
  cases acceptKeyword_accepted haccept with
  | no h => exact absurd (Token.is_iff.1 hasync) h
  | yes _ hr =>
    have hk : s₁.current.kind ≠ .eof := by
      rw [hr.second, (Token.is_iff.1 hsecond).1]
      decide
    obtain ⟨s₂, hadvance, hlt⟩ := discard_advance_lt hk
    have := hr.length
    simp only [function, ite_bind, Parse.peek_bind]
    rw [bind_of_ok haccept, bind_of_ok hadvance]
    refine Nat.lt_of_le_of_lt (Nat.succ_le_succ (Shrinks.le _)) ?_
    simp only [List.length_singleton] at this
    omega

/-- A function, where one starts, or else something different. -/
theorem functionNext_follows {β : Type} {V : β → β → Prop} {build : Func Span → β}
    {m m' : ParseM β}
    (hbuild : ∀ {f f' : Func Span}, A.Alike Func.map f f' → V (build f) (build f'))
    (hm : A.Follows .inside r A.Ready V m m') : A.Follows .inside r A.Ready V
      (do if ← isFunctionNext then return build (← function d) else m)
      (do if ← isFunctionNext then return build (← function d') else m') := by
  refine isFunctionNext_bind (fun c => ?_) fun {s} hasync hsecond => ?_
  · refine .ite .rfl (fun _ => ?_) fun _ => hm
    exact (function_follows hd).bind_whole fun hf => .pure (hbuild hf)
  · rw [if_pos rfl]
    refine Nat.lt_of_le_of_lt (Nat.succ_le_succ ?_) (function_far (d := d) hasync hsecond)
    exact Shrinks.after_bind _ _ s

end

end Alignment

end Parse

end JsSyntax
