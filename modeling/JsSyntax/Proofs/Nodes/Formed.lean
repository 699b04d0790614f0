import JsSyntax.Proofs.Nodes.WellFormed

/-! # Parsed trees are well formed

Every node of a program is well formed (`body_wellFormed`). The grammar says so production by
production: the flags that a production writes into its node are those that its parts ask for, and a
literal has the value of its token. `Formed ns u` says of the nodes `ns` of a phrase `u` that they
are sound if the tokens of the phrase come from a text.
-/

set_option autoImplicit false

namespace JsSyntax

open Grammar Parse

/-! ## Phrases with sound nodes -/

/-- The nodes are sound, if the texts of the tokens fit their kinds. -/
def Formed (ns : List (Node Span)) (u : List Token) : Prop :=
  (∀ t ∈ u, t.Lexed) → ∀ n ∈ ns, n.Sound

namespace Formed

variable {ns ms : List (Node Span)} {n : Node Span} {u v : List Token}

theorem nil : Formed [] u := fun _ => nofun

theorem append (h : Formed ns u) (h' : Formed ms v) : Formed (ns ++ ms) (u ++ v) := by
  intro hl
  obtain ⟨hu, hv⟩ := List.forall_mem_append.1 hl
  exact List.forall_mem_append.2 ⟨h hu, h' hv⟩

theorem before (h : Formed ns u) (v : List Token) : Formed ns (v ++ u) :=
  fun hl => h (List.forall_mem_append.1 hl).2

theorem behind (h : Formed ns u) (v : List Token) : Formed ns (u ++ v) :=
  fun hl => h (List.forall_mem_append.1 hl).1

theorem node (hn : n.WellFormed) (h : Formed n.children u) : Formed [n] u :=
  fun hl => List.forall_mem_singleton.2 (.of_children hn (h hl))

theorem leaf (hn : n.WellFormed) (hc : n.children = []) : Formed [n] u :=
  .node hn (hc ▸ nil)

theorem pattern {p : Pattern Span} (h : Formed [.expr p.toExpr] u) : Formed [.pattern p] u :=
  fun hl => List.forall_mem_singleton.2 (.pattern p (List.forall_mem_singleton.1 (h hl)))

/-- A literal that is one token has the value of its text. -/
theorem literal {t : Token} {l : Literal Span} (h : t.Lexed → l.WellFormed) :
    Formed [.literal l] [t] :=
  fun hl => List.forall_mem_singleton.2 (.of_children (h (List.forall_mem_singleton.1 hl)) nofun)

end Formed

namespace Grammar

/-! ## Parts -/

section
variable {u : List Token}

theorem idents_formed (ids : List (Ident Span)) : Formed (ids.map .ident) u := by
  intro _ n hn
  obtain ⟨id, -, rfl⟩ := List.mem_map.1 hn
  exact .ident id

theorem ident_formed (id : Ident Span) : Formed [.ident id] u := idents_formed [id]

theorem declarators_ne_nil {ds : List (VariableDeclarator Span)}
    (h : Derives Reading.spanned .declarators u ds) : ds ≠ [] := by
  cases h <;> exact List.cons_ne_nil _ _

theorem key_wellFormed {key : PropertyKey Span} (h : Derives Reading.spanned .key u key) :
    key.WellFormed := by
  cases h <;> trivial

theorem method_eq {async generator : Bool} {f : Func Span}
    (h : Derives Reading.spanned (.method async generator) u f) :
    f.id = none ∧ f.async = async ∧ f.generator = generator := by
  cases h
  exact ⟨rfl, rfl, rfl⟩

end

/-! ## Literals -/

section
variable {t : Token} {s : Span} (hl : t.Lexed)
include hl

theorem string_wellFormed (hk : t.kind = .string) :
    Literal.WellFormed (⟨.string (literalBody t.value), t.value, s⟩ : Literal Span) :=
  literalValue?_quoted (hl.string hk)

theorem boolean_wellFormed (hk : t.kind = .boolean) :
    Literal.WellFormed (⟨.boolean (t.value = "true"), t.value, s⟩ : Literal Span) := by
  rcases hl.boolean hk with h | h <;> rw [h] <;> rfl

theorem null_wellFormed (hk : t.kind = .null) :
    Literal.WellFormed (⟨.null, t.value, s⟩ : Literal Span) := by
  rw [hl.null hk]
  rfl

end

/-! ## Members -/

section
variable {u v : List Token} {key : PropertyKey Span} {f : Func Span} {s : Span}
  (hkey : Derives Reading.spanned .key u key)
include hkey

theorem valueProperty_wellFormed (value : Expr Span) :
    Property.WellFormed ⟨key, value, .init, key.isComputed, false, false, s⟩ :=
  ⟨key_wellFormed hkey, rfl, nofun, nofun, fun h => absurd rfl h⟩

theorem methodProperty_wellFormed {async generator : Bool}
    (hf : Derives Reading.spanned (.method async generator) v f) :
    Property.WellFormed ⟨key, .function f, .init, key.isComputed, false, true, s⟩ :=
  ⟨key_wellFormed hkey, rfl, nofun, fun _ => ⟨rfl, f, rfl, (method_eq hf).1⟩,
    fun h => absurd rfl h⟩

theorem accessorProperty_wellFormed (getter : Bool)
    (hf : Derives Reading.spanned (.method false false) v f) :
    Property.WellFormed ⟨key, .function f, if getter then .get else .set, key.isComputed, false,
      false, s⟩ := by
  obtain ⟨hid, hasync, hgenerator⟩ := method_eq hf
  exact ⟨key_wellFormed hkey, rfl, nofun, nofun, fun _ => ⟨rfl, f, rfl, hid, hasync, hgenerator⟩⟩

theorem methodMember_wellFormed {async generator static : Bool}
    (hf : Derives Reading.spanned (.method async generator) v f) :
    MethodDefinition.WellFormed ⟨key, f, methodKind none static key.isComputed key,
      key.isComputed, static, s⟩ := by
  obtain ⟨hno, hconstructor⟩ := methodKind_wellFormed key static key.isComputed
  refine ⟨key_wellFormed hkey, rfl, (method_eq hf).1, fun h => absurd h hno, ?_⟩
  rw [hconstructor]
  exact ⟨fun ⟨hs, hc, hname⟩ => ⟨hs, hc, hno, hname⟩, fun ⟨hs, hc, _, hname⟩ => ⟨hs, hc, hname⟩⟩

theorem accessorMember_wellFormed {static : Bool} (getter : Bool)
    (hf : Derives Reading.spanned (.method false false) v f) :
    MethodDefinition.WellFormed ⟨key, f, if getter then .get else .set, key.isComputed, static,
      s⟩ := by
  obtain ⟨hid, hasync, hgenerator⟩ := method_eq hf
  refine ⟨key_wellFormed hkey, rfl, hid, fun _ => ⟨hasync, hgenerator⟩, ?_⟩
  cases getter
  · exact ⟨nofun, fun h => absurd (.inr rfl) h.2.2.1⟩
  · exact ⟨nofun, fun h => absurd (.inl rfl) h.2.2.1⟩

end

/-! ## Productions -/

/-- Each production builds a well-formed node over the nodes of its parts. -/
theorem Derives.formed {n : Nonterminal} {u : List Token} {a : n.Node Span}
    (h : Derives Reading.spanned n u a) : Formed (n.nodes a) u := by
  induction h with
  | varsStatement _ hds _ _ ih =>
    refine .node trivial (.node ?_ ((ih.before _).behind _))
    exact declarators_ne_nil hds
  | functionStatement _ ih => exact .node trivial ih
  | classStatement _ ih => exact .node trivial ih
  | expressionStatement _ _ _ ih => exact .node trivial (ih.behind _)
  | blockStatement _ ih => exact .node trivial ih
  | ifStatement _ _ _ _ _ _ ih₁ ih₂ =>
    exact .node trivial (((ih₁.before _).behind _).append ih₂)
  | ifElseStatement _ _ _ _ _ _ _ _ ih₁ ih₂ ih₃ =>
    exact .node trivial (((((ih₁.before _).behind _).append ih₂).behind _).append ih₃)
  | forStatement _ _ _ _ _ _ _ _ _ _ ih₁ ih₂ ih₃ ih₄ =>
    exact .node trivial
      (((((((ih₁.before _).behind _).append ih₂).behind _).append ih₃).behind _).append ih₄)
  | whileStatement _ _ _ _ _ _ ih₁ ih₂ =>
    exact .node trivial (((ih₁.before _).behind _).append ih₂)
  | returnStatement _ _ _ _ ih => exact .node trivial ((ih.before _).behind _)
  | emptyStatement _ _ => exact .leaf trivial rfl
  | noStatements => exact .nil
  | moreStatements _ _ ih₁ ih₂ => exact ih₁.append ih₂
  | block _ _ _ _ ih => exact .node trivial ((ih.before _).behind _)
  | oneDeclarator _ ih => exact ih
  | moreDeclarators _ _ _ ih₁ ih₂ => exact (ih₁.behind _).append ih₂
  | bareDeclarator _ _ _ => exact .node trivial (ident_formed _)
  | initDeclarator _ _ _ _ _ ih =>
    exact .node trivial (((ident_formed _).behind _).append ih)
  | noInit => exact .nil
  | varsInit _ hds _ ih => exact .node (declarators_ne_nil hds) (ih.before _)
  | exprInit _ ih => exact ih
  | noClause => exact .nil
  | clause _ ih => exact ih
  | function _ _ _ hid hparams _ _ ih =>
    exact .node trivial
      ((((idents_formed _).before _).append (idents_formed _)).append ih)
  | method _ _ _ ih => exact .node trivial ((idents_formed _).append ih)
  | classDeclaration _ _ _ _ _ _ ih₁ ih₂ =>
    exact .node trivial ((((ident_formed _).before _).append ih₁).append ih₂)
  | noHeritage => exact .nil
  | heritage _ _ ih => exact ih.before _
  | classBody _ _ _ _ ih => exact .node trivial ((ih.before _).behind _)
  | noMembers => exact .nil
  | skippedMark _ _ ih => exact ih.before _
  | moreMembers _ _ ih₁ ih₂ => exact ih₁.append ih₂
  | methodMember _ _ _ hkey hf _ ih₁ ih₂ =>
    exact .node (methodMember_wellFormed hkey hf) ((ih₁.before _).append ih₂)
  | accessorMember _ _ hkey hf _ ih₁ ih₂ =>
    exact .node (accessorMember_wellFormed hkey _ hf) ((ih₁.before _).append ih₂)
  | assignmentOfConditional _ ih => exact ih
  | assignment _ _ _ _ ih₁ ih₂ => exact .node trivial ((ih₁.pattern.behind _).append ih₂)
  | conditionalOfOr _ ih => exact ih
  | conditional _ _ _ _ _ _ ih₁ ih₂ ih₃ =>
    exact .node trivial ((((ih₁.behind _).append ih₂).behind _).append ih₃)
  | orOfAnd _ ih => exact ih
  | or _ _ _ _ ih₁ ih₂ => exact .node trivial ((ih₁.behind _).append ih₂)
  | andOfEquality _ ih => exact ih
  | and _ _ _ _ ih₁ ih₂ => exact .node trivial ((ih₁.behind _).append ih₂)
  | equalityOfComparison _ ih => exact ih
  | equality _ _ _ _ _ ih₁ ih₂ => exact .node trivial ((ih₁.behind _).append ih₂)
  | comparisonOfAdditive _ ih => exact ih
  | comparison _ _ _ _ _ ih₁ ih₂ => exact .node trivial ((ih₁.behind _).append ih₂)
  | additiveOfMultiplicative _ ih => exact ih
  | additive _ _ _ _ _ ih₁ ih₂ => exact .node trivial ((ih₁.behind _).append ih₂)
  | multiplicativeOfUnary _ ih => exact ih
  | multiplicative _ _ _ _ _ ih₁ ih₂ => exact .node trivial ((ih₁.behind _).append ih₂)
  | unaryOfUpdate _ ih => exact ih
  | await _ _ _ ih => exact .node trivial (ih.before _)
  | unaryMark _ _ _ _ ih => exact .node trivial (ih.before _)
  | unaryWord _ _ _ _ ih => exact .node trivial (ih.before _)
  | updateOfChain _ ih => exact ih
  | updateBefore _ _ htarget _ ih => exact .node htarget (ih.before _)
  | updateAfter _ htarget _ _ ih => exact .node htarget (ih.behind _)
  | chainOfPrimary _ ih => exact ih
  | call _ _ _ ih₁ ih₂ => exact .node trivial (ih₁.append ih₂)
  | chainAccess _ _ _ ih₁ ih₂ => exact .node rfl (ih₁.append ih₂)
  | chainNew _ _ _ _ ih₁ ih₂ => exact .node trivial ((ih₁.behind _).append ih₂)
  | calleeOfPrimary _ ih => exact ih
  | calleeAccess _ _ _ ih₁ ih₂ => exact .node rfl (ih₁.append ih₂)
  | computedAccess _ _ _ ih => exact (ih.before _).behind _
  | namedAccess _ _ _ => exact ident_formed _
  | noArguments _ _ => exact .nil
  | arguments _ _ _ ih => exact (ih.before _).behind _
  | omittedArguments => exact .nil
  | givenArguments _ ih => exact ih
  | oneExpression _ ih => exact ih
  | moreExpressions _ _ _ ih₁ ih₂ => exact (ih₁.behind _).append ih₂
  | reference _ _ => exact .node trivial (ident_formed _)
  | this _ _ => exact .leaf trivial rfl
  | super _ _ => exact .leaf trivial rfl
  | number _ hvalue _ => exact .node trivial (.literal fun _ => literalValue?_number hvalue)
  | string hk _ => exact .node trivial (.literal fun hl => string_wellFormed hl hk)
  | boolean hk _ => exact .node trivial (.literal fun hl => boolean_wellFormed hl hk)
  | null hk _ => exact .node trivial (.literal fun hl => null_wellFormed hl hk)
  | template _ _ => exact .node ⟨_, rfl, rfl, rfl⟩ (.leaf trivial rfl)
  | functionExpression _ ih => exact .node trivial ih
  | group _ _ _ ih => exact (ih.before _).behind _
  | new _ _ _ _ ih₁ ih₂ => exact .node trivial ((ih₁.before _).append ih₂)
  | array _ _ _ _ ih => exact .node trivial ((ih.before _).behind _)
  | noSlots => exact .nil
  | hole _ _ ih => exact ih.before _
  | lastSlot _ ih => exact ih
  | moreSlots _ _ _ ih₁ ih₂ => exact (ih₁.behind _).append ih₂
  | object _ _ _ _ ih => exact .node trivial ((ih.before _).behind _)
  | noProperties => exact .nil
  | lastProperty _ ih => exact ih
  | moreProperties _ _ _ ih₁ ih₂ => exact (ih₁.behind _).append ih₂
  | valueProperty hkey _ _ _ ih₁ ih₂ =>
    exact .node (valueProperty_wellFormed hkey _) ((ih₁.behind _).append ih₂)
  | @shorthandProperty t s s' _ _ _ =>
    have hid : (Node.ident (Reading.spanned.ident t s)).Sound := .ident _
    refine .node ⟨trivial, rfl, fun _ => ⟨rfl, rfl, _, rfl, rfl⟩, nofun, fun h => absurd rfl h⟩ ?_
    intro _
    exact List.forall_mem_cons.2
      ⟨hid, List.forall_mem_singleton.2 (.of_children trivial (List.forall_mem_singleton.2 hid))⟩
  | methodProperty _ _ hkey hf _ ih₁ ih₂ =>
    exact .node (methodProperty_wellFormed hkey hf) ((ih₁.before _).append ih₂)
  | @accessorProperty getter _ _ _ _ _ _ _ hkey hf _ ih₁ ih₂ =>
    refine .node (accessorProperty_wellFormed hkey getter hf) ?_
    cases getter <;> exact (ih₁.before _).append ih₂
  | computedKey _ _ _ ih => exact (ih.before _).behind _
  | nameKey _ _ => exact ident_formed _
  | stringKey hk _ => exact .literal fun hl => string_wellFormed hl hk
  | numberKey _ hvalue _ => exact .literal fun _ => literalValue?_number hvalue

end Grammar

/-! ## Programs -/

/-- The statements of a program are sound, whatever the limit. -/
theorem parseWith_sound (limit : Nat) (source : String) :
    ∀ st ∈ (parseWith limit source).body, (Node.statement st).Sound := by
  intro st hst
  obtain ⟨os, s, hruns, hparse⟩ := parseWith_runs limit source
  have hst : .ok st ∈ os := by
    rw [hparse] at hst
    exact mem_filterMap_statementOf?.1 hst
  obtain ⟨before, u, behind, hrest, hu⟩ := hruns.derives st hst
  have hlexed : ∀ t ∈ u, t.Lexed := by
    intro t ht
    have hmem : t ∈ (startOf source).rest := by
      rw [hrest]
      simp [ht]
    rw [rest_startOf] at hmem
    obtain ⟨hmem, -, hkind⟩ : t ∈ tokenize source ∧ t.kind ≠ .comment ∧ t.kind ≠ .eof := by
      simpa using hmem
    exact lexed_of_mem_tokenize hmem hkind
  exact List.forall_mem_singleton.1 (hu.formed hlexed)

/-- Every node of a program, at any depth, is well formed. -/
theorem body_wellFormed (source : String) : ∀ st ∈ (parse source).body,
    ∀ n, (Node.statement st).Contains n → n.WellFormed :=
  fun st hst => parseWith_sound nestingLimit source st hst

/-- The update in a statement, which counts up a member. -/
theorem body_wellFormed_update : ∃ st ∈ (parse "a.b++;").body, ∃ n, (Node.statement st).Contains n ∧
    n.span = ⟨⟨0, 1, 1⟩, ⟨5, 1, 6⟩⟩ ∧ n.children.map Node.span = [⟨⟨0, 1, 1⟩, ⟨3, 1, 4⟩⟩] ∧
    n.WellFormed := by
  have hshape : (parse "a.b++;").body.flatMap (fun st =>
      st.children.map fun n => (n.span, n.children.map Node.span)) =
      [(⟨⟨0, 1, 1⟩, ⟨5, 1, 6⟩⟩, [⟨⟨0, 1, 1⟩, ⟨3, 1, 4⟩⟩])] := by
    decide +kernel
  obtain ⟨st, hst, hmem⟩ := List.mem_flatMap.1 (hshape ▸ List.mem_singleton_self _)
  obtain ⟨n, hn, heq⟩ := List.mem_map.1 hmem
  have hn : (Node.statement st).Contains n := .single hn
  exact ⟨st, hst, n, hn, congrArg Prod.fst heq, congrArg Prod.snd heq,
    body_wellFormed _ st hst n hn⟩

end JsSyntax
