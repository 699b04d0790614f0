import JsSyntax.Parse.Statement
import JsSyntax.Proofs.Follow.Expression

/-! # Statements that follow each other

A statement may be the end of the common stretch: it looks behind its end for an `else` only. With
the statements the circle of the routines closes (`level_deepens`).
-/

set_option autoImplicit false
-- The whole text of a routine goes through the search for an instance.
set_option synthInstance.maxSize 1024

namespace JsSyntax

namespace Parse

/-! ## Routines that advance -/

namespace Advances

section
variable (d : Deeper) [hd : d.Regular]

instance variableDeclaration (kind : VariableKind) (start : Span) :
    Advances (Parse.variableDeclaration d kind start) := by
  unfold Parse.variableDeclaration
  infer_instance

instance methodDefinition : Advances (Parse.methodDefinition d) := by
  unfold Parse.methodDefinition
  dsimp only
  infer_instance

instance classBody : Advances (Parse.classBody d) := by
  unfold Parse.classBody
  infer_instance

end

end Advances

namespace Alignment

variable {τ : Type} {A : Alignment τ} {r : Reach} {pre : State → State → Prop}

section
variable {d d' : Deeper} [d.Regular] (hd : A.Deepens d d')
include hd

/-! ## Declarations -/

theorem variableDeclarator_follows :
    A.Follows .inside .inside pre (A.Alike VariableDeclarator.map) (variableDeclarator d)
      (variableDeclarator d') := by
  unfold variableDeclarator
  refine (identifier_follows _).of_whole.bind fun {id id'} hid => ?_
  simp only [Alike] at hid
  have hstart : A.left id.span = A.right id'.span := by
    simp only [Ident.map, Ident.mk.injEq] at hid
    exact hid.2
  have hrest : ∀ {init init' : Option (Expr Span)},
      A.Alike (fun f => Option.map (Expr.map f)) init init' →
      A.Follows .inside .inside A.Last (A.Alike VariableDeclarator.map)
        (do return ⟨id, init, ← spanFrom id.span⟩)
        (do return ⟨id', init', ← spanFrom id'.span⟩) := by
    intro init init' hinit
    refine spanFrom_bind hstart fun hspan => .pure ?_
    simp only [Alike] at hinit
    simp [Alike, VariableDeclarator.map, hid, hinit, hspan]
  refine (acceptOperator_accepts _).bind_bool ?_ ?_
  · exact hd.assignment.some.bind hrest
  · have hnone : A.Alike (fun f => Option.map (Expr.map f)) none none := rfl
    exact Follows.bind (.pure hnone) hrest

theorem variableList_follows {kind : VariableKind} {start start' : Span}
    (hstart : A.left start = A.right start') :
    A.Follows .inside .inside A.Last (A.Alike VariableDeclaration.map) (variableList d kind start)
      (variableList d' kind start') := by
  unfold variableList
  have hlist : A.Follows .inside .inside A.Last
      (A.Alike fun f => List.map (VariableDeclarator.map f))
      (collect (commaItem (variableDeclarator d))) (collect (commaItem (variableDeclarator d'))) :=
    collect_follows commaItem_lt (commaItem_follows (variableDeclarator_follows hd))
  refine hlist.bind fun hlist => spanFrom_bind hstart fun hspan => .pure ?_
  simp only [Alike] at hlist
  simp [Alike, VariableDeclaration.map, hlist, hspan]

theorem variableDeclaration_follows {kind : VariableKind} {start start' : Span}
    (hstart : A.left start = A.right start') :
    A.Follows .inside r A.Last (A.Alike VariableDeclaration.map) (variableDeclaration d kind start)
      (variableDeclaration d' kind start') := by
  unfold variableDeclaration
  refine (variableList_follows hd hstart).bind fun {x x'} hlist => ?_
  obtain ⟨kind, ds, s⟩ := x
  obtain ⟨kind', ds', s'⟩ := x'
  refine (require_follows _).bind_whole fun _ => ?_
  refine spanFrom_bind hstart fun hspan => .pure ?_
  simp only [Alike, VariableDeclaration.map, VariableDeclaration.mk.injEq,
    VariableDeclarator.mapAll_eq_map] at hlist
  simp [Alike, VariableDeclaration.map, hlist.1, hlist.2.1, hspan]

/-! ## Classes -/

/-- A method, or a semicolon between methods. -/
theorem member_follows : A.Follows .inside .inside A.Last
    (Items fun x x' => x.map (MethodDefinition.map A.left) = x'.map (MethodDefinition.map A.right))
    (do if ← acceptMark ";" then return .more none else return .more (some (← methodDefinition d)))
    (do
      if ← acceptMark ";" then return .more none
      else return .more (some (← methodDefinition d'))) := by
  refine (acceptMark_accepts ";").bind_bool (.pure (.more rfl)) ?_
  exact (methodDefinition_follows hd).bind fun hm => .pure (.more (congrArg some hm))

omit hd in
theorem member_lt {s s' : State} {x : Option (MethodDefinition Span)}
    (h : (do if ← acceptMark ";" then return .more none
             else return .more (some (← methodDefinition d)) :
      ParseM (Item (Option (MethodDefinition Span)))) s = .ok (.more x) s') :
    s'.rest.length < s.rest.length := by
  obtain ⟨b, s₁, hsemi, h⟩ := bind_eq_ok.mp h
  cases acceptMark_accepted hsemi with
  | yes _ hr =>
    obtain ⟨-, rfl⟩ := pure_eq_ok.mp h
    exact hr.lt_of_ne_nil (by simp)
  | no =>
    simp only [Bool.false_eq_true, if_false] at h
    exact Advances.lt h

theorem classBody_follows :
    A.Follows .inside r pre (A.Alike ClassBody.map) (classBody d) (classBody d') := by
  unfold classBody
  refine peek_bind fun hstart => ?_
  refine (require_follows _).of_whole.bind fun _ => ?_
  refine (collect_follows (upTo_lt member_lt) (upTo_follows (member_follows hd))).bind fun hms => ?_
  refine (require_follows _).bind_whole fun _ => ?_
  refine spanFrom_bind hstart fun hspan => .pure ?_
  have hfilter : ∀ (f : Span → τ) (xs : List (Option (MethodDefinition Span))),
      (xs.filterMap id).map (MethodDefinition.map f) =
        (xs.map (Option.map (MethodDefinition.map f))).filterMap id := by
    intro f xs
    rw [List.map_filterMap, List.filterMap_map]
    rfl
  simp only [Alike, ClassBody.map, MethodDefinition.mapAll_eq_map, hfilter, hms, hspan]

theorem classDeclaration_follows :
    A.Follows .inside r A.Ready (A.Alike Class.map) (classDeclaration d) (classDeclaration d') := by
  unfold classDeclaration
  simp only [ite_bind]
  refine peek_bind fun hstart => ?_
  refine discard_advance_follows.of_whole.bind fun _ => ?_
  refine (identifier_follows _).of_whole.bind fun hid => ?_
  refine (acceptWord_accepts _).bind_same id fun _ => ?_
  have hsuper : A.Follows .inside .inside A.Last (A.Alike fun f => Option.map (Expr.map f))
      (some <$> chain d) (some <$> chain d') := (chain_follows hd).some
  refine Follows.bind (.ite .rfl (fun _ => hsuper) ?_) fun hsuper => ?_
  · exact fun _ => .pure rfl
  refine (classBody_follows hd).bind_whole fun hbody => ?_
  refine spanFrom_bind hstart fun hspan => .pure ?_
  simp only [Alike] at hid hsuper hbody
  simp [Alike, Class.map, hid, hsuper, hbody, hspan]

/-! ## Control flow -/

theorem ifStatement_follows :
    A.Follows .inside r A.Ready (A.Alike Statement.map) (ifStatement d) (ifStatement d') := by
  unfold ifStatement
  refine peek_bind fun hstart => ?_
  refine discard_advance_follows.of_whole.bind fun _ => ?_
  refine (require_follows _).of_whole.bind fun _ => ?_
  refine hd.assignment.bind fun htest => ?_
  refine (require_follows _).of_whole.bind fun _ => ?_
  refine hd.statement.bind_whole fun hconsequent => ?_
  have hrest : ∀ {start start' : Span} {test test' : Expr Span} {st st' : Statement Span}
      {alternate alternate' : Option (Statement Span)}, A.left start = A.right start' →
      A.Alike Expr.map test test' → A.Alike Statement.map st st' →
      A.Alike (fun f => Option.map (Statement.map f)) alternate alternate' →
      A.Follows .whole r A.Last (A.Alike Statement.map)
        (do return .ifElse test st alternate (← spanFrom start))
        (do return .ifElse test' st' alternate' (← spanFrom start')) := by
    intro start start' test test' st st' alternate alternate' hstart htest hst halternate
    refine spanFrom_bind hstart fun hspan => .pure ?_
    simp only [Alike] at htest hst halternate
    simp [Alike, Statement.map, htest, hst, halternate, hspan]
  have hnone : A.Alike (fun f => Option.map (Statement.map f)) none none := rfl
  refine acceptElse_bind (.ite .rfl (fun _ => ?_) fun h => absurd rfl h) ?_
  · exact Follows.of_leads (hd.statement.some.bind_whole (hrest hstart htest hconsequent))
  · exact Follows.bind_whole (.pure hnone) (hrest hstart htest hconsequent)

theorem forInit_follows : A.Follows .inside .inside A.Last
    (A.Alike fun f => Option.map (ForInit.map f)) (forInit d) (forInit d') := by
  unfold forInit
  refine (isMarkNext_looks _).bind fun _ => .ite .rfl (fun _ => .pure rfl) fun _ => ?_
  refine peek_bind fun hstart => ?_
  refine (acceptOneOf_accepts (by decide) _ _).bind_option (fun kind => ?_) ?_
  · refine (variableList_follows hd hstart).bind fun hlist => .pure ?_
    simp only [Alike] at hlist
    simp [Alike, ForInit.map, hlist]
  · refine hd.assignment.bind fun he => .pure ?_
    simp only [Alike] at he
    simp [Alike, ForInit.map, he]

omit [d.Regular] in
theorem optionalBefore_follows (mark : String) : A.Follows .inside .inside A.Last
    (A.Alike fun f => Option.map (Expr.map f)) (optionalBefore d mark) (optionalBefore d' mark) :=
  (isMarkNext_looks _).bind fun _ => .ite .rfl (fun _ => .pure rfl) fun _ => hd.assignment.some

theorem forStatement_follows :
    A.Follows .inside r A.Ready (A.Alike Statement.map) (forStatement d) (forStatement d') := by
  unfold forStatement
  refine peek_bind fun hstart => ?_
  refine discard_advance_follows.of_whole.bind fun _ => ?_
  refine (require_follows _).of_whole.bind fun _ => ?_
  refine (forInit_follows hd).bind fun hinit => ?_
  refine (require_follows _).of_whole.bind fun _ => ?_
  refine (optionalBefore_follows hd _).bind fun htest => ?_
  refine (require_follows _).of_whole.bind fun _ => ?_
  refine (optionalBefore_follows hd _).bind fun hupdate => ?_
  refine (require_follows _).of_whole.bind fun _ => ?_
  refine hd.statement.bind_whole fun hbody => ?_
  refine spanFrom_bind hstart fun hspan => .pure ?_
  simp only [Alike] at hinit htest hupdate hbody
  simp [Alike, Statement.map, hinit, htest, hupdate, hbody, hspan]

theorem whileStatement_follows :
    A.Follows .inside r A.Ready (A.Alike Statement.map) (whileStatement d) (whileStatement d') := by
  unfold whileStatement
  refine peek_bind fun hstart => ?_
  refine discard_advance_follows.of_whole.bind fun _ => ?_
  refine (require_follows _).of_whole.bind fun _ => ?_
  refine hd.assignment.bind fun htest => ?_
  refine (require_follows _).of_whole.bind fun _ => ?_
  refine hd.statement.bind_whole fun hbody => ?_
  refine spanFrom_bind hstart fun hspan => .pure ?_
  simp only [Alike] at htest hbody
  simp [Alike, Statement.map, htest, hbody, hspan]

theorem returnStatement_follows :
    A.Follows .inside r A.Ready (A.Alike Statement.map) (returnStatement d)
      (returnStatement d') := by
  unfold returnStatement
  refine peek_bind fun hstart => ?_
  refine discard_advance_follows.of_whole.bind fun _ => ?_
  refine (optionalBefore_follows hd _).bind fun hargument => ?_
  refine (require_follows _).bind_whole fun _ => ?_
  refine spanFrom_bind hstart fun hspan => .pure ?_
  simp only [Alike] at hargument
  simp [Alike, Statement.map, hargument, hspan]

omit [d.Regular] in
theorem expressionStatement_follows :
    A.Follows .inside r pre (A.Alike Statement.map) (expressionStatement d)
      (expressionStatement d') := by
  unfold expressionStatement
  refine peek_bind fun hstart => ?_
  refine hd.assignment.bind fun he => ?_
  refine (require_follows _).bind_whole fun _ => ?_
  refine spanFrom_bind hstart fun hspan => .pure ?_
  simp only [Alike] at he
  simp [Alike, Statement.map, he, hspan]

/-! ## Any statement -/

theorem keywordStatement_follows :
    A.Follows .inside r A.Ready (A.Alike Statement.map) (keywordStatement d)
      (keywordStatement d') := by
  unfold keywordStatement
  refine peek_bind fun _ => functionNext_follows hd (fun hf => ?_) ?_
  · simp only [Alike] at hf
    simp [Alike, Statement.map, hf]
  refine .ite .rfl (fun _ => ?_) fun _ => ?_
  · refine (classDeclaration_follows hd).bind_whole fun hc => .pure ?_
    simp only [Alike] at hc
    simp [Alike, Statement.map, hc]
  refine .ite .rfl (fun _ => ifStatement_follows hd) fun _ => ?_
  refine .ite .rfl (fun _ => forStatement_follows hd) fun _ => ?_
  refine .ite .rfl (fun _ => whileStatement_follows hd) fun _ => ?_
  refine .ite .rfl (fun _ => returnStatement_follows hd) fun _ => ?_
  exact expressionStatement_follows hd

theorem statement_follows :
    A.Follows .inside r pre (A.Alike Statement.map) (statement d) (statement d') := by
  unfold statement
  refine peek_bind_kind fun {kind value sp sp'} hspan => ?_
  refine emit_bind ?_ id
  refine (acceptOneOf_accepts (by decide) _ _).bind_option (fun kind => ?_) ?_
  · refine (variableDeclaration_follows hd hspan).bind_whole fun hx => .pure ?_
    simp only [Alike] at hx
    simp [Alike, Statement.map, hx]
  refine .ite .rfl (fun hk => ?_) fun _ => ?_
  · exact (keywordStatement_follows hd).of_pre (ready_of_kind_eq hk (by decide))
  refine .ite .rfl (fun _ => ?_) fun _ => ?_
  · refine (block_follows hd).bind_whole fun hb => .pure ?_
    simp only [Alike] at hb
    simp [Alike, Statement.map, hb]
  refine .ite .rfl (fun hm => ?_) fun _ => expressionStatement_follows hd
  · have hk := (Token.is_iff.1 hm).1
    refine (discard_advance_follows.of_pre
      (ready_of_kind_eq hk (by decide))).bind_whole fun _ => .pure ?_
    simp [Alike, Statement.map, hspan]

end

/-! ## Levels -/

theorem exhausted_deepens {d' : Deeper}
    (h : ∀ sp, A.excused (Fault.nestingTooDeep.report sp)) : A.Deepens .exhausted d' := by
  have hfail : ∀ {N : Type} {r : Reach} {pre : State → State → Prop} {V : N → N → Prop}
      {m' : ParseM N}, A.Follows .inside r pre V (fail .nestingTooDeep) m' := by
    intro N r pre V m' s s' _ _ _ _ he
    exact absurd (h _) he
  exact ⟨@fun _ _ => hfail, @fun _ _ _ => hfail, @fun _ _ _ => hfail, @fun _ _ => hfail⟩

/-- Routines with the same nesting left follow each other. With more nesting left they do, too, if
it is excused that the nesting is too deep. -/
theorem level_deepens : ∀ {n n' : Nat},
    (n = n' ∨ n ≤ n' ∧ ∀ sp, A.excused (Fault.nestingTooDeep.report sp)) →
    A.Deepens (level n) (level n')
  | 0, 0, _ =>
    ⟨@fun _ _ => fail_follows _, @fun _ _ _ => fail_follows _, @fun _ _ _ => fail_follows _,
      @fun _ _ => fail_follows _⟩
  | 0, n' + 1, h => exhausted_deepens (h.resolve_left (by omega)).2
  | n + 1, 0, h => absurd h (by omega)
  | n + 1, n' + 1, h =>
    have hd := @level_deepens n n' (h.imp (by omega) (.imp_left (by omega)))
    ⟨@fun _ _ => statement_follows hd, @fun _ _ _ => assignment_follows hd,
      @fun _ _ _ => unary_follows hd, @fun _ _ => construction_follows hd⟩

end Alignment

end Parse

end JsSyntax
