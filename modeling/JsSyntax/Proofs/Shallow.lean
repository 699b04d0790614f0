import JsSyntax.Proofs.RoundTrip.Classes
import JsSyntax.Proofs.RoundTrip.Program
import JsSyntax.Proofs.Shallow.Routines

/-! # No accepted tree exceeds the limit on nesting

On a path down from a statement of a program, at most as many nodes stand in guarded positions as
the limit allows (`nesting_limited`). The positions that are not guarded cost nothing: operands with
an operator between them, callees and the objects of accesses chain without bound, in a superclass
too.
-/

set_option autoImplicit false

namespace JsSyntax

open Parse

namespace Parse

/-- What a run accepts is as shallow as the levels that it has. -/
theorem Runs.shallow {n : Nat} {s s' : State} {os : List Outcome} (h : Runs (level n) s os s') :
    ∀ st, .ok st ∈ os → (Node.statement st).Shallow n := by
  induction h with
  | done => exact fun _ hst => nomatch hst
  | statement _ hok _ ih =>
    intro st hst
    rcases List.mem_cons.1 hst with heq | hst
    · cases heq
      exact (level_shallow n).statement hok
    · exact ih st hst
  | failure _ _ _ ih =>
    intro st hst
    rcases List.mem_cons.1 hst with heq | hst
    · cases heq
    · exact ih st hst

end Parse

theorem body_shallow {limit : Nat} {source : String} :
    ∀ st ∈ (parseWith limit source).body, (Node.statement st).Shallow limit := by
  intro st hst
  obtain ⟨os, s, hruns, hparse⟩ := parseWith_runs limit source
  rw [hparse] at hst
  obtain ⟨o, ho, hsome⟩ := List.mem_filterMap.1 hst
  cases o with
  | ok st' =>
    cases hsome
    exact hruns.shallow st ho
  | error e => cases hsome

/-! ## Chains -/

/-- A way to put an expression below a node in the role that costs no level of nesting. -/
structure Link (role : Role) where
  extend : Tree → Tree
  position : Precedence
  precedence : ∀ t, (extend t).precedence = position
  nesting : ∀ t, position.rank ≤ t.precedence.rank → t.nesting = 0 → (extend t).nesting = 0
  below : ∀ {t : Tree} {e : Expr Span}, e.erase = (extend t).toExpr →
    ∃ e', (role, Node.expr e') ∈ (Node.expr e).sites ∧ e'.erase = t.toExpr

/-- The name that a chain starts with, and goes on with. -/
def chainName : Name := ⟨⟨"x", by decide, List.all_eq_true.1 (by decide)⟩, by decide⟩

def chainStart : Tree := .target (.name chainName)

namespace Link

variable {role : Role}

def sum : Link .binaryOperand where
  extend t := .binary .add t chainStart
  position := .additive
  precedence _ := rfl
  nesting t hrank ht := by
    have hleft : nestingAt .additive t.precedence t.nesting = 0 := by
      rw [nestingAt, if_pos hrank, ht]
    exact Nat.max_eq_zero_iff.2 ⟨hleft, rfl⟩
  below {t e} h := by
    cases e with
    | binary op left right span =>
      refine ⟨left, List.mem_cons_self, ?_⟩
      simp only [Expr.erase, Expr.map, Tree.toExpr, Expr.binary.injEq] at h
      exact h.2.1
    | _ => simp [Expr.erase, Expr.map, Tree.toExpr] at h

def disjunction : Link .logicalOperand where
  extend t := .logical .or t chainStart
  position := .or
  precedence _ := rfl
  nesting t hrank ht := by
    have hleft : nestingAt .or t.precedence t.nesting = 0 := by rw [nestingAt, if_pos hrank, ht]
    exact Nat.max_eq_zero_iff.2 ⟨hleft, rfl⟩
  below {t e} h := by
    cases e with
    | logical op left right span =>
      refine ⟨left, List.mem_cons_self, ?_⟩
      simp only [Expr.erase, Expr.map, Tree.toExpr, Expr.logical.injEq] at h
      exact h.2.1
    | _ => simp [Expr.erase, Expr.map, Tree.toExpr] at h

def call : Link .callee where
  extend t := .call t []
  position := .chain
  precedence _ := rfl
  nesting t hrank ht := by
    have hcallee : nestingAt .chain t.precedence t.nesting = 0 := by
      rw [nestingAt, if_pos hrank, ht]
    exact Nat.max_eq_zero_iff.2 ⟨hcallee, rfl⟩
  below {t e} h := by
    cases e with
    | call callee arguments span =>
      refine ⟨callee, List.mem_cons_self, ?_⟩
      simp only [Expr.erase, Expr.map, Tree.toExpr, Expr.call.injEq] at h
      exact h.1
    | _ => simp [Expr.erase, Expr.map, Tree.toExpr] at h

def access : Link .object where
  extend t := .target (.field t chainName.toMemberName)
  position := .chain
  precedence _ := rfl
  nesting t hrank ht := by
    show nestingAt .chain t.precedence t.nesting = 0
    rw [nestingAt, if_pos hrank, ht]
  below {t e} h := by
    cases e with
    | member object property computed span =>
      refine ⟨object, List.mem_cons_self, ?_⟩
      simp only [Expr.erase, Expr.map, Tree.toExpr, TargetTree.toExpr, Expr.member.injEq] at h
      exact h.1
    | _ => simp [Expr.erase, Expr.map, Tree.toExpr, TargetTree.toExpr] at h

/-- So many links one above the other. -/
def chain (l : Link role) : Nat → Tree
  | 0 => chainStart
  | k + 1 => l.extend (l.chain k)

theorem chain_flat (l : Link role) (k : Nat) :
    l.position.rank ≤ (l.chain k).precedence.rank ∧ (l.chain k).nesting = 0 := by
  induction k with
  | zero =>
    refine ⟨?_, rfl⟩
    show l.position.rank ≤ Precedence.primary.rank
    cases l.position <;> decide
  | succ k ih => exact ⟨Nat.le_of_eq (by rw [chain, l.precedence]), l.nesting _ ih.1 ih.2⟩

/-- The links of a chain lie below each other in the role. -/
theorem chain_path (l : Link role) {k : Nat} {e : Expr Span} (h : e.erase = (l.chain k).toExpr) :
    ∃ m, (Node.expr e).Path (List.replicate k role) m := by
  induction k generalizing e with
  | zero => exact ⟨_, .here⟩
  | succ k ih =>
    obtain ⟨e', hsite, he'⟩ := l.below h
    obtain ⟨m, hm⟩ := ih he'
    exact ⟨m, .down hsite hm⟩

/-- A statement that is a chain. -/
theorem exists_statement (l : Link role) (k : Nat) : ∃ source st m,
    (parse source).errors = [] ∧ (parse source).body = [st] ∧
      (Node.statement st).Path (.expression :: List.replicate k role) m := by
  have hlone : AllLone ((l.chain k).tokens ++ [Token.mark ";"]) :=
    (l.chain k).lone.append (.single (mark_lone (by decide)))
  have hnesting : (l.chain k).nesting + 2 ≤ nestingLimit := by
    rw [(l.chain_flat k).2]
    decide
  obtain ⟨herrors, hbody⟩ := Tree.parse_of_tokens hnesting (rest_spaced hlone)
  obtain ⟨st, hst, herase⟩ := List.map_eq_singleton_iff.1 hbody
  cases st with
  | expression e span =>
    simp only [Statement.erase, Statement.map, Statement.expression.injEq] at herase
    obtain ⟨m, hm⟩ := l.chain_path herase.1
    exact ⟨_, _, m, herrors, hst, .down List.mem_cons_self hm⟩
  | _ => simp [Statement.erase, Statement.map] at herase

/-! ### Superclasses -/

/-- A class that extends the chain. -/
def heirTokens (l : Link role) (k : Nat) : List Token :=
  .keyword "class" :: .word .identifier chainName.text :: .name "extends" ::
    ((l.chain k).tokens ++ [.mark "\x7b", .mark "\x7d"])

theorem heir_lone (l : Link role) (k : Nat) : AllLone (l.heirTokens k) := by
  refine .cons (Token.lone_of_scan (by decide +kernel)) (.cons chainName.lone ?_)
  refine .cons (Token.lone_of_scan (by decide +kernel)) ((l.chain k).lone.append ?_)
  exact .cons (mark_lone (by decide)) (.single (mark_lone (by decide)))

theorem heir_consumes {l : Link role} (hl : l.position = .chain) (k : Nat) :
    Consumes (level nestingLimit).statement (l.heirTokens k) [] (·.erase = .classDeclaration
      ⟨⟨chainName.text, ()⟩, some (l.chain k).toExpr, ⟨[], ()⟩, ()⟩) := by
  obtain ⟨hrank, hflat⟩ := l.chain_flat k
  have hgrows := (Tree.spelled (l.chain k) (nestingLimit - 1) (by rw [hflat]; decide)).grows
  have hsuper := (hgrows.looser (hl ▸ hrank)).spells.takes
  have hbody : Consumes (classBody (level (nestingLimit - 1))) [.mark "\x7b", .mark "\x7d"] [] _ :=
    classBody_consumes (ClassMember.items_take [] nofun)
  refine (classStatement_consumes (Parse.heir_consumes
    (hsuper.mono ?_ fun _ => id) hbody)).mono ?_
  · rintro t rfl
    decide
  · rintro _ ⟨⟨⟨text, idSpan⟩, superClass, ⟨body, bodySpan⟩, span⟩, rfl, hname, ⟨e, he, hsuper⟩,
      members, hmembers, hbody⟩
    simp only [Option.mem_def] at hname he hbody
    subst hname he hbody
    have hempty : members.filterMap id = [] := List.map_eq_nil_iff.1 hmembers
    have hsuper' : e.map (fun _ => ()) = (l.chain k).toExpr := hsuper
    rw [hempty]
    simp [hsuper', Statement.erase, Statement.map, Class.map, ClassBody.map, Expr.mapOption,
      Ident.map]

/-- A class whose superclass is a chain. -/
theorem exists_class {l : Link role} (hl : l.position = .chain) (k : Nat) : ∃ source st m,
    (parse source).errors = [] ∧ (parse source).body = [st] ∧
      (Node.statement st).Path (.part :: .superClass :: List.replicate k role) m := by
  obtain ⟨herrors, hbody⟩ := parseWith_of_statement (List.cons_ne_nil _ _) (heir_consumes hl k)
    (rest_spaced (l.heir_lone k))
  obtain ⟨st, hst, herase⟩ := List.map_eq_singleton_iff.1 hbody
  cases st with
  | classDeclaration c =>
    obtain ⟨id, superClass, body, span⟩ := c
    simp only [Statement.erase, Statement.map, Class.map, Statement.classDeclaration.injEq,
      Class.mk.injEq] at herase
    cases superClass with
    | none => simp [Expr.mapOption] at herase
    | some e =>
      obtain ⟨m, hm⟩ := l.chain_path (Option.some.inj herase.2.1)
      refine ⟨_, _, m, herrors, hst, .down List.mem_cons_self (.down ?_ hm)⟩
      simp [Node.sites]
  | _ => simp [Statement.erase, Statement.map] at herase

end Link

/-! ## The limit -/

/-- On every path down from a statement of a program, at most as many nodes as the limit allows
stand in guarded positions. Operands of operators between two, callees, objects and superclasses do
not, and such nodes chain without bound. -/
theorem nesting_limited :
    (∀ source : String, ∀ st ∈ (parse source).body, ∀ path m, (Node.statement st).Path path m →
      (Role.statement :: path).countP Role.guarded ≤ nestingLimit) ∧
    (∀ role ∈ [Role.binaryOperand, .logicalOperand, .callee, .object],
      role.guarded = false ∧ ∀ k, ∃ source st m, (parse source).errors = [] ∧
        (parse source).body = [st] ∧
        (Node.statement st).Path (.expression :: List.replicate k role) m) ∧
    Role.superClass.guarded = false ∧ ∀ role ∈ [Role.callee, .object], ∀ k, ∃ source st m,
      (parse source).errors = [] ∧ (parse source).body = [st] ∧
        (Node.statement st).Path (.part :: .superClass :: List.replicate k role) m := by
  refine ⟨fun source st hst path m hpath => ?_, ?_, rfl, ?_⟩
  · have hcount := body_shallow st hst hpath
    rw [List.countP_cons_of_pos rfl]
    exact hcount
  · simp only [List.forall_mem_cons, List.not_mem_nil, false_imp_iff, implies_true, and_true]
    exact ⟨⟨rfl, Link.sum.exists_statement⟩, ⟨rfl, Link.disjunction.exists_statement⟩,
      ⟨rfl, Link.call.exists_statement⟩, rfl, Link.access.exists_statement⟩
  · simp only [List.forall_mem_cons, List.not_mem_nil, false_imp_iff, implies_true, and_true]
    exact ⟨Link.exists_class (l := .call) rfl, Link.exists_class (l := .access) rfl⟩

/-- So many negations in front of a text. -/
def negated (n : Nat) (text : String) : String := "".pushn '!' n ++ text

/-- With 62 negations in front of a name, the limit is reached. -/
theorem nesting_limited_reached : ∃ st m, (parse (negated 62 "x;")).body = [st] ∧
    (Node.statement st).Path (.expression :: List.replicate 62 .operand) m ∧
    (Role.statement :: .expression :: List.replicate 62 Role.operand).countP Role.guarded = 64 ∧
    64 ≤ nestingLimit := by
  have hbody : ((parse (negated 62 "x;")).body.map fun st =>
      ((Node.statement st).follow (.expression :: List.replicate 62 .operand)).isSome) =
        [true] := by
    decide +kernel
  obtain ⟨st, hst, hfollow⟩ := List.map_eq_singleton_iff.1 hbody
  obtain ⟨m, hm⟩ := Option.isSome_iff_exists.1 hfollow
  have hpath := Node.path_of_follow hm
  have hcount := nesting_limited.1 (negated 62 "x;") st (by simp [hst]) _ m hpath
  exact ⟨st, m, hst, hpath, by decide, hcount⟩

/-- From the expression of a statement down to the name of a shorthand in a pattern. -/
def shorthandPath : List Role :=
  .expression :: (List.replicate 60 .operand ++
    [.bracketed, .target, .element, .part, .patternShorthand])

/-- The name of a shorthand in a pattern is no level deeper than the pattern: if it counted as a
value behind a colon does, a tree that is accepted would exceed the limit. -/
theorem shorthand_exceeds_limit : ∃ st m,
    (parse (negated 60 "x[[\x7ba\x7d]=1];")).errors = [] ∧
    (parse (negated 60 "x[[\x7ba\x7d]=1];")).body = [st] ∧
    (Node.statement st).Path shorthandPath m ∧
    nestingLimit < (Role.statement :: shorthandPath).countP
      fun role => role.guarded || role = .patternShorthand := by
  have hprogram : (fun program : Program => (program.errors, program.body.map fun st =>
      ((Node.statement st).follow shorthandPath).isSome))
        (parse (negated 60 "x[[\x7ba\x7d]=1];")) = ([], [true]) := by
    decide +kernel
  obtain ⟨herrors, hbody⟩ := Prod.mk.inj hprogram
  obtain ⟨st, hst, hfollow⟩ := List.map_eq_singleton_iff.1 hbody
  obtain ⟨m, hm⟩ := Option.isSome_iff_exists.1 hfollow
  exact ⟨st, m, herrors, hst, Node.path_of_follow hm, by decide⟩

end JsSyntax
