import JsSyntax.Proofs.Towers.Texts

/-! # How many phrases may stand in one another

A tower of parentheses, negations, `new`s or blocks is a statement of a program as long as it is
no higher than the limit on nesting allows. A tower that is higher, by one or by any number, is one
error, and parsing goes on behind it (`tower_threshold`). Parentheses, prefix operators and `new`
leave two levels to the statement and its expression; a block needs the level of its statement only.
-/

set_option autoImplicit false

namespace JsSyntax

open Parse

namespace Tower

/-! ## What is read -/

/-- How much higher than an expression a tower may be: the statement around an expression and the
expression are two levels, and a block is a statement. -/
def spare : Tower → Nat
  | .parentheses | .negations | .constructions => 0
  | .blocks => 2

theorem declaration_consumes (k : Nat) (rest : List Token) :
    Consumes (level (k + 2)).statement declarationTokens rest (·.erase = declaration) := by
  have hstops : Precedence.assignment.stops (.mark ";") := by decide
  have hvalue : Consumes (level (k + 1)).assignment [.word .number "1"] (.mark ";" :: rest)
      (·.erase = .literal ⟨.number .one, "1", ()⟩) :=
    consumes_of_primary rfl (unprefixed_of_kind (by decide) (by decide))
      (number_consumes Double.ofNumeral?_one) hstops
  exact variableStatement_consumes hvalue

/-- So many negations of a name. -/
def negation (n : Nat) : Tree := (Tree.unary .not)^[n] (.ofWord "x" (by decide))

theorem negation_succ (n : Nat) : negation (n + 1) = .unary .not (negation n) :=
  Function.iterate_succ_apply' ..

theorem negation_rank (n : Nat) : Precedence.unary.rank ≤ (negation n).precedence.rank := by
  cases n with
  | zero => exact (by decide : Precedence.unary.rank ≤ Precedence.primary.rank)
  | succ n =>
    rw [negation_succ]
    exact Nat.le_refl _

theorem negation_nesting (n : Nat) : (negation n).nesting = n := by
  induction n with
  | zero => rfl
  | succ n ih =>
    rw [negation_succ, Tree.nesting, nestingAt, if_pos (negation_rank n), ih]

theorem negation_tokens (n : Nat) :
    (negation n).tokens = List.replicate n (.operator "!") ++ [.word .identifier "x"] := by
  induction n with
  | zero => rfl
  | succ n ih =>
    rw [negation_succ, Tree.tokens, placedAt, if_pos (negation_rank n), ih]
    rfl

theorem negation_toExpr (n : Nat) :
    (negation n).toExpr = (fun e => .unary .not e ())^[n] (.ident ⟨"x", ()⟩) := by
  induction n with
  | zero => rfl
  | succ n ih => rw [negation_succ, Tree.toExpr, ih, Function.iterate_succ_apply']

section
variable {n k : Nat} {rest : List Token}

theorem parentheses_read (h : n ≤ k) : Consumes (level (k + 2)).statement
    (tokens .parentheses n) rest (fun st => [st.erase] = statements .parentheses n) := by
  have hprimary : Consumes (primary (level k)) _ (.mark ";" :: rest) _ :=
    parentheses_consumes Double.ofNumeral?_one h
  exact (primaryStatement_consumes (startsPrimary_parentheses n "1") hprimary).mono
    fun st hst => congrArg ([·]) hst

theorem negations_read (h : n ≤ k) : Consumes (level (k + 2)).statement
    (tokens .negations n) rest (fun st => [st.erase] = statements .negations n) := by
  have hnesting : (negation n).nesting + 2 ≤ k + 2 := by
    rw [negation_nesting]
    exact Nat.add_le_add_right h 2
  have hstatement := Tree.statement_written hnesting rest
  rw [negation_tokens, negation_toExpr, List.append_assoc] at hstatement
  exact hstatement.mono fun st hst => congrArg ([·]) hst

theorem constructions_read (h : n ≤ k) : Consumes (level (k + 2)).statement
    (tokens .constructions n) rest (fun st => [st.erase] = statements .constructions n) := by
  have hstops : Precedence.chain.stops (.mark ";") := by decide
  have hprimary : Consumes (primary (level k))
      (List.replicate n (.keyword "new") ++ [.word .identifier "X"]) (.mark ";" :: rest) _ :=
    constructions_consumes hstops h
  have hstatement := primaryStatement_consumes (startsPrimary_constructions n "X") hprimary
  rw [List.append_assoc] at hstatement
  exact hstatement.mono fun st hst => congrArg ([·]) hst

theorem blocks_read (h : n + 1 ≤ k + 2) : Consumes (level (k + 2)).statement
    (tokens .blocks (n + 1)) rest (fun st => [st.erase] = statements .blocks (n + 1)) :=
  blocks_consumes h

end

theorem read {t : Tower} {n k : Nat} (h : n ≤ k + t.spare) (hne : t.tokens n ≠ [])
    (rest : List Token) : Consumes (level (k + 2)).statement (t.tokens n) rest
      (fun st => [st.erase] = t.statements n) := by
  cases t with
  | parentheses => exact parentheses_read h
  | negations => exact negations_read h
  | constructions => exact constructions_read h
  | blocks =>
    cases n with
    | zero => exact absurd rfl hne
    | succ n => exact blocks_read h

/-- A tower that is too high fails behind some of the tokens that it starts with. -/
theorem fails {t : Tower} {n k : Nat} (h : k + t.spare < n) {P : Diagnostic → Prop}
    (hP : ∀ p, P (Fault.nestingTooDeep.report p)) : ∃ j ≤ n, ∀ rest,
      Fails (level (k + 2)).statement (List.replicate j t.opener)
        (List.replicate (n - j) t.opener ++ rest) P := by
  have hstarts : ∀ {x}, x ∈ Precedence.assignment.starters → StartsExpression x :=
    fun hx => startsExpression (.inr hx)
  cases t with
  | parentheses =>
    refine ⟨k + 1, h, fun rest => .expressionStatement rfl (hstarts (by decide)) ?_⟩
    exact parentheses_fail hP (k + 1)
  | negations =>
    refine ⟨k + 1, h, fun rest => .expressionStatement rfl (hstarts (by decide)) ?_⟩
    exact .looser (p := .assignment) (q := .unary) (by decide) rfl (fun h => absurd h (by decide))
      (negations_fail hP (k + 1))
  | constructions =>
    obtain ⟨j, rfl⟩ : ∃ j, n = k + j + 1 := Nat.exists_eq_add_of_lt h
    have hmore : k + j + 1 - k = j + 1 := by omega
    refine ⟨k, by omega, fun rest => ?_⟩
    rw [hmore]
    have hhead : (List.replicate k (Token.keyword "new") ++ .keyword "new" ::
      (List.replicate j (Token.keyword "new") ++ rest)).head? = some (.keyword "new") := by
      cases k <;> rfl
    refine .expressionStatement hhead (hstarts (by decide)) ?_
    exact .looser (p := .assignment) (q := .primary) (by decide) hhead (fun _ => unprefixed_new)
      (constructions_fail hP k)
  | blocks =>
    obtain ⟨j, rfl⟩ : ∃ j, n = k + 2 + j + 1 := Nat.exists_eq_add_of_lt h
    have hmore : k + 2 + j + 1 - (k + 2) = j + 1 := by omega
    refine ⟨k + 2, by omega, fun rest => ?_⟩
    rw [hmore]
    exact blocks_fail hP (k + 2)

theorem statements_eq_nil {t : Tower} {n : Nat} (h : t.tokens n = []) : t.statements n = [] := by
  cases t with
  | blocks =>
    cases n with
    | zero => rfl
    | succ n => exact absurd ((braces_succ n).symm.trans h) (List.cons_ne_nil _ _)
  | _ => simp [tokens] at h

/-! ## Programs -/

theorem declaration_runs {s : State} (hs : s.rest = declarationTokens) (k : Nat) :
    ∃ st s', Runs (level (k + 2)) s [.ok st] s' ∧ st.erase = declaration := by
  obtain ⟨st, s', hok, hs', hst⟩ := declaration_consumes k [] (hs.trans (List.append_nil _).symm)
  exact ⟨st, s', .statement (hs ▸ List.cons_ne_nil _ _) hok (.done hs'), hst⟩

section
variable {t : Tower} {n k : Nat} {source : String}
  (hrest : (startOf source).rest.map Token.phrase =
    (t.tokens n ++ declarationTokens).map Token.phrase)
include hrest

theorem program_of_le (h : n ≤ k + t.spare) : (parseWith (k + 2) source).errors = [] ∧
    (parseWith (k + 2) source).body.map Statement.erase = t.statements n ++ [declaration] := by
  let s : State := ⟨none, t.tokens n ++ declarationTokens, default, []⟩
  by_cases hne : t.tokens n = []
  · obtain ⟨st, s', hruns, hst⟩ := declaration_runs (s := s) (by simp [s, hne]) k
    obtain ⟨hbody, herrors⟩ := parseWith_of_runs hruns hrest
    refine ⟨List.map_eq_nil_iff.1 herrors, hbody.trans ?_⟩
    rw [statements_eq_nil hne, ← hst]
    rfl
  · obtain ⟨tower, s₁, hok, hs₁, htower⟩ := read h hne declarationTokens (s := s) rfl
    obtain ⟨st, s', hruns, hst⟩ := declaration_runs hs₁ k
    have hruns : Runs (level (k + 2)) s [.ok tower, .ok st] s' :=
      .statement (List.append_ne_nil_of_left_ne_nil hne _) hok hruns
    obtain ⟨hbody, herrors⟩ := parseWith_of_runs hruns hrest
    refine ⟨List.map_eq_nil_iff.1 herrors, hbody.trans ?_⟩
    rw [← htower, ← hst]
    rfl

theorem program_of_lt (h : k + t.spare < n) :
    (parseWith (k + 2) source).errors.map Diagnostic.message = ["Maximum nesting depth exceeded"] ∧
      (parseWith (k + 2) source).body.map Statement.erase = [declaration] := by
  let s : State := ⟨none, t.tokens n ++ declarationTokens, default, []⟩
  obtain ⟨j, hj, hfails⟩ := fails h (P := (·.message = "Maximum nesting depth exceeded"))
    fun _ => rfl
  have hs : s.rest = List.replicate j t.opener ++ (List.replicate (n - j) t.opener ++
      (t.inner n ++ t.closer :: declarationTokens)) := by
    rw [← List.append_assoc, List.replicate_append_replicate, Nat.add_sub_cancel' hj]
    show t.tokens n ++ declarationTokens = _
    rw [t.tokens_eq (Nat.zero_lt_of_lt h)]
    simp
  obtain ⟨e, s₁, herror, hs₁, he⟩ := hfails _ hs
  have hgoes : ∀ x ∈ List.replicate (n - j) t.opener ++ t.inner n, goesOn x :=
    List.forall_mem_append.2 ⟨List.forall_mem_replicate.2 (.inr t.goesOn_opener), t.goesOn_inner n⟩
  have hcloser : startsStatement t.closer = false := by cases t <;> rfl
  have hafter : (s₁.afterFailure e).rest = declarationTokens :=
    rest_afterFailure (hs₁.trans (List.append_assoc ..).symm) hgoes hcloser rfl
  obtain ⟨st, s', hruns, hst⟩ := declaration_runs hafter k
  have hruns : Runs (level (k + 2)) s [.error e, .ok st] s' :=
    .failure (by simp [s, declarationTokens]) herror hruns
  obtain ⟨hbody, herrors⟩ := parseWith_of_runs hruns hrest
  refine ⟨herrors.trans ?_, hbody.trans ?_⟩
  · rw [← he]
    rfl
  · rw [← hst]
    rfl

end

end Tower

/-- The program of a tower with a declaration behind it. -/
def Tower.program (t : Tower) (n : Nat) : Program := parse (t.source n ++ "\nlet after = 1;")

/-- The declaration behind a tower is always read. In front of it there is one statement, if the
tower is not too high, and otherwise one error. -/
theorem tower_threshold (t : Tower) (n : Nat) :
    (∃ sts, (t.program n).body.map Statement.erase = sts ++ [Tower.declaration]) ∧
    ((t = .blocks → 1 ≤ n) →
      (n ≤ t.highest → (t.program n).errors = [] ∧ (t.program n).body.length = 2 ∧
        (t.program n).body.map Statement.erase = t.statements n ++ [Tower.declaration]) ∧
      (t.highest < n →
        (t.program n).errors.map Diagnostic.message = ["Maximum nesting depth exceeded"] ∧
        (t.program n).body.map Statement.erase = [Tower.declaration])) := by
  have hhighest : t.highest = 62 + t.spare := by cases t <;> rfl
  have hrest := Tower.rest_source t n
  rw [hhighest]
  by_cases hn : n ≤ 62 + t.spare
  · obtain ⟨herrors, hbody⟩ := Tower.program_of_le hrest hn
    refine ⟨⟨_, hbody⟩, fun hpos => ⟨fun _ => ⟨herrors, ?_, hbody⟩, fun _ => by omega⟩⟩
    have hlength := congrArg List.length hbody
    rw [List.length_map, List.length_append, Tower.length_statements hpos] at hlength
    exact hlength
  · have hlt := Tower.program_of_lt hrest (Nat.lt_of_not_le hn)
    exact ⟨⟨[], hlt.2⟩, fun _ => ⟨fun hle => absurd hle hn, fun _ => hlt⟩⟩

/-- Sixty-two parentheses are read, sixty-three are too many. -/
theorem tower_threshold_parentheses : (Tower.program .parentheses 62).errors = [] ∧
    (Tower.program .parentheses 63).errors.map Diagnostic.message =
      ["Maximum nesting depth exceeded"] :=
  ⟨(((tower_threshold .parentheses 62).2 nofun).1 (by decide)).1,
    (((tower_threshold .parentheses 63).2 nofun).2 (by decide)).1⟩

end JsSyntax
