import JsSyntax.Proofs.RoundTrip.Classes
import JsSyntax.Proofs.RoundTrip.Fails

/-! # Phrases that nest in themselves

A parenthesis, a prefix operator, a `new` or a block around a phrase is read where the phrase is
read with one level less. So many of them around one another are read as long as there are levels
for all of them, and otherwise the routine fails behind as many as there are levels.
-/

set_option autoImplicit false

namespace JsSyntax

open Parse

namespace Parse

variable {d : Deeper} {u rest : List Token} {t : Token} {e : Expr Unit}

/-! ## One phrase around another -/

theorem number_consumes {text : String} {value : Double} (h : Double.ofNumeral? text = some value) :
    Consumes (primary d) [.word .number text] rest
      (·.erase = .literal ⟨.number value, text, ()⟩) := by
  refine .peek_cons (.bind_nil (numberLiteral_consumes h) fun l hl => .pure ?_)
  subst hl
  rfl

theorem name_consumes {text : String} :
    Consumes (primary d) [.word .identifier text] rest (·.erase = .ident ⟨text, ()⟩) :=
  .peek_cons (.discard_advance (.pure rfl))

theorem group_consumes (h : Consumes d.assignment u (.mark ")" :: rest) (·.erase = e)) :
    Consumes (primary d) (.mark "(" :: (u ++ [.mark ")"])) rest (·.erase = e) :=
  .peek_cons (.peek_cons (.discard_advance (.bind h fun _ ha => .require rfl (.pure ha))))

/-- A `new` without arguments. -/
theorem construction_consumes (h : Consumes (primary d) u (t :: rest) (·.erase = e))
    (ht : Precedence.chain.stops t) :
    Consumes (construction d) (.keyword "new" :: u) (t :: rest) (·.erase = .new e [] ()) := by
  have hmarks : t.isPunctuation "(" = false ∧ t.isPunctuation "[" = false ∧
      t.isPunctuation "." = false ∧ t.isKeyword "new" = false := by
    simpa [Precedence.continues, and_assoc] using ht.continues
  have haccess : ∀ start a, Takes ((calleeLoop d).step start a) []
      (fun t => t.isPunctuation "[" = false ∧ t.isPunctuation "." = false) (· = none) :=
    fun _ _ => memberAccess?_none fun _ => id
  have hcallee : Consumes (calleeLoop d).run u (t :: rest) (·.erase = e) :=
    Loop.run_consumes h ⟨hmarks.2.1, hmarks.2.2.1⟩ haccess
  have hoptional : Takes (optionalArguments d) [] (· = t) (· = []) :=
    .accept_no (by rintro _ rfl; exact hmarks.1) (.pure rfl)
  rw [construction_eq]
  refine .peek fun _ => .discard_advance (.bind_nil hcallee fun a ha => ?_)
  refine .bind_nil (hoptional.consumes rfl) fun as has => .spanFrom fun span => .pure ?_
  rw [← ha, has]
  rfl

theorem new_consumes {P : Expr Span → Prop}
    (h : Consumes d.construction (.keyword "new" :: u) rest P) :
    Consumes (primary d) (.keyword "new" :: u) rest P := by
  refine .peek_cons (.peek_cons ?_)
  rw [if_neg (by decide), if_neg (by decide), if_neg (by decide)]
  exact .isFunctionNext_no rfl rfl h

/-- A block with statements in it. -/
theorem block_consumes {P : List (Statement Span) → Prop}
    (h : TakesItems (blockItem d) u (· = .mark "\x7d") P) :
    Consumes (statement d) (.mark "\x7b" :: (u ++ [.mark "\x7d"])) rest
      (fun st => ∃ body span, st = .block ⟨body, span⟩ ∧ P body) := by
  refine .peek_cons (.emit (.acceptOneOf_no (by decide) ?_))
  have hblock : Consumes (block d) (.mark "\x7b" :: (u ++ [.mark "\x7d"])) rest
      (fun b => P b.body) := by
    refine .peek fun _ => .require rfl (h.takes.bind_consumes rfl fun body hbody => ?_)
    exact .require rfl (.spanFrom fun span => .pure hbody)
  refine .bind_nil hblock fun b hb => .pure ?_
  obtain ⟨body, span⟩ := b
  exact ⟨body, span, rfl, hb⟩

/-! ## A declaration of one variable -/

theorem variableDeclarator_consumes {name : String}
    (h : Consumes d.assignment u (t :: rest) (·.erase = e)) :
    Consumes (variableDeclarator d) (.word .identifier name :: .operator "=" :: u) (t :: rest)
      (·.map (fun _ => ()) = ⟨⟨name, ()⟩, some e, ()⟩) := by
  have hinit : Consumes (some <$> d.assignment) u (t :: rest)
      (·.map (Expr.map fun _ => ()) = some e) := h.map fun a ha => congrArg some ha
  refine .identifier rfl (.accept_yes rfl (.bind_nil hinit fun init hinit => ?_))
  refine .spanFrom fun span => .pure ?_
  rw [VariableDeclarator.map, Expr.mapOption_eq_map, hinit]
  rfl

theorem variableList_consumes {kind : VariableKind} {start : Span} {v : VariableDeclarator Unit}
    (ht : t.isPunctuation "," = false)
    (h : Consumes (variableDeclarator d) u (t :: rest) (·.map (fun _ => ()) = v)) :
    Consumes (variableList d kind start) u (t :: rest)
      (·.map (fun _ => ()) = ⟨kind, [v], ()⟩) := by
  refine .bind_nil (h.commaItem_last ht).collect_last fun vs hvs => .spanFrom fun span => .pure ?_
  obtain ⟨v, rfl, rfl⟩ := hvs
  rfl

theorem variableDeclaration_consumes {kind : VariableKind} {start : Span}
    {v : VariableDeclarator Unit}
    (h : Consumes (variableDeclarator d) u (.mark ";" :: rest) (·.map (fun _ => ()) = v)) :
    Consumes (variableDeclaration d kind start) (u ++ [.mark ";"]) rest
      (·.map (fun _ => ()) = ⟨kind, [v], ()⟩) := by
  refine .bind (variableList_consumes (by decide) h) fun declaration hdeclaration => ?_
  refine .require rfl (.spanFrom fun span => .pure ?_)
  obtain ⟨kind, declarations, _⟩ := declaration
  exact hdeclaration

theorem variableStatement_consumes {name : String}
    (h : Consumes d.assignment u (.mark ";" :: rest) (·.erase = e)) :
    Consumes (statement d)
      (.keyword "let" :: (.word .identifier name :: .operator "=" :: u ++ [.mark ";"])) rest
      (·.erase = .vars ⟨.let, [⟨⟨name, ()⟩, some e, ()⟩], ()⟩) := by
  have hkind : chosen .keyword VariableKind.keyword VariableKind.all (.keyword "let") =
    some .let := by decide
  refine .peek_cons (.emit (.cons (fun hs => acceptOneOf_of_some hs hkind) ?_))
  refine .bind_nil (variableDeclaration_consumes (variableDeclarator_consumes h)) ?_
  exact fun declaration hdeclaration => .pure (congrArg Statement.vars hdeclaration)

/-! ## Expressions as statements -/

/-- The tokens start with one that starts a primary, and no other phrase. -/
def StartsPrimary (u : List Token) : Prop :=
  ∃ x, u.head? = some x ∧ Unprefixed x ∧ StartsExpression x

theorem StartsPrimary.of_kind {x : Token} (hoperator : x.kind ≠ .operator)
    (hkeyword : x.kind ≠ .keyword) (hbrace : x.isPunctuation "\x7b" = false)
    (hsemicolon : x.isPunctuation ";" = false) : StartsPrimary (x :: u) :=
  ⟨x, rfl, unprefixed_of_kind hoperator hkeyword,
    startsExpression_of_kind hkeyword hbrace hsemicolon⟩

theorem unprefixed_new : Unprefixed (.keyword "new") :=
  ⟨⟨by decide, by decide, by decide⟩, by decide⟩

theorem StartsPrimary.new : StartsPrimary (.keyword "new" :: u) :=
  ⟨_, rfl, unprefixed_new, startsExpression (.inr (by decide))⟩

theorem StartsPrimary.replicate {x : Token} (hx : StartsPrimary [x]) (hu : StartsPrimary u)
    (n : Nat) : StartsPrimary (List.replicate n x ++ u) := by
  cases n with
  | zero => exact hu
  | succ n => exact hx

/-- A primary with a semicolon behind it. -/
theorem primaryStatement_consumes {k : Nat} (hu : StartsPrimary u)
    (h : Consumes (primary (level k)) u (.mark ";" :: rest) (·.erase = e)) :
    Consumes (level (k + 2)).statement (u ++ [.mark ";"]) rest (·.erase = .expression e ()) := by
  obtain ⟨x, hhead, hx, hstarts⟩ := hu
  have hstops : Precedence.assignment.stops (.mark ";") := by decide
  exact expressionStatement_consumes hhead hstarts (consumes_of_primary hhead hx h hstops)

/-! ## Towers of phrases -/

/-- The same token in front and the same token behind, so many times. -/
def surrounded (n : Nat) (x y : Token) (u : List Token) : List Token :=
  List.replicate n x ++ (u ++ List.replicate n y)

theorem surrounded_succ (n : Nat) (x y : Token) (u : List Token) :
    surrounded (n + 1) x y u = x :: (surrounded n x y u ++ [y]) := by
  rw [surrounded, List.replicate_succ, List.replicate_succ']
  simp [surrounded]

section
variable {n m : Nat}

theorem startsPrimary_parentheses (n : Nat) (text : String) :
    StartsPrimary (surrounded n (.mark "(") (.mark ")") [.word .number text]) := by
  refine .replicate (.of_kind (by decide) (by decide) rfl rfl) (.of_kind ?_ ?_ rfl rfl) n
  · rintro ⟨⟩
  · rintro ⟨⟩

/-- A number in so many parentheses. -/
theorem parentheses_consumes {text : String} {value : Double}
    (hvalue : Double.ofNumeral? text = some value) (h : n ≤ m) : Consumes (primary (level m))
      (surrounded n (.mark "(") (.mark ")") [.word .number text]) rest
      (·.erase = .literal ⟨.number value, text, ()⟩) := by
  induction n generalizing m rest with
  | zero => exact number_consumes hvalue
  | succ n ih =>
    obtain ⟨k, rfl⟩ := Nat.exists_eq_add_of_le' (Nat.le_of_add_left_le h)
    have hstops : Precedence.assignment.stops (.mark ")") := by decide
    obtain ⟨x, hhead, hx, -⟩ := startsPrimary_parentheses n text
    rw [surrounded_succ]
    exact group_consumes (consumes_of_primary hhead hx (ih (Nat.le_of_add_le_add_right h)) hstops)

theorem startsPrimary_constructions (n : Nat) (text : String) :
    StartsPrimary (List.replicate n (.keyword "new") ++ [.word .identifier text]) := by
  refine .replicate .new (.of_kind ?_ ?_ rfl rfl) n
  · rintro ⟨⟩
  · rintro ⟨⟩

/-- A name behind so many `new`s. -/
theorem constructions_consumes {text : String} (ht : Precedence.chain.stops t) (h : n ≤ m) :
    Consumes (primary (level m)) (List.replicate n (.keyword "new") ++ [.word .identifier text])
      (t :: rest) (·.erase = (fun e => .new e [] ())^[n] (.ident ⟨text, ()⟩)) := by
  induction n generalizing m with
  | zero => exact name_consumes
  | succ n ih =>
    obtain ⟨k, rfl⟩ := Nat.exists_eq_add_of_le' (Nat.le_of_add_left_le h)
    rw [Function.iterate_succ_apply']
    exact new_consumes (construction_consumes (ih (by omega)) ht)

/-- Braces in one another, with nothing in the innermost ones. -/
def braces (n : Nat) : List Token := surrounded n (.mark "\x7b") (.mark "\x7d") []

theorem braces_succ (n : Nat) :
    braces (n + 1) = .mark "\x7b" :: (braces n ++ [.mark "\x7d"]) :=
  surrounded_succ n _ _ []

/-- The statements in front of the end of a block that so many braces are read as. -/
def nestedBlocks : Nat → List (Statement Unit)
  | 0 => []
  | n + 1 => [.block ⟨nestedBlocks n, ()⟩]

theorem block_around_consumes (h : TakesItems (blockItem (level m)) (braces n) (· = .mark "\x7d")
      (fun body => body.map Statement.erase = nestedBlocks n)) :
    Consumes (statement (level m)) (braces (n + 1)) rest
      (fun st => [st.erase] = nestedBlocks (n + 1)) := by
  rw [braces_succ]
  refine (block_consumes h).mono ?_
  rintro _ ⟨body, span, rfl, hbody⟩
  have hbody' : body.map (Statement.map fun _ => ()) = nestedBlocks n := hbody
  simp [Statement.erase, Statement.map, Block.map, nestedBlocks, hbody']

theorem blockItem_none {d : Deeper} : TakesItems (blockItem d) [] (· = .mark "\x7d")
    (fun body => body.map Statement.erase = []) := by
  refine .stop (.isMarkNext (b := true) ?_ (.pure ⟨rfl, rfl⟩))
  rintro _ rfl
  rfl

theorem blockItems_taken (h : n ≤ m) : TakesItems (blockItem (level m)) (braces n)
    (· = .mark "\x7d") (fun body => body.map Statement.erase = nestedBlocks n) := by
  induction n generalizing m with
  | zero => exact blockItem_none
  | succ n ih =>
    obtain ⟨k, rfl⟩ := Nat.exists_eq_add_of_le' (Nat.le_of_add_left_le h)
    have hitem : Takes (blockItem (level (k + 1))) (braces (n + 1)) (· = .mark "\x7d")
        (fun item => ∃ st, item = .more st ∧ ∀ sts, sts.map Statement.erase = [] →
          (st :: sts).map Statement.erase = nestedBlocks (n + 1)) := by
      refine Consumes.takes fun rest => ?_
      have hblock : Consumes (statement (level k)) (braces (n + 1)) rest _ :=
        block_around_consumes (ih (Nat.le_of_add_le_add_right h))
      rw [braces_succ] at hblock ⊢
      refine .isMarkNext rfl (.atEnd (hblock.bind_nil fun st hst => .pure ⟨st, rfl, ?_⟩))
      intro sts hsts
      rw [List.map_cons, hsts, hst]
    have hne : braces (n + 1) ≠ [] := by
      rw [braces_succ]
      exact List.cons_ne_nil _ _
    rw [← List.append_nil (braces (n + 1))]
    exact .more hne hitem (fun _ ht => ht) blockItem_none

theorem blocks_consumes (h : n + 1 ≤ m) : Consumes (level m).statement (braces (n + 1)) rest
    (fun st => [st.erase] = nestedBlocks (n + 1)) := by
  obtain ⟨k, rfl⟩ := Nat.exists_eq_add_of_le' (Nat.le_of_add_left_le h)
  exact block_around_consumes (blockItems_taken (Nat.le_of_add_le_add_right h))

/-! ## Too many of them -/

variable {P : Diagnostic → Prop} (hP : ∀ p, P (Fault.nestingTooDeep.report p))
include hP

theorem parentheses_fail (m : Nat) :
    Fails (level m).assignment (List.replicate m (.mark "(")) rest P := by
  induction m with
  | zero => exact .fail hP
  | succ m ih =>
    have hplain : Unprefixed (.mark "(") := unprefixed_of_kind (by decide) (by decide)
    exact .looser (p := .assignment) (q := .primary) (by decide) rfl (fun _ => hplain) (.group ih)

theorem negations_fail (m : Nat) :
    Fails (level m).unary (List.replicate m (.operator "!")) rest P := by
  induction m with
  | zero => exact .fail hP
  | succ m ih => exact .negation ih

theorem constructions_fail (m : Nat) :
    Fails (primary (level m)) (List.replicate m (.keyword "new")) (.keyword "new" :: rest) P := by
  induction m with
  | zero => exact .primary_new rfl (.fail hP)
  | succ m ih => exact .primary_new rfl (.construction ih)

theorem blocks_fail (m : Nat) :
    Fails (level m).statement (List.replicate m (.mark "\x7b")) (.mark "\x7b" :: rest) P := by
  induction m with
  | zero => exact .fail hP
  | succ m ih =>
    have hhead : (List.replicate m (Token.mark "\x7b") ++ .mark "\x7b" :: rest).head? =
        some (.mark "\x7b") := by cases m <;> rfl
    exact .block hhead rfl ih

end

end Parse

end JsSyntax
