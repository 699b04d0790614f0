import JsSyntax.Proofs.Grammar.Derives

/-! # Phrases as stretches of tokens

Which nonterminals have an empty phrase (`Derives.ne_nil`), and which tokens a phrase cannot start
or end with: no expression starts with a semicolon (`Derives.head_not_semicolon`), and only
statements and lists of members may end with one (`Derives.isOpen`).
-/

set_option autoImplicit false

namespace JsSyntax

namespace Grammar

variable {τ σ : Type} {R : Reading τ σ}

/-! ## Empty phrases -/

/-- Nonterminals with an empty phrase. -/
def Nonterminal.isNullable : Nonterminal → Bool
  | .statements | .forInit | .clause | .heritage | .members | .optionalArguments | .slots
  | .properties => true
  | _ => false

theorem Parameters.ne_nil {u : List τ} {ids : List (Ident σ)} (h : Parameters R u ids) : u ≠ [] := by
  cases h <;> simp

/-- The phrases of all other nonterminals have at least one token. -/
theorem Derives.ne_nil {n : Nonterminal} {u : List τ} {a : n.Node σ} (h : Derives R n u a)
    (hn : n.isNullable = false) : u ≠ [] := by
  induction h with
  | method hp _ _ _ => simp [hp.ne_nil]
  | _ => simp_all [Nonterminal.isNullable]

/-! ## The last token of a phrase -/

/-- The nonterminals whose phrases may end with a semicolon. -/
def Nonterminal.endsLine : Nonterminal → Bool
  | .statement | .statements | .members => true
  | _ => false

section
variable (R : Reading τ σ)

/-- The tokens do not end with a semicolon. -/
def Open (u : List τ) : Prop := ∀ t ∈ u.getLast?, ¬ R.IsMark t ";"

variable {R}

theorem Open.nil : Open R [] := by simp [Open]

theorem Open.concat {u : List τ} {t : τ} (h : ¬ R.IsMark t ";") : Open R (u ++ [t]) := by
  simpa [Open] using h

theorem Open.single {t : τ} (h : ¬ R.IsMark t ";") : Open R [t] := by simpa [Open] using h

theorem Open.append {u v : List τ} (hu : Open R u) (hv : Open R v) : Open R (u ++ v) := by
  intro t ht
  rw [List.getLast?_append] at ht
  cases hl : v.getLast? with
  | none =>
    rw [hl] at ht
    exact hu t ht
  | some x =>
    rw [hl] at ht
    exact hv t (hl ▸ ht)

theorem Open.append_of_ne_nil {u v : List τ} (hv : Open R v) (hne : v ≠ []) :
    Open R (u ++ v) := by
  intro t ht
  rw [List.getLast?_append, List.getLast?_eq_some_getLast hne, Option.some_or] at ht
  exact hv t (List.getLast?_eq_some_getLast hne ▸ ht)

theorem Reading.IsMark.not_semicolon {t : τ} {v : String} (h : R.IsMark t v) (hv : v ≠ ";") :
    ¬ R.IsMark t ";" := fun h' => hv (h.2.symm.trans h'.2)

theorem not_semicolon_of_kind {t : τ} {kind : TokenKind} (h : R.kind t = kind)
    (hk : kind ≠ .punctuation) : ¬ R.IsMark t ";" := fun h' => hk (h.symm.trans h'.1)

theorem Reading.IsOperator.not_semicolon {t : τ} {v : String} (h : R.IsOperator t v) :
    ¬ R.IsMark t ";" := not_semicolon_of_kind h.1 (by decide)

theorem Reading.IsKeyword.not_semicolon {t : τ} {v : String} (h : R.IsKeyword t v) :
    ¬ R.IsMark t ";" := not_semicolon_of_kind h.1 (by decide)

theorem Reading.IsReference.not_semicolon {t : τ} (h : R.IsReference t) : ¬ R.IsMark t ";" := by
  obtain h | ⟨h, -⟩ := h <;> exact not_semicolon_of_kind h (by decide)

theorem Reading.IsName.not_semicolon {t : τ} (h : R.IsName t) : ¬ R.IsMark t ";" := by
  obtain h | h | h | h := h <;> exact not_semicolon_of_kind h (by decide)

end

/-- The phrases of all other nonterminals do not end with a semicolon. -/
theorem Derives.isOpen {n : Nonterminal} {u : List τ} {a : n.Node σ} (h : Derives R n u a)
    (hn : n.endsLine = false) : Open R u := by
  induction h with
  | updateAfter _ _ ht _ _ => exact .concat (ht.not_semicolon)
  | chainNew _ ht _ _ ihu ihv =>
    exact .append (.append (ihu rfl) (.single (ht.not_semicolon))) (ihv rfl)
  | new _ hu _ _ ihu ihv => exact .append (.append_of_ne_nil (ihu rfl) (hu.ne_nil rfl)) (ihv rfl)
  | namedAccess _ ht _ => exact .concat ht.not_semicolon
  | nameKey ht _ => exact .single ht.not_semicolon
  | this ht _ | super ht _ => exact .single ht.not_semicolon
  | hole ht _ ih => exact .append (.single (ht.not_semicolon (by decide))) (ih rfl)
  | moreSlots _ ht _ _ ih | moreProperties _ ht _ _ ih =>
    exact .append (.concat (ht.not_semicolon (by decide))) (ih rfl)
  | reference ht _ => exact .single ht.not_semicolon
  | shorthandProperty ht _ _ => exact .single ht.not_semicolon
  -- The other phrases end with a mark of their own, with a token of another kind, or with a part
  -- that is not empty.
  | _ => first
    | exact absurd hn (by decide)
    | exact .nil
    | exact .concat (Reading.IsMark.not_semicolon ‹_› (by decide))
    | (refine .append_of_ne_nil ?_ (Derives.ne_nil ‹_› rfl); apply_assumption; rfl)
    | (apply_assumption; rfl)
    | exact .single (not_semicolon_of_kind ‹_› (by decide))

/-! ## The first token of an expression -/

/-- The nonterminals of expressions, and functions, which may be expressions. -/
def Nonterminal.isExpression : Nonterminal → Bool
  | .assignment | .conditional | .or | .and | .equality | .comparison | .additive
  | .multiplicative | .unary | .update | .chain | .callee | .primary | .function => true
  | _ => false

/-- No expression starts with a semicolon. -/
theorem Derives.head_not_semicolon {n : Nonterminal} {u : List τ} {a : n.Node σ}
    (h : Derives R n u a) (hn : n.isExpression) : ∀ t ∈ u.head?, ¬ R.IsMark t ";" := by
  have hcons : ∀ {t : τ} {v : List τ}, ¬ R.IsMark t ";" →
      ∀ x ∈ ([t] ++ v).head?, ¬ R.IsMark x ";" := by
    rintro t v ht _ ⟨⟩
    exact ht
  have happend : ∀ {u v : List τ}, u ≠ [] → (∀ x ∈ u.head?, ¬ R.IsMark x ";") →
      ∀ x ∈ (u ++ v).head?, ¬ R.IsMark x ";" := by
    intro u v hne hu
    obtain ⟨x, u, rfl⟩ := List.exists_cons_of_ne_nil hne
    exact hu
  induction h with
  | reference ht _ => exact hcons (v := []) ht.not_semicolon
  | function hasync ht _ _ _ _ _ _ =>
    simp only [List.append_assoc]
    cases hasync with
    | on ha => exact hcons ha.not_semicolon
    | off => exact hcons ht.not_semicolon
  | this ht _ | super ht _ => exact hcons (v := []) ht.not_semicolon
  -- The other phrases start with a token of their own, or with an expression, which is not empty.
  | _ => first
    | exact absurd hn Bool.false_ne_true
    | (apply_assumption; rfl)
    | exact hcons (v := []) (not_semicolon_of_kind ‹_› (by decide))
    | (try simp only [List.append_assoc]
       first
         | (refine happend (Derives.ne_nil ‹_› rfl) ?_; apply_assumption; rfl)
         | exact hcons (Reading.IsKeyword.not_semicolon ‹_›)
         | exact hcons (Reading.IsOperator.not_semicolon ‹_›)
         | exact hcons (Reading.IsMark.not_semicolon ‹_› (by decide)))

/-! ## Phrases that end with a mark -/

/-- The nonterminals whose phrases end with a semicolon or a brace. -/
def Nonterminal.endsWithMark : Nonterminal → Bool
  | .statement | .block | .function | .method .. | .classDeclaration | .classBody => true
  | _ => false

theorem Derives.ends_with_mark {n : Nonterminal} {u : List τ} {a : n.Node σ}
    (h : Derives R n u a) (hn : n.endsWithMark) :
    ∃ v t, u = v ++ [t] ∧ R.kind t = .punctuation := by
  have happend : ∀ {u v : List τ}, (∃ w t, v = w ++ [t] ∧ R.kind t = .punctuation) →
      ∃ w t, u ++ v = w ++ [t] ∧ R.kind t = .punctuation := by
    rintro u _ ⟨w, t, rfl, ht⟩
    exact ⟨u ++ w, t, (List.append_assoc u w [t]).symm, ht⟩
  induction h with
  | emptyStatement ht _ => exact ⟨[], _, rfl, ht.1⟩
  -- The other phrases end with a mark of their own, or with a part that ends with one.
  | _ => first
    | exact absurd hn (by decide)
    | exact ⟨_, _, rfl, And.left ‹_›⟩
    | (refine happend ?_; apply_assumption; rfl)
    | (apply_assumption; rfl)

end Grammar

end JsSyntax
