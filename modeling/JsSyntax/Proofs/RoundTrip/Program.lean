import JsSyntax.Proofs.RoundTrip.Runs
import JsSyntax.Proofs.RoundTrip.Spelling
import JsSyntax.Proofs.RoundTrip.Text

/-! # Written expressions are parsed back

The source that a tree is written as is parsed without errors, as one statement, whose expression
is the tree (`parse_source`): parentheses stand wherever the precedence or the grouping of the
operators demands them. How deep a tree may nest is limited, since parsing is.
-/

set_option autoImplicit false

namespace JsSyntax

open Parse

namespace Parse

/-! ## Statements -/

/-- The token starts no statement but an expression. -/
structure StartsExpression (x : Token) : Prop where
  declares : chosen .keyword VariableKind.keyword VariableKind.all x = none
  brace : x.isPunctuation "\x7b" = false
  semicolon : x.isPunctuation ";" = false
  keyword : x.kind = .keyword → x.isKeyword "function" = false ∧ x.isKeyword "async" = false ∧
    x.value ∉ ["class", "if", "for", "while", "return"]

theorem startsExpression_of_kind {x : Token} (hkeyword : x.kind ≠ .keyword)
    (hbrace : x.isPunctuation "\x7b" = false) (hsemicolon : x.isPunctuation ";" = false) :
    StartsExpression x :=
  ⟨chosen_eq_none_of_kind hkeyword, hbrace, hsemicolon, fun h => absurd h hkeyword⟩

theorem startsExpression {x : Token} (h : Precedence.assignment.starts x) :
    StartsExpression x := by
  rcases h with hk | hx
  · obtain ⟨-, hkeyword, hmark⟩ := not_mark_of_kind hk
    exact startsExpression_of_kind hkeyword (is_eq_false_of_kind hmark) (is_eq_false_of_kind hmark)
  · have hall : ∀ y ∈ Precedence.assignment.starters,
        chosen .keyword VariableKind.keyword VariableKind.all y = none ∧
        y.isPunctuation "\x7b" = false ∧ y.isPunctuation ";" = false ∧
        (y.kind = .keyword → y.isKeyword "function" = false ∧ y.isKeyword "async" = false ∧
          y.value ∉ ["class", "if", "for", "while", "return"]) := by decide
    obtain ⟨h₁, h₂, h₃, h₄⟩ := hall x hx
    exact ⟨h₁, h₂, h₃, h₄⟩

section
variable {d : Deeper} {u rest : List Token} {e : Expr Unit}

theorem keywordStatement_eq {s : State} (h : StartsExpression s.current)
    (hk : s.current.kind = .keyword) : keywordStatement d s = expressionStatement d s := by
  obtain ⟨hfunction, hasync, hvalue⟩ := h.keyword hk
  simp only [List.mem_cons, List.not_mem_nil, or_false, not_or] at hvalue
  obtain ⟨hclass, hif, hfor, hwhile, hreturn⟩ := hvalue
  rw [keywordStatement, peek_bind, isFunctionNext_bind, hfunction, hasync]
  simp [hclass, hif, hfor, hwhile, hreturn]

theorem statement_eq {s : State} (h : StartsExpression s.current) :
    ∃ s', s'.rest = s.rest ∧ statement d s = expressionStatement d s' := by
  let s' : State := { s with events := .statement s.current :: s.events }
  have h' : StartsExpression s'.current := h
  have hnone : acceptOneOf .keyword VariableKind.keyword VariableKind.all s' = .ok none s' :=
    acceptOneOf_of_none h.declares
  refine ⟨s', rfl, ?_⟩
  rw [statement, peek_bind, emit_bind, bind_of_ok hnone]
  simp only [h.brace, h.semicolon]
  split
  · next hk => exact keywordStatement_eq h' hk
  · rfl

/-- An expression with a semicolon behind it. -/
theorem expressionStatement_consumes {x : Token} (hx : u.head? = some x)
    (hstarts : StartsExpression x) (h : Consumes d.assignment u (.mark ";" :: rest) (·.erase = e)) :
    Consumes (statement d) (u ++ [.mark ";"]) rest (·.erase = .expression e ()) := by
  have hstatement : Consumes (expressionStatement d) (u ++ [.mark ";"]) rest
      (·.erase = .expression e ()) := by
    refine .peek fun _ => .bind h fun a ha => .require rfl (.spanFrom fun span => .pure ?_)
    rw [← ha]
    rfl
  intro s hs
  have hcurrent : s.current = x := by
    obtain ⟨v, rfl⟩ := List.head?_eq_some_iff.1 hx
    simp [State.current, hs]
  obtain ⟨s₁, hs₁, heq⟩ := statement_eq (hcurrent ▸ hstarts)
  rw [heq]
  exact hstatement (hs₁.trans hs)

end

end Parse

theorem Tree.statement_written {e : Tree} {n : Nat} (h : e.nesting + 2 ≤ n) (rest : List Token) :
    Consumes (level n).statement (e.tokens ++ [.mark ";"]) rest
      (·.erase = .expression e.toExpr ()) := by
  obtain ⟨m, rfl⟩ : ∃ m, n = m + 1 := ⟨n - 1, by omega⟩
  have hspells : Spells (level m).assignment .assignment e.tokens e.toExpr :=
    Tree.nested e.spelled (by omega)
  have hstops : Precedence.assignment.stops (.mark ";") := by decide
  have hexpression : Consumes (level m).assignment e.tokens (.mark ";" :: rest)
      (·.erase = e.toExpr) := hspells.takes.consumes hstops
  obtain ⟨x, u, htokens, hx⟩ := hspells.leads
  exact expressionStatement_consumes (by rw [htokens]; rfl) (startsExpression hx) hexpression

/-! ## Sources -/

/-- A source with the tokens of a tree and a semicolon behind them is the tree, whatever its
layout. -/
theorem Tree.parse_of_tokens {e : Tree} {source : String} (hn : e.nesting + 2 ≤ nestingLimit)
    (h : (startOf source).rest.map Token.phrase = (e.tokens ++ [Token.mark ";"]).map Token.phrase) :
    (parse source).errors = [] ∧
      (parse source).body.map Statement.erase = [.expression e.toExpr ()] := by
  have hne : e.tokens ++ [Token.mark ";"] ≠ [] :=
    List.append_ne_nil_of_right_ne_nil _ (List.cons_ne_nil _ _)
  exact parseWith_of_statement hne (Tree.statement_written hn []) h

/-- A tree is parsed as it is written: as one statement, without errors. -/
theorem parse_source (e : Tree) (hn : e.nesting + 2 ≤ nestingLimit) :
    (parse e.source).errors = [] ∧
      (parse e.source).body.map Statement.erase = [.expression e.toExpr ()] := by
  have hlone : AllLone (e.tokens ++ [Token.mark ";"]) :=
    e.lone.append (.single (mark_lone (by decide)))
  exact Tree.parse_of_tokens hn (rest_spaced hlone)

/-- A word that is checked to be a name. -/
def Tree.ofWord (text : String) (h : text.toList.head?.any isWordStart ∧
    text.toList.all isWordPart ∧ ¬ isReserved text) : Tree :=
  .target (.name ⟨⟨text, h.1, List.all_eq_true.1 h.2.1⟩, h.2.2⟩)

/-- A sum in a product keeps its parentheses. -/
theorem parse_source_product :
    (parse "( a + b ) * c ;").errors = [] ∧
      (parse "( a + b ) * c ;").body.map Statement.erase =
        [.expression (.binary .mul (.binary .add (.ident ⟨"a", ()⟩) (.ident ⟨"b", ()⟩) ())
          (.ident ⟨"c", ()⟩) ()) ()] := by
  have hsource : "( a + b ) * c ;" = Tree.source (.binary .mul (.binary .add
      (.ofWord "a" (by decide)) (.ofWord "b" (by decide))) (.ofWord "c" (by decide))) := by
    decide +kernel
  rw [hsource]
  exact parse_source _ (by decide)

end JsSyntax
