import JsSyntax.Ast.Node
import JsSyntax.Proofs.Grammar.Derives

/-! # Nodes laid out on tokens

`Laid n u`: the node `n` spans the tokens `u`, and its children are laid out one behind another on
stretches of them, and so on down the tree. `Strewn ns u`: the nodes `ns` are laid out one behind
another on stretches of `u`. Whatever the grammar derives from a list of tokens is strewn over it
(`Grammar.Derives.strewn`).
-/

set_option autoImplicit false

namespace JsSyntax

open Grammar

/-! ## The relations -/

mutual

inductive Laid : Node Span → List Token → Prop where
  | node {n : Node Span} {u : List Token} :
      Reading.spanned.Covers u n.span → Strewn n.children u → Laid n u
  /-- The key and the value of a shorthand are the same token. -/
  | shorthand {n : Node Span} {t : Token} :
      n.isShorthand → Reading.spanned.Covers [t] n.span → (∀ c ∈ n.children, Laid c [t]) →
      Laid n [t]

inductive Strewn : List (Node Span) → List Token → Prop where
  | nil {u : List Token} : Strewn [] u
  | cons {n : Node Span} {ns : List (Node Span)} {u v w : List Token} :
      Laid n v → Strewn ns w → Strewn (n :: ns) (u ++ (v ++ w))

end

theorem Laid.covers {n : Node Span} {u : List Token} (h : Laid n u) :
    Reading.spanned.Covers u n.span := by
  cases h with
  | node h _ => exact h
  | shorthand _ h _ => exact h

/-- A node that wraps another one. -/
theorem Laid.wrap {n c : Node Span} {u : List Token} (h : Laid c u) (hc : n.children = [c])
    (hs : n.span = c.span) : Laid n u := by
  refine .node (hs ▸ h.covers) ?_
  rw [hc]
  simpa using Strewn.cons (u := []) h (.nil (u := []))

namespace Strewn

variable {ns ms : List (Node Span)} {u v : List Token}

/-! ## Lists of nodes -/

theorem before (h : Strewn ns u) (v : List Token) : Strewn ns (v ++ u) := by
  cases h with
  | nil => exact .nil
  | cons hn hns =>
    rw [← List.append_assoc]
    exact .cons hn hns

theorem append (h : Strewn ns u) (h' : Strewn ms v) : Strewn (ns ++ ms) (u ++ v) := by
  induction ns generalizing u with
  | nil => exact h'.before u
  | cons n ns ih =>
    cases h with
    | cons hn hns =>
      rw [List.append_assoc, List.append_assoc]
      exact .cons hn (ih hns)

theorem behind (h : Strewn ns u) (v : List Token) : Strewn ns (u ++ v) := by
  simpa using h.append (.nil (u := v))

theorem single {n : Node Span} (h : Laid n u) : Strewn [n] u := by
  simpa using Strewn.cons (u := []) h (.nil (u := []))

/-- A node that wraps another one. -/
theorem wrap {n c : Node Span} (h : Strewn [c] u) (hc : n.children = [c])
    (hs : n.span = c.span) : Strewn [n] u := by
  cases h with
  | cons hn hns => exact .cons (hn.wrap hc hs) hns

/-- A leaf. -/
theorem leaf {n : Node Span} (h : Reading.spanned.Covers u n.span) (hc : n.children = []) :
    Strewn [n] u :=
  .single (.node h (hc ▸ .nil))

/-- A node whose children are strewn over its tokens. -/
theorem node {n : Node Span} (h : Reading.spanned.Covers u n.span) (hc : Strewn n.children u) :
    Strewn [n] u :=
  .single (.node h hc)

/-- Each of the nodes is laid out on a stretch. -/
theorem exists_laid (h : Strewn ns u) {n : Node Span} (hn : n ∈ ns) :
    ∃ v, v <:+: u ∧ Laid n v := by
  induction ns generalizing u with
  | nil => exact absurd hn List.not_mem_nil
  | cons m ns ih =>
    cases h with
    | @cons _ _ before v w hm hns =>
      rcases List.mem_cons.1 hn with rfl | hn
      · exact ⟨v, ⟨before, w, List.append_assoc ..⟩, hm⟩
      · obtain ⟨v', hv', hlaid⟩ := ih hns hn
        refine ⟨v', hv'.trans ?_, hlaid⟩
        exact ((List.suffix_append v w).trans (List.suffix_append before _)).isInfix

end Strewn

/-! ## Patterns -/

mutual

/-- What is laid out as an expression is laid out as the pattern it is read as. -/
theorem Laid.pattern : (p : Pattern Span) → {u : List Token} → Laid (.expr p.toExpr) u →
    Laid (.pattern p) u
  | .ident _, _, .node h hc => .node h hc
  | .member .., _, .node h hc => .node h hc
  | .array elements _, _, .node h hc => .node h (Strewn.slots elements hc)
  | .object properties _, _, .node h hc => .node h (Strewn.patternProperties properties hc)

theorem Strewn.slots : (ps : List (Option (Pattern Span))) → {u : List Token} →
    Strewn ((Pattern.slotsToExprs ps).filterMap (Option.map .expr)) u →
    Strewn (ps.filterMap (Option.map .pattern)) u
  | [], _, _ => .nil
  | none :: ps, _, h => Strewn.slots ps h
  | some p :: ps, _, .cons hp hps => .cons (Laid.pattern p hp) (Strewn.slots ps hps)

theorem Laid.patternProperty : (p : PatternProperty Span) → {u : List Token} →
    Laid (.property p.toProperty) u → Laid (.patternProperty p) u
  | ⟨_, value, _, _, _⟩, _, .node h hc => by
    refine .node h ?_
    obtain _ | ⟨hk, hvs⟩ := hc
    obtain _ | ⟨hv, hnil⟩ := hvs
    exact .cons hk (.cons (Laid.pattern value hv) hnil)
  | ⟨_, value, _, _, _⟩, _, .shorthand hs h hc =>
    .shorthand hs h <| List.forall_mem_cons.2 ⟨hc _ List.mem_cons_self, List.forall_mem_singleton.2
      (Laid.pattern value (hc _ (List.mem_cons_of_mem _ List.mem_cons_self)))⟩

theorem Strewn.patternProperties : (ps : List (PatternProperty Span)) → {u : List Token} →
    Strewn ((PatternProperty.allToProperties ps).map .property) u →
    Strewn (ps.map .patternProperty) u
  | [], _, _ => .nil
  | p :: ps, _, .cons hp hps => .cons (Laid.patternProperty p hp) (Strewn.patternProperties ps hps)

end

theorem Strewn.pattern {p : Pattern Span} {u : List Token} (h : Strewn [.expr p.toExpr] u) :
    Strewn [.pattern p] u := by
  cases h with
  | cons hp hnil => exact .cons hp.pattern hnil

/-! ## Expressions that are no patterns -/

/-- A span over some tokens starts where one of them does. -/
theorem exists_start {u : List Token} {s : Span} (h : Reading.spanned.Covers u s) :
    ∃ t ∈ u, s.start = t.span.start := by
  obtain ⟨first, last, hf, -, rfl⟩ := h
  refine ⟨first, List.mem_of_mem_head? hf, ?_⟩
  unfold Span.through
  split <;> rfl

theorem except_bind_eq_error {ε α β : Type} {x : Except ε α} {f : α → Except ε β} {e : ε} :
    (x >>= f) = .error e ↔ x = .error e ∨ ∃ a, x = .ok a ∧ f a = .error e := by
  cases x <;> simp [bind, Except.bind]

mutual

/-- What is refused as a part of a pattern starts with one of the tokens. -/
theorem Laid.refused : (e : Expr Span) → {u : List Token} → {s : Span} → Laid (.expr e) u →
    e.asPattern = .error s → ∃ t ∈ u, s.start = t.span.start
  | .ident _, _, _, _, he => nomatch he
  | .member .., _, _, _, he => nomatch he
  | .array elements _, _, _, .node _ hc, he => by
    obtain he | ⟨_, _, ⟨⟩⟩ := except_bind_eq_error.1 he
    exact Strewn.slotsRefused elements hc he
  | .object properties _, _, _, .node _ hc, he => by
    obtain he | ⟨_, _, ⟨⟩⟩ := except_bind_eq_error.1 he
    exact Strewn.propertiesRefused properties hc he
  | .literal _, _, _, h, .refl _ => exists_start h.covers
  | .function _, _, _, h, .refl _ => exists_start h.covers
  | .template .., _, _, h, .refl _ => exists_start h.covers
  | .this _, _, _, h, .refl _ => exists_start h.covers
  | .super _, _, _, h, .refl _ => exists_start h.covers
  | .unary .., _, _, h, .refl _ => exists_start h.covers
  | .binary .., _, _, h, .refl _ => exists_start h.covers
  | .logical .., _, _, h, .refl _ => exists_start h.covers
  | .conditional .., _, _, h, .refl _ => exists_start h.covers
  | .assign .., _, _, h, .refl _ => exists_start h.covers
  | .update .., _, _, h, .refl _ => exists_start h.covers
  | .await .., _, _, h, .refl _ => exists_start h.covers
  | .call .., _, _, h, .refl _ => exists_start h.covers
  | .new .., _, _, h, .refl _ => exists_start h.covers

theorem Strewn.slotsRefused : (es : List (Option (Expr Span))) → {u : List Token} → {s : Span} →
    Strewn (es.filterMap (Option.map .expr)) u → Expr.slotsAsPatterns es = .error s →
    ∃ t ∈ u, s.start = t.span.start
  | [], _, _, _, he => nomatch he
  | none :: es, _, _, h, he => by
    obtain he | ⟨_, _, he⟩ := except_bind_eq_error.1 he
    · cases he
    · obtain he | ⟨_, _, ⟨⟩⟩ := except_bind_eq_error.1 he
      exact Strewn.slotsRefused es h he
  | some e :: es, _, _, .cons hp hps, he => by
    obtain he | ⟨_, _, he⟩ := except_bind_eq_error.1 he
    · obtain he | ⟨_, _, ⟨⟩⟩ := except_bind_eq_error.1 he
      obtain ⟨t, ht, hs⟩ := Laid.refused e hp he
      exact ⟨t, by simp [ht], hs⟩
    · obtain he | ⟨_, _, ⟨⟩⟩ := except_bind_eq_error.1 he
      obtain ⟨t, ht, hs⟩ := Strewn.slotsRefused es hps he
      exact ⟨t, by simp [ht], hs⟩

theorem Laid.propertyRefused : (p : Property Span) → {u : List Token} → {s : Span} →
    Laid (.property p) u → p.asPattern = .error s → ∃ t ∈ u, s.start = t.span.start
  | ⟨key, value, kind, computed, shorthand, method, s⟩, _, _, h, he => by
    unfold Property.asPattern at he
    split at he
    · cases he
      exact exists_start h.covers
    · next hvalue =>
      obtain he | ⟨_, _, ⟨⟩⟩ := except_bind_eq_error.1 he
      simp only [ne_eq, not_or, Classical.not_not, Bool.not_eq_true] at hvalue
      have hnode : (Property.mk key value kind computed shorthand method s).valueNode =
          .expr value := if_pos hvalue
      match h with
      | .node _ hc =>
        obtain _ | ⟨-, hvs⟩ := hc
        obtain _ | ⟨hv, -⟩ := hvs
        obtain ⟨t, ht, hs⟩ := Laid.refused value (hnode ▸ hv) he
        exact ⟨t, by simp [ht], hs⟩
      | .shorthand _ _ hc =>
        exact Laid.refused value (hnode ▸ hc _ (List.mem_cons_of_mem _ List.mem_cons_self)) he

theorem Strewn.propertiesRefused : (ps : List (Property Span)) → {u : List Token} → {s : Span} →
    Strewn (ps.map .property) u → Property.allAsPatterns ps = .error s →
    ∃ t ∈ u, s.start = t.span.start
  | [], _, _, _, he => nomatch he
  | p :: ps, _, _, .cons hp hps, he => by
    obtain he | ⟨_, _, he⟩ := except_bind_eq_error.1 he
    · obtain ⟨t, ht, hs⟩ := Laid.propertyRefused p hp he
      exact ⟨t, by simp [ht], hs⟩
    · obtain he | ⟨_, _, ⟨⟩⟩ := except_bind_eq_error.1 he
      obtain ⟨t, ht, hs⟩ := Strewn.propertiesRefused ps hps he
      exact ⟨t, by simp [ht], hs⟩

end

/-! ## Phrases -/

namespace Grammar

/-- The nodes of the trees of a nonterminal. -/
def Nonterminal.nodes : (n : Nonterminal) → n.Node Span → List (JsSyntax.Node Span)
  | .statement, st => [.statement st]
  | .statements, sts => sts.map .statement
  | .block, b => [.block b]
  | .declarators, ds => ds.map .declarator
  | .declarator, d => [.declarator d]
  | .forInit, init => init.toList.map ForInit.node
  | .clause, e => e.toList.map .expr
  | .function, f => [.function f]
  | .method .., f => [.function f]
  | .classDeclaration, c => [.classDeclaration c]
  | .heritage, e => e.toList.map .expr
  | .classBody, b => [.classBody b]
  | .members, ms => ms.map .method
  | .member, m => [.method m]
  | .assignment, e => [.expr e]
  | .conditional, e => [.expr e]
  | .or, e => [.expr e]
  | .and, e => [.expr e]
  | .equality, e => [.expr e]
  | .comparison, e => [.expr e]
  | .additive, e => [.expr e]
  | .multiplicative, e => [.expr e]
  | .unary, e => [.expr e]
  | .update, e => [.expr e]
  | .chain, e => [.expr e]
  | .callee, e => [.expr e]
  | .primary, e => [.expr e]
  | .access, p => [p.node]
  | .arguments, es => es.map .expr
  | .optionalArguments, es => es.map .expr
  | .expressions, es => es.map .expr
  | .slots, es => es.filterMap (Option.map .expr)
  | .properties, ps => ps.map .property
  | .property, p => [.property p]
  | .key, k => [k.node]

variable {u : List Token}

theorem ident_strewn {t : Token} {s : Span} (h : Reading.spanned.Covers [t] s) :
    Strewn [.ident (Reading.spanned.ident t s)] [t] :=
  .leaf h rfl

theorem literal_strewn {value : Literal Span} (h : Reading.spanned.Covers u value.span) :
    Strewn [.expr (.literal value)] u :=
  .wrap (c := .literal value) (.leaf h rfl) rfl rfl

theorem Names.strewn {ids : List (Ident Span)} (h : Names Reading.spanned u ids) :
    Strewn (ids.map .ident) u := by
  induction h with
  | one _ h => exact ident_strewn h
  | more _ h _ _ ih => exact ((ident_strewn h).behind _).append ih

theorem Parameters.strewn {ids : List (Ident Span)} (h : Parameters Reading.spanned u ids) :
    Strewn (ids.map .ident) u := by
  cases h with
  | none _ _ => exact .nil
  | some _ h _ => exact (h.strewn.before _).behind _

theorem FunctionName.strewn {id : Option (Ident Span)} (h : FunctionName Reading.spanned u id) :
    Strewn (id.toList.map .ident) u := by
  cases h with
  | none => exact .nil
  | some _ h => exact ident_strewn h

/-- Each production puts the nodes of its parts one behind another, with its own tokens between
them. -/
theorem Derives.strewn {n : Nonterminal} {a : n.Node Span} (h : Derives Reading.spanned n u a) :
    Strewn (n.nodes a) u := by
  induction h with
  | @varsStatement _ _ kind _ ds s _ _ _ h ih =>
    have hds : Strewn [.declaration ⟨kind, ds, s⟩] _ := .node h ((ih.before _).behind _)
    exact hds.wrap rfl rfl
  | functionStatement _ ih => exact .wrap ih rfl rfl
  | classStatement _ ih => exact .wrap ih rfl rfl
  | expressionStatement _ _ h ih => exact .node h (ih.behind _)
  | blockStatement _ ih => exact .wrap ih rfl rfl
  | ifStatement _ _ _ _ _ h ih₁ ih₂ => exact .node h (((ih₁.before _).behind _).append ih₂)
  | ifElseStatement _ _ _ _ _ _ _ h ih₁ ih₂ ih₃ =>
    exact .node h (((((ih₁.before _).behind _).append ih₂).behind _).append ih₃)
  | forStatement _ _ _ _ _ _ _ _ _ h ih₁ ih₂ ih₃ ih₄ =>
    exact .node h
      (((((((ih₁.before _).behind _).append ih₂).behind _).append ih₃).behind _).append ih₄)
  | whileStatement _ _ _ _ _ h ih₁ ih₂ => exact .node h (((ih₁.before _).behind _).append ih₂)
  | returnStatement _ _ _ h ih => exact .node h ((ih.before _).behind _)
  | emptyStatement _ h => exact .leaf h rfl
  | noStatements => exact .nil
  | moreStatements _ _ ih₁ ih₂ => exact ih₁.append ih₂
  | block _ _ _ h ih => exact .node h ((ih.before _).behind _)
  | oneDeclarator _ ih => exact ih
  | moreDeclarators _ _ _ ih₁ ih₂ => exact (ih₁.behind _).append ih₂
  | bareDeclarator _ h h' => exact .node h' (ident_strewn h)
  | initDeclarator _ h _ _ h' ih => exact .node h' (((ident_strewn h).behind _).append ih)
  | noInit => exact .nil
  | varsInit _ _ h ih => exact .node h (ih.before _)
  | exprInit _ ih => exact ih
  | noClause => exact .nil
  | clause _ ih => exact ih
  | function _ _ _ hid hparams _ h ih =>
    exact .node h (((hid.strewn.before _).append hparams.strewn).append ih)
  | method hparams _ h ih => exact .node h (hparams.strewn.append ih)
  | classDeclaration _ _ h _ _ h' ih₁ ih₂ =>
    exact .node h' ((((ident_strewn h).before _).append ih₁).append ih₂)
  | noHeritage => exact .nil
  | heritage _ _ ih => exact ih.before _
  | classBody _ _ _ h ih => exact .node h ((ih.before _).behind _)
  | noMembers => exact .nil
  | skippedMark _ _ ih => exact ih.before _
  | moreMembers _ _ ih₁ ih₂ => exact ih₁.append ih₂
  | methodMember _ _ _ _ _ h ih₁ ih₂ => exact .node h ((ih₁.before _).append ih₂)
  | accessorMember _ _ _ _ h ih₁ ih₂ => exact .node h ((ih₁.before _).append ih₂)
  | assignmentOfConditional _ ih => exact ih
  | assignment _ _ _ h ih₁ ih₂ => exact .node h ((ih₁.pattern.behind _).append ih₂)
  | conditionalOfOr _ ih => exact ih
  | conditional _ _ _ _ _ h ih₁ ih₂ ih₃ =>
    exact .node h ((((ih₁.behind _).append ih₂).behind _).append ih₃)
  | orOfAnd _ ih => exact ih
  | or _ _ _ h ih₁ ih₂ => exact .node h ((ih₁.behind _).append ih₂)
  | andOfEquality _ ih => exact ih
  | and _ _ _ h ih₁ ih₂ => exact .node h ((ih₁.behind _).append ih₂)
  | equalityOfComparison _ ih => exact ih
  | equality _ _ _ _ h ih₁ ih₂ => exact .node h ((ih₁.behind _).append ih₂)
  | comparisonOfAdditive _ ih => exact ih
  | comparison _ _ _ _ h ih₁ ih₂ => exact .node h ((ih₁.behind _).append ih₂)
  | additiveOfMultiplicative _ ih => exact ih
  | additive _ _ _ _ h ih₁ ih₂ => exact .node h ((ih₁.behind _).append ih₂)
  | multiplicativeOfUnary _ ih => exact ih
  | multiplicative _ _ _ _ h ih₁ ih₂ => exact .node h ((ih₁.behind _).append ih₂)
  | unaryOfUpdate _ ih => exact ih
  | await _ _ h ih => exact .node h (ih.before _)
  | unaryMark _ _ _ h ih => exact .node h (ih.before _)
  | unaryWord _ _ _ h ih => exact .node h (ih.before _)
  | updateOfChain _ ih => exact ih
  | updateBefore _ _ _ h ih => exact .node h (ih.before _)
  | updateAfter _ _ _ h ih => exact .node h (ih.behind _)
  | chainOfPrimary _ ih => exact ih
  | call _ _ h ih₁ ih₂ => exact .node h (ih₁.append ih₂)
  | chainAccess _ _ h ih₁ ih₂ => exact .node h (ih₁.append ih₂)
  | chainNew _ _ _ h ih₁ ih₂ => exact .node h ((ih₁.behind _).append ih₂)
  | calleeOfPrimary _ ih => exact ih
  | calleeAccess _ _ h ih₁ ih₂ => exact .node h (ih₁.append ih₂)
  | computedAccess _ _ _ ih => exact (ih.before _).behind _
  | namedAccess _ _ h => exact (ident_strewn h).before _
  | noArguments _ _ => exact .nil
  | arguments _ _ _ ih => exact (ih.before _).behind _
  | omittedArguments => exact .nil
  | givenArguments _ ih => exact ih
  | oneExpression _ ih => exact ih
  | moreExpressions _ _ _ ih₁ ih₂ => exact (ih₁.behind _).append ih₂
  | reference _ h => exact .wrap (ident_strewn h) rfl rfl
  | this _ h => exact .leaf h rfl
  | super _ h => exact .leaf h rfl
  | number _ _ h => exact literal_strewn h
  | string _ h => exact literal_strewn h
  | boolean _ h => exact literal_strewn h
  | null _ h => exact literal_strewn h
  | template _ h => exact .node h (.leaf h rfl)
  | functionExpression _ ih => exact .wrap ih rfl rfl
  | group _ _ _ ih => exact (ih.before _).behind _
  | new _ _ _ h ih₁ ih₂ => exact .node h ((ih₁.before _).append ih₂)
  | array _ _ _ h ih => exact .node h ((ih.before _).behind _)
  | noSlots => exact .nil
  | hole _ _ ih => exact ih.before _
  | lastSlot _ ih => exact ih
  | moreSlots _ _ _ ih₁ ih₂ => exact (ih₁.behind _).append ih₂
  | object _ _ _ h ih => exact .node h ((ih.before _).behind _)
  | noProperties => exact .nil
  | lastProperty _ ih => exact ih
  | moreProperties _ _ _ ih₁ ih₂ => exact (ih₁.behind _).append ih₂
  | valueProperty _ _ _ h ih₁ ih₂ => exact .node h ((ih₁.behind _).append ih₂)
  | @shorthandProperty t s s' _ h h' =>
    have hkey : Laid (.ident (Reading.spanned.ident t s)) [t] := .node h .nil
    refine .single (.shorthand rfl h' ?_)
    exact List.forall_mem_cons.2 ⟨hkey, List.forall_mem_singleton.2 (hkey.wrap rfl rfl)⟩
  | methodProperty _ _ _ _ h ih₁ ih₂ => exact .node h ((ih₁.before _).append ih₂)
  | @accessorProperty getter _ _ _ _ _ _ _ _ _ h ih₁ ih₂ =>
    refine .node h ?_
    cases getter <;> exact (ih₁.before _).append ih₂
  | computedKey _ _ _ ih => exact (ih.before _).behind _
  | nameKey _ h => exact ident_strewn h
  | stringKey _ h => exact .leaf h rfl
  | numberKey _ _ h => exact .leaf h rfl

end Grammar

end JsSyntax
