import JsSyntax.Proofs.Excerpt
import JsSyntax.Proofs.Lines
import JsSyntax.Proofs.Nodes.Written

/-! # The text of leaves

A leaf of a program is one token of its source: the name of an identifier and the raw text of a
literal or a piece of a template are what stands in the source there, and the value of a string is
what stands between its quotes (`body_faithful`).

The value is read off a lexeme without asking whether the lexeme is closed. That it is closed does
not follow from the leaf: a lexeme that is open runs to the end of the source, and a statement ends
with a mark, which the lexeme has no room for.
-/

set_option autoImplicit false

namespace JsSyntax

open Grammar Parse

/-! ## Tokens as leaves -/

namespace Node

/-- Is the node written as one token that it has the text of? -/
def IsLeaf {σ : Type} : Node σ → Prop
  | .ident _ | .literal _ | .quasi _ => True
  | _ => False

/-- The leaf is the token. Only the token of a string gives a literal with a text as its value. -/
inductive Copies (t : Token) : Node Span → Prop where
  | ident : Copies t (.ident ⟨t.value, t.span⟩)
  | literal {value : LiteralValue} :
      (∀ text, value = .string text → t.kind = .string ∧ text = literalBody t.value) →
      Copies t (.literal ⟨value, t.value, t.span⟩)
  | quasi {tail : Bool} : t.kind = .templateString →
      Copies t (.quasi ⟨literalBody t.value, t.value, tail, t.span⟩)

/-- What is written below a node is written below the node as it is written itself. -/
theorem contains_written {σ : Type} {m : Node σ} (hm : m.IsLeaf) (n : Node σ)
    (h : n.Contains m) : n.written.Contains m := by
  induction n using Node.induct with
  | step n ih =>
    rcases Relation.ReflTransGen.cases_head h with rfl | ⟨c, hc, hcm⟩
    · cases n with
      | pattern p => exact hm.elim
      | patternProperty p => exact hm.elim
      | _ => exact .refl
    · obtain ⟨role, hsite⟩ := mem_children_iff.1 hc
      rcases mem_sites_written hsite with hsame | hwritten
      · rwa [hsame]
      · exact .head (mem_children_iff.2 ⟨_, hwritten⟩) (ih c hc hcm)

end Node

/-! ## Phrases -/

/-- The leaves of the nodes are tokens of the stretch. -/
def Copied (ns : List (Node Span)) (u : List Token) : Prop :=
  ∀ n ∈ ns, ∀ m, n.Contains m → m.IsLeaf → ∃ t ∈ u, m.Copies t

namespace Copied

variable {ns ms : List (Node Span)} {n : Node Span} {u v : List Token}

theorem nil : Copied [] u := nofun

theorem append (h : Copied ns u) (h' : Copied ms v) : Copied (ns ++ ms) (u ++ v) := by
  intro n hn m hm hleaf
  rcases List.mem_append.1 hn with hn | hn
  · obtain ⟨t, ht, hcopies⟩ := h n hn m hm hleaf
    exact ⟨t, List.mem_append_left v ht, hcopies⟩
  · obtain ⟨t, ht, hcopies⟩ := h' n hn m hm hleaf
    exact ⟨t, List.mem_append_right u ht, hcopies⟩

theorem before (h : Copied ns u) (v : List Token) : Copied ns (v ++ u) :=
  nil.append h

theorem behind (h : Copied ns u) (v : List Token) : Copied ns (u ++ v) := by
  simpa using h.append (nil (u := v))

/-- A node that is no leaf has the leaves of its children. -/
theorem node (hn : ¬ n.IsLeaf) (h : Copied n.children u) : Copied [n] u := by
  refine List.forall_mem_singleton.2 fun m hm hleaf => ?_
  rcases Relation.ReflTransGen.cases_head hm with rfl | ⟨c, hc, hm⟩
  · exact absurd hleaf hn
  · exact h c hc m hm hleaf

theorem leaf {t : Token} (h : n.Copies t) : Copied [n] [t] := by
  refine List.forall_mem_singleton.2 fun m hm _ => ?_
  rcases Relation.ReflTransGen.cases_head hm with rfl | ⟨c, hc, -⟩
  · exact ⟨t, List.mem_singleton_self t, h⟩
  · cases h <;> cases hc

theorem pattern {p : Pattern Span} (h : Copied [.expr p.toExpr] u) : Copied [.pattern p] u :=
  List.forall_mem_singleton.2 fun m hm hleaf =>
    h _ (List.mem_singleton_self _) m (Node.contains_written hleaf _ hm) hleaf

/-- A list of two, the leaves of which may be the same tokens. -/
theorem cons (h : Copied [n] u) (h' : Copied ns u) : Copied (n :: ns) u :=
  List.forall_mem_cons.2 ⟨h n (List.mem_singleton_self n), h'⟩

end Copied

namespace Grammar

variable {u : List Token}

theorem eq_span_of_covers {t : Token} {s : Span} (h : Reading.spanned.Covers [t] s) :
    s = t.span := by
  have hone : ∀ {s' : Span}, Reading.spanned.Covers [t] s' → s' = t.span.through t.span := by
    rintro s' ⟨first, last, hf, hl, rfl⟩
    cases hf
    cases hl
    rfl
  exact (hone h).trans (hone (covers_single t)).symm

theorem ident_copied {t : Token} {s : Span} (h : Reading.spanned.Covers [t] s) :
    Copied [.ident (Reading.spanned.ident t s)] [t] := by
  obtain rfl := eq_span_of_covers h
  exact .leaf .ident

theorem Names.copied {ids : List (Ident Span)} (h : Names Reading.spanned u ids) :
    Copied (ids.map .ident) u := by
  induction h with
  | one _ h => exact ident_copied h
  | more _ h _ _ ih => exact ((ident_copied h).behind _).append ih

theorem Parameters.copied {ids : List (Ident Span)} (h : Parameters Reading.spanned u ids) :
    Copied (ids.map .ident) u := by
  cases h with
  | none _ _ => exact .nil
  | some _ h _ => exact (h.copied.before _).behind _

theorem FunctionName.copied {id : Option (Ident Span)} (h : FunctionName Reading.spanned u id) :
    Copied (id.toList.map .ident) u := by
  cases h with
  | none => exact .nil
  | some _ h => exact ident_copied h

theorem literal_copied {t : Token} {value : LiteralValue} {s : Span}
    (hvalue : ∀ text, value = .string text → t.kind = .string ∧ text = literalBody t.value)
    (h : Reading.spanned.Covers [t] s) : Copied [.literal ⟨value, t.value, s⟩] [t] := by
  obtain rfl := eq_span_of_covers h
  exact .leaf (.literal hvalue)

theorem string_copied {t : Token} {s : Span} (hk : t.kind = .string)
    (h : Reading.spanned.Covers [t] s) :
    Copied [.literal ⟨.string (literalBody t.value), t.value, s⟩] [t] :=
  literal_copied (fun _ htext => ⟨hk, (LiteralValue.string.inj htext).symm⟩) h

theorem template_copied {t : Token} {tail : Bool} {s : Span} (hk : t.kind = .templateString)
    (h : Reading.spanned.Covers [t] s) :
    Copied [.quasi ⟨literalBody t.value, t.value, tail, s⟩] [t] := by
  obtain rfl := eq_span_of_covers h
  exact .leaf (.quasi hk)

/-- Each production takes the leaves of its parts, and makes leaves of its own tokens only. -/
theorem Derives.copied {n : Nonterminal} {a : n.Node Span} (h : Derives Reading.spanned n u a) :
    Copied (n.nodes a) u := by
  induction h with
  | varsStatement _ _ _ _ ih => exact .node id (.node id ((ih.before _).behind _))
  | functionStatement _ ih => exact .node id ih
  | classStatement _ ih => exact .node id ih
  | expressionStatement _ _ _ ih => exact .node id (ih.behind _)
  | blockStatement _ ih => exact .node id ih
  | ifStatement _ _ _ _ _ _ ih₁ ih₂ => exact .node id (((ih₁.before _).behind _).append ih₂)
  | ifElseStatement _ _ _ _ _ _ _ _ ih₁ ih₂ ih₃ =>
    exact .node id (((((ih₁.before _).behind _).append ih₂).behind _).append ih₃)
  | forStatement _ _ _ _ _ _ _ _ _ _ ih₁ ih₂ ih₃ ih₄ =>
    exact .node id
      (((((((ih₁.before _).behind _).append ih₂).behind _).append ih₃).behind _).append ih₄)
  | whileStatement _ _ _ _ _ _ ih₁ ih₂ => exact .node id (((ih₁.before _).behind _).append ih₂)
  | returnStatement _ _ _ _ ih => exact .node id ((ih.before _).behind _)
  | emptyStatement _ _ => exact .node id .nil
  | noStatements => exact .nil
  | moreStatements _ _ ih₁ ih₂ => exact ih₁.append ih₂
  | block _ _ _ _ ih => exact .node id ((ih.before _).behind _)
  | oneDeclarator _ ih => exact ih
  | moreDeclarators _ _ _ ih₁ ih₂ => exact (ih₁.behind _).append ih₂
  | bareDeclarator _ h _ => exact .node id (ident_copied h)
  | initDeclarator _ h _ _ _ ih => exact .node id (((ident_copied h).behind _).append ih)
  | noInit => exact .nil
  | varsInit _ _ _ ih => exact .node id (ih.before _)
  | exprInit _ ih => exact ih
  | noClause => exact .nil
  | clause _ ih => exact ih
  | function _ _ _ hid hparams _ _ ih =>
    exact .node id (((hid.copied.before _).append hparams.copied).append ih)
  | method hparams _ _ ih => exact .node id (hparams.copied.append ih)
  | classDeclaration _ _ h _ _ _ ih₁ ih₂ =>
    exact .node id ((((ident_copied h).before _).append ih₁).append ih₂)
  | noHeritage => exact .nil
  | heritage _ _ ih => exact ih.before _
  | classBody _ _ _ _ ih => exact .node id ((ih.before _).behind _)
  | noMembers => exact .nil
  | skippedMark _ _ ih => exact ih.before _
  | moreMembers _ _ ih₁ ih₂ => exact ih₁.append ih₂
  | methodMember _ _ _ _ _ _ ih₁ ih₂ => exact .node id ((ih₁.before _).append ih₂)
  | accessorMember _ _ _ _ _ ih₁ ih₂ => exact .node id ((ih₁.before _).append ih₂)
  | assignmentOfConditional _ ih => exact ih
  | assignment _ _ _ _ ih₁ ih₂ => exact .node id ((ih₁.pattern.behind _).append ih₂)
  | conditionalOfOr _ ih => exact ih
  | conditional _ _ _ _ _ _ ih₁ ih₂ ih₃ =>
    exact .node id ((((ih₁.behind _).append ih₂).behind _).append ih₃)
  | orOfAnd _ ih => exact ih
  | or _ _ _ _ ih₁ ih₂ => exact .node id ((ih₁.behind _).append ih₂)
  | andOfEquality _ ih => exact ih
  | and _ _ _ _ ih₁ ih₂ => exact .node id ((ih₁.behind _).append ih₂)
  | equalityOfComparison _ ih => exact ih
  | equality _ _ _ _ _ ih₁ ih₂ => exact .node id ((ih₁.behind _).append ih₂)
  | comparisonOfAdditive _ ih => exact ih
  | comparison _ _ _ _ _ ih₁ ih₂ => exact .node id ((ih₁.behind _).append ih₂)
  | additiveOfMultiplicative _ ih => exact ih
  | additive _ _ _ _ _ ih₁ ih₂ => exact .node id ((ih₁.behind _).append ih₂)
  | multiplicativeOfUnary _ ih => exact ih
  | multiplicative _ _ _ _ _ ih₁ ih₂ => exact .node id ((ih₁.behind _).append ih₂)
  | unaryOfUpdate _ ih => exact ih
  | await _ _ _ ih => exact .node id (ih.before _)
  | unaryMark _ _ _ _ ih => exact .node id (ih.before _)
  | unaryWord _ _ _ _ ih => exact .node id (ih.before _)
  | updateOfChain _ ih => exact ih
  | updateBefore _ _ _ _ ih => exact .node id (ih.before _)
  | updateAfter _ _ _ _ ih => exact .node id (ih.behind _)
  | chainOfPrimary _ ih => exact ih
  | call _ _ _ ih₁ ih₂ => exact .node id (ih₁.append ih₂)
  | chainAccess _ _ _ ih₁ ih₂ => exact .node id (ih₁.append ih₂)
  | chainNew _ _ _ _ ih₁ ih₂ => exact .node id ((ih₁.behind _).append ih₂)
  | calleeOfPrimary _ ih => exact ih
  | calleeAccess _ _ _ ih₁ ih₂ => exact .node id (ih₁.append ih₂)
  | computedAccess _ _ _ ih => exact (ih.before _).behind _
  | namedAccess _ _ h => exact (ident_copied h).before _
  | noArguments _ _ => exact .nil
  | arguments _ _ _ ih => exact (ih.before _).behind _
  | omittedArguments => exact .nil
  | givenArguments _ ih => exact ih
  | oneExpression _ ih => exact ih
  | moreExpressions _ _ _ ih₁ ih₂ => exact (ih₁.behind _).append ih₂
  | reference _ h => exact .node id (ident_copied h)
  | this _ _ => exact .node id .nil
  | super _ _ => exact .node id .nil
  | number _ _ h => exact .node id (literal_copied nofun h)
  | string hk h => exact .node id (string_copied hk h)
  | boolean _ h => exact .node id (literal_copied nofun h)
  | null _ h => exact .node id (literal_copied nofun h)
  | template hk h => exact .node id (template_copied hk h)
  | functionExpression _ ih => exact .node id ih
  | group _ _ _ ih => exact (ih.before _).behind _
  | new _ _ _ _ ih₁ ih₂ => exact .node id ((ih₁.before _).append ih₂)
  | array _ _ _ _ ih => exact .node id ((ih.before _).behind _)
  | noSlots => exact .nil
  | hole _ _ ih => exact ih.before _
  | lastSlot _ ih => exact ih
  | moreSlots _ _ _ ih₁ ih₂ => exact (ih₁.behind _).append ih₂
  | object _ _ _ _ ih => exact .node id ((ih.before _).behind _)
  | noProperties => exact .nil
  | lastProperty _ ih => exact ih
  | moreProperties _ _ _ ih₁ ih₂ => exact (ih₁.behind _).append ih₂
  | valueProperty _ _ _ _ ih₁ ih₂ => exact .node id ((ih₁.behind _).append ih₂)
  | shorthandProperty _ h _ =>
    exact .node id (.cons (ident_copied h) (.node id (ident_copied h)))
  | methodProperty _ _ _ _ _ ih₁ ih₂ => exact .node id ((ih₁.before _).append ih₂)
  | @accessorProperty getter _ _ _ _ _ _ _ _ _ _ ih₁ ih₂ =>
    refine .node id ?_
    cases getter <;> exact (ih₁.before _).append ih₂
  | computedKey _ _ _ ih => exact (ih.before _).behind _
  | nameKey _ h => exact ident_copied h
  | stringKey hk h => exact string_copied hk h
  | numberKey _ _ h => exact literal_copied nofun h

end Grammar

/-! ## Texts -/

theorem literalBody_quoted {raw : String} {quote : Char} {y : List Char}
    (h : raw.toList = quote :: (y ++ [quote])) : literalBody raw = String.ofList y := by
  simp [literalBody, h]

/-- The token is where the source has its text. -/
theorem text_of_mem_tokenize {source : String} {t : Token} (ht : t ∈ tokenize source)
    (hkind : t.kind ≠ .eof) : t.span.text source = t.value := by
  obtain ⟨before, lexeme, rest, kind, hsource, rfl, -⟩ :=
    (lexes_tokenize source).mem_split t ht hkind
  refine slice_of_append hsource ?_ (Token.stop_of ..)
  rw [Token.of, Position.offset_advanceBy]
  exact Nat.zero_add _

/-- The raw text is what is between the quotes, with them around it. The text in between holds no
quote of the kind, and no backslash but in front of the character that it hides. -/
def Enquotes (quote : Char) (raw text : String) : Prop :=
  raw.toList = quote :: (text.toList ++ [quote]) ∧ QuoteBody quote text.toList

theorem Enquotes.of_quoted {quote : Char} {raw : String} (h : Quoted quote raw.toList) :
    Enquotes quote raw (literalBody raw) := by
  obtain ⟨y, hraw, hy⟩ := h
  rw [literalBody_quoted hraw, Enquotes, String.toList_ofList]
  exact ⟨hraw, hy⟩

/-- A leaf says what stands in the source where it is. -/
def Node.Faithful (source : String) : Node Span → Prop
  | .ident id => id.name = id.span.text source
  | .literal value => value.raw = value.span.text source ∧
      ∀ text, value.value = .string text →
        ∃ quote ∈ ['\x22', '\x27'], Enquotes quote value.raw text
  | .quasi value => value.raw = value.span.text source ∧ Enquotes '\x60' value.raw value.cooked
  | _ => True

theorem Node.Copies.faithful {source : String} {n : Node Span} {t : Token} (h : n.Copies t)
    (ht : t ∈ tokenize source) (hkind : t.kind ≠ .eof)
    (hclosed : ¬ Unclosed t.kind t.value.toList) : n.Faithful source := by
  have htext := (text_of_mem_tokenize ht hkind).symm
  cases h with
  | ident => exact htext
  | literal hvalue =>
    refine ⟨htext, fun text hstring => ?_⟩
    obtain ⟨hk, rfl⟩ := hvalue text hstring
    rw [hk] at hclosed
    by_cases hdouble : Quoted '\x22' t.value.toList
    · exact ⟨'\x22', by decide, .of_quoted hdouble⟩
    · have hsingle : Quoted '\x27' t.value.toList := by
        by_contra hsingle
        exact hclosed ⟨hdouble, hsingle⟩
      exact ⟨'\x27', by decide, .of_quoted hsingle⟩
  | quasi hk =>
    rw [hk] at hclosed
    exact ⟨htext, .of_quoted (Classical.not_not.1 hclosed)⟩

/-! ## Programs -/

/-- What stands in the source up to the end of a mark is closed. -/
theorem not_unclosed_of_stop_le {source : String} {t m : Token} (ht : t ∈ tokenize source)
    (hkind : t.kind ≠ .eof) (hm : m ∈ tokenize source) (hmark : m.kind = .punctuation)
    (hle : t.span.stop.offset ≤ m.span.stop.offset) : ¬ Unclosed t.kind t.value.toList := by
  obtain ⟨before, behind, hsource⟩ := List.append_of_mem ht
  have hclosed := (lexes_tokenize source).closed
  have hordered := (lexes_tokenize source).pairwise
  have hm' := hm
  rw [hsource] at hclosed hordered hm'
  rcases List.mem_append.1 hm' with hfront | hback
  · -- The mark would stand in front of the token and end behind it.
    have := (List.pairwise_append.1 hordered).2.2 m hfront t List.mem_cons_self
    have := (lexes_tokenize source).start_lt_stop t ht hkind
    omega
  · rcases List.mem_cons.1 hback with rfl | hback
    · rw [hmark]
      exact not_false
    · have hrest := (List.pairwise_append.1 hclosed).2.1
      refine (List.pairwise_cons.1 hrest).1 m hback ?_
      rw [hmark]
      exact TokenKind.noConfusion

/-- Every leaf of a program is faithful to the source, and no token that stands within a statement
of the program is left open. -/
theorem body_faithful (source : String) : ∀ st ∈ (parse source).body,
    (∀ n, (Node.statement st).Contains n → n.Faithful source) ∧
    ∀ t ∈ tokenize source, st.span.Encloses t.span →
      ¬ Unclosed t.kind t.value.toList ∧ ClosedLexeme t.kind t.value.toList := by
  intro st hst
  obtain ⟨os, s, hruns, hparse⟩ := parseWith_runs nestingLimit source
  rw [parse, hparse] at hst
  obtain ⟨before, u, behind, hrest, hu⟩ := hruns.derives st (mem_filterMap_statementOf?.1 hst)
  have hinfix : u <:+: (startOf source).rest := ⟨before, behind, by rw [hrest, List.append_assoc]⟩
  have htoken : ∀ t ∈ u, t ∈ tokenize source ∧ t.kind ≠ .eof := by
    intro t ht
    have ht := hinfix.subset ht
    rw [rest_startOf, List.mem_filter, decide_eq_true_eq] at ht
    exact ⟨ht.1, ht.2.2⟩
  refine ⟨fun n hn => ?_, fun t ht hwithin => ?_⟩
  · by_cases hleaf : n.IsLeaf
    · obtain ⟨t, ht, hcopies⟩ := hu.copied _ (List.mem_singleton_self _) n hn hleaf
      exact hcopies.faithful (htoken t ht).1 (htoken t ht).2
        (not_unclosed_of_statement hinfix hu t ht)
    · cases n with
      | ident | literal | quasi => exact absurd trivial hleaf
      | _ => trivial
  · by_cases hkind : t.kind = .eof
    · rw [hkind]
      exact ⟨not_false, trivial⟩
    obtain ⟨v, m, rfl, hm⟩ := hu.ends_with_mark rfl
    have hmem : m ∈ tokenize source := (htoken m (by simp)).1
    have hstop : st.span.stop = m.span.stop := by
      obtain ⟨first, last, hf, hl, hspan⟩ := statement_covers hu
      have ho := infix_ordered (ordered_startOf source) hinfix
      rw [hspan, ho.through hf hl]
      rw [List.getLast?_concat] at hl
      rw [Option.some.inj hl]
    have hopen := not_unclosed_of_stop_le ht hkind hmem hm (hstop ▸ hwithin.2)
    exact ⟨hopen, ((lexes_tokenize source).closedLexeme_iff t ht hkind).2 hopen⟩

/-- A string with an escaped quote in it. -/
theorem body_faithful_string : ∃ st ∈ (parse "'it\\'s';").body,
    (∃ n, (Node.statement st).Contains n ∧ n.span = ⟨⟨0, 1, 1⟩, ⟨7, 1, 8⟩⟩ ∧ n.children = [] ∧
      n.Faithful "'it\\'s';") ∧
    ∃ t ∈ tokenize "'it\\'s';", t.kind = .string ∧ st.span.Encloses t.span ∧
      ¬ Unclosed t.kind t.value.toList ∧ ClosedLexeme t.kind t.value.toList := by
  have hshape : ((parse "'it\\'s';").body.flatMap fun st => st.children.flatMap fun n =>
      n.children.map fun c => (st.span, c.span, c.children.length)) =
        [(⟨⟨0, 1, 1⟩, ⟨8, 1, 9⟩⟩, ⟨⟨0, 1, 1⟩, ⟨7, 1, 8⟩⟩, 0)] := by
    decide +kernel
  have htoken : ⟨.string, "'it\\'s'", ⟨⟨0, 1, 1⟩, ⟨7, 1, 8⟩⟩⟩ ∈ tokenize "'it\\'s';" := by
    decide +kernel
  obtain ⟨st, hst, hmem⟩ := List.mem_flatMap.1 (hshape ▸ List.mem_singleton_self _)
  obtain ⟨n, hn, hmem⟩ := List.mem_flatMap.1 hmem
  obtain ⟨c, hc, heq⟩ := List.mem_map.1 hmem
  obtain ⟨hspan, heq⟩ := Prod.mk.inj heq
  obtain ⟨hleaf, hnone⟩ := Prod.mk.inj heq
  have hcontains : (Node.statement st).Contains c := .head hn (.single hc)
  have hencloses : st.span.Encloses ⟨⟨0, 1, 1⟩, ⟨7, 1, 8⟩⟩ := by
    rw [hspan]
    exact ⟨Nat.le_refl 0, by decide⟩
  obtain ⟨hfaithful, hclosed⟩ := body_faithful _ st hst
  exact ⟨st, hst, ⟨c, hcontains, hleaf, List.length_eq_zero_iff.1 hnone, hfaithful c hcontains⟩,
    _, htoken, rfl, hencloses, hclosed _ htoken hencloses⟩

end JsSyntax
