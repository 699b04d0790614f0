import JsSyntax.Proofs.Map
import JsSyntax.Proofs.RoundTrip.Levels

/-! # The routines take what is written for them

One lemma for each kind of expression: when the routines for its parts take the parts, the routine
of its level takes the whole.
-/

set_option autoImplicit false

namespace JsSyntax

namespace Parse

variable {d : Deeper} {u v w : List Token} {e e' : Expr Unit}

/-- Whatever comes behind. -/
def Anything (_ : Token) : Prop := True

theorem Grows.of_takes {p : Precedence} (hnone : loopAt? d p = none) (hleads : p.Leads u)
    (h : Takes (routineAt d p) u p.stops (·.erase = e)) : Grows d p u e :=
  ⟨hleads, fun _ hl => (nomatch hnone.symm.trans hl), fun _ => h⟩

theorem leads_word {p : Precedence} {kind : TokenKind} (text : String)
    (h : kind ∈ [.identifier, .string, .boolean, .null]) : p.Leads (.word kind text :: u) :=
  ⟨_, _, rfl, .inl h⟩

theorem leads_starter {p : Precedence} {x : Token} (h : x ∈ p.starters) : p.Leads (x :: u) :=
  ⟨_, _, rfl, .inr h⟩

/-! ## Primaries -/

theorem name_grows (text : String) :
    Grows d .primary [.word .identifier text] (.ident ⟨text, ()⟩) :=
  .of_takes rfl (leads_word _ (by decide)) (.peek_cons (.discard_advance (.pure rfl)))

theorem this_grows : Grows d .primary [.keyword "this"] (.this ()) :=
  .of_takes rfl (leads_starter (by decide))
    (.peek_cons (.peek_cons (.discard_advance (.pure rfl))))

theorem boolean_grows (value : Bool) :
    Grows d .primary [.word .boolean (booleanLexeme value)]
      (.literal ⟨.boolean value, booleanLexeme value, ()⟩) := by
  refine .of_takes rfl (leads_word _ (by decide)) (.peek_cons (.discard_advance (.pure ?_)))
  cases value <;> rfl

theorem null_grows : Grows d .primary [.word .null "null"] (.literal ⟨.null, "null", ()⟩) :=
  .of_takes rfl (leads_word _ (by decide)) (.peek_cons (.discard_advance (.pure rfl)))

theorem literalBody_lexeme (q : QuotedText) : literalBody q.lexeme = String.ofList q.body := by
  simp [literalBody, QuotedText.lexeme]

theorem string_grows (q : QuotedText) :
    Grows d .primary [.word .string q.lexeme]
      (.literal ⟨.string (String.ofList q.body), q.lexeme, ()⟩) := by
  refine .of_takes rfl (leads_word _ (by decide)) (.peek_cons ?_)
  have hliteral : Takes stringLiteral [.word .string q.lexeme] Anything
      (· = ⟨.string (literalBody q.lexeme), q.lexeme, default⟩) := .advance (.pure rfl)
  refine .bind_nil hliteral (fun _ _ => trivial) fun l hl => .pure ?_
  subst hl
  rw [literalBody_lexeme]
  rfl

/-- Parentheses leave no trace. -/
theorem group_grows (h : Spells d.assignment .assignment u e) :
    Grows d .primary (parenthesized u) e := by
  refine .of_takes rfl (leads_starter (by decide)) (.peek_cons (.peek_cons ?_))
  refine .discard_advance (.bind h.takes (fun t _ => ?_) fun a ha => ?_)
  · show Precedence.assignment.stops (.mark ")")
    decide
  · exact .require (by decide) (.pure ha)

/-! ## Lists -/

/-- An element, and the comma behind it if there is one. -/
theorem commaItem_last {α : Type} {m : ParseM α} {stops stops' : Token → Prop} {P : α → Prop}
    (h : Takes m u stops' P)
    (hstops : ∀ t, stops t → stops' t ∧ t.isPunctuation "," = false) :
    Takes (commaItem m) u stops (fun item => ∃ a, item = .last a ∧ P a) :=
  .bind_nil h (fun t ht => (hstops t ht).1) fun a ha =>
    .accept_no (fun t ht => (hstops t ht).2) (.pure ⟨a, rfl, ha⟩)

theorem commaItem_more {α : Type} {m : ParseM α} {stops : Token → Prop} {P : α → Prop}
    (h : Takes m u stops P) (hcomma : stops (.mark ",")) :
    Takes (commaItem m) (u ++ [.mark ","]) Anything (fun item => ∃ a, item = .more a ∧ P a) :=
  .bind h (fun _ _ => hcomma) fun a ha => .accept_yes rfl (.pure ⟨a, rfl, ha⟩)

/-! ### Arguments -/

theorem lastArgument (h : Spells d.assignment .assignment u e) :
    TakesItems (commaItem d.assignment) u (· = .mark ")")
      (fun as => Expr.mapAll (fun _ => ()) as = [e]) := by
  refine .last ((commaItem_last h.takes ?_).mono (fun _ => id) ?_)
  · rintro t rfl
    exact ⟨by decide, rfl⟩
  · rintro _ ⟨a, rfl, rfl⟩
    exact ⟨a, rfl, rfl⟩

theorem moreArguments {args : List (Expr Unit)} (h : Spells d.assignment .assignment u e)
    (hv : TakesItems (commaItem d.assignment) v (· = .mark ")")
      (fun as => Expr.mapAll (fun _ => ()) as = args)) :
    TakesItems (commaItem d.assignment) (u ++ .mark "," :: v) (· = .mark ")")
      (fun as => Expr.mapAll (fun _ => ()) as = e :: args) := by
  have hstep : Takes (commaItem d.assignment) (u ++ [.mark ","]) Anything (fun item =>
      ∃ a, item = .more a ∧ ∀ as, Expr.mapAll (fun _ => ()) as = args →
        Expr.mapAll (fun _ => ()) (a :: as) = e :: args) := by
    refine (commaItem_more h.takes (by decide)).mono (fun _ => id) ?_
    rintro _ ⟨a, rfl, rfl⟩
    exact ⟨a, rfl, fun as has => by rw [← has]; rfl⟩
  rw [List.append_cons]
  exact .more (by simp) hstep (fun _ _ => trivial) hv

theorem noArguments_taken : Takes (arguments d) [.mark ")"] Anything
    (fun as => Expr.mapAll (fun _ => ()) as = []) :=
  .isMarkNext (b := true) (fun _ _ => rfl) (.require rfl (.pure rfl))

theorem arguments_taken {args : List (Expr Unit)} (hleads : Precedence.assignment.Leads u)
    (h : TakesItems (commaItem d.assignment) u (· = .mark ")")
      (fun as => Expr.mapAll (fun _ => ()) as = args)) :
    Takes (arguments d) (u ++ [.mark ")"]) Anything
      (fun as => Expr.mapAll (fun _ => ()) as = args) := by
  obtain ⟨x, u', rfl, hx⟩ := id hleads
  refine .isMarkNext (b := false) (fun _ _ => (not_closing_of_starts hx).2.1) ?_
  exact .bind h.takes (fun _ _ => rfl) fun as has => .require rfl (.pure has)

/-! ### Arrays -/

/-- One step in an array: a hole, or an element. -/
def slot (d : Deeper) : ParseM (Item (Option (Expr Span))) :=
  upTo "]" do
    if ← acceptMark "," then return .more none else commaItem (some <$> d.assignment)

theorem noSlots_taken : TakesItems (slot d) [] (· = .mark "]")
    (fun as => Expr.mapSlots (fun _ => ()) as = []) := by
  refine .stop (.isMarkNext (b := true) ?_ (.pure ⟨rfl, rfl⟩))
  rintro t rfl
  rfl

section
variable {slots : List (Option (Expr Unit))}
  (h : TakesItems (slot d) v (· = .mark "]") (fun as => Expr.mapSlots (fun _ => ()) as = slots))
include h

theorem hole_taken : TakesItems (slot d) (.mark "," :: v) (· = .mark "]")
    (fun as => Expr.mapSlots (fun _ => ()) as = none :: slots) := by
  have hstep : Takes (slot d) [.mark ","] Anything (fun item => ∃ a, item = .more a ∧
      ∀ as, Expr.mapSlots (fun _ => ()) as = slots →
        Expr.mapSlots (fun _ => ()) (a :: as) = none :: slots) := by
    refine .isMarkNext (b := false) (fun _ _ => rfl) (.atEnd (.accept_yes rfl (.pure ?_)))
    exact ⟨none, rfl, fun as has => by rw [← has]; rfl⟩
  exact .more (u := [.mark ","]) (List.cons_ne_nil _ _) hstep (fun _ _ => trivial) h

theorem element_slot_taken (he : Spells d.assignment .assignment u e) :
    TakesItems (slot d) (u ++ .mark "," :: v) (· = .mark "]")
      (fun as => Expr.mapSlots (fun _ => ()) as = some e :: slots) := by
  obtain ⟨x, u', rfl, hx⟩ := id he.leads
  obtain ⟨hclosing, -, hcomma⟩ := not_closing_of_starts hx
  have helement : Takes (some <$> d.assignment) (x :: u') Precedence.assignment.stops
      (fun a => ∃ b, a = some b ∧ b.erase = e) := he.takes.map fun a ha => ⟨a, rfl, ha⟩
  have hstep : Takes (slot d) (x :: (u' ++ [.mark ","])) Anything (fun item => ∃ a, item = .more a ∧
      ∀ as, Expr.mapSlots (fun _ => ()) as = slots →
        Expr.mapSlots (fun _ => ()) (a :: as) = some e :: slots) := by
    refine .isMarkNext (b := false) (fun _ _ => hclosing) (.atEnd ?_)
    refine .accept_no (fun _ _ => hcomma) ?_
    refine (commaItem_more helement (by decide)).mono (fun _ => id) ?_
    rintro _ ⟨_, rfl, b, rfl, rfl⟩
    exact ⟨some b, rfl, fun as has => by rw [← has]; rfl⟩
  rw [List.append_cons]
  exact .more (List.cons_ne_nil _ _) hstep (fun _ _ => trivial) h

theorem array_grows : Grows d .primary (.mark "[" :: (v ++ [.mark "]"])) (.array slots ()) := by
  refine .of_takes rfl (leads_starter (by decide)) (.peek_cons (.peek_cons ?_))
  refine .peek fun _ => .discard_advance (.bind h.takes (fun t _ => rfl) fun as has => ?_)
  refine .require (by decide) (.spanFrom fun span => .pure ?_)
  rw [← has]
  rfl

end

/-! ## Accesses and calls -/

theorem field_taken {start : Span} {a : Expr Span} (name : MemberName) :
    Takes (memberAccess? d start a) [.mark ".", .word (wordKind name.text) name.text] Anything
      (fun y => ∃ b, y = some b ∧ b.erase = .member a.erase (.ident ⟨name.text, ()⟩) false ()) := by
  refine .accept_no (fun t _ => rfl) (.accept_yes rfl ?_)
  have hname : isName (.word (wordKind name.text) name.text) = true := by
    unfold wordKind
    split_ifs <;> rfl
  have hread : Takes memberName [.word (wordKind name.text) name.text] Anything
      (· = ⟨name.text, default⟩) := by
    refine .peek_cons ?_
    rw [if_pos hname]
    exact .advance (.pure rfl)
  refine .bind_nil hread (fun _ => id) fun id hid => .spanFrom fun span => .pure ?_
  subst hid
  exact ⟨_, rfl, rfl⟩

theorem element_taken {start : Span} {a : Expr Span} (h : Spells d.assignment .assignment u e) :
    Takes (memberAccess? d start a) (.mark "[" :: (u ++ [.mark "]"])) Anything
      (fun y => ∃ b, y = some b ∧ b.erase = .member a.erase (.expr e) true ()) := by
  refine .accept_yes rfl (.bind h.takes (fun t _ => ?_) fun b hb => ?_)
  · show Precedence.assignment.stops (.mark "]")
    decide
  · refine .require (by decide) (.spanFrom fun span => .pure ⟨_, rfl, ?_⟩)
    rw [← hb]
    rfl

/-- An access in a chain. -/
theorem chainLink?_access {start : Span} {a : Expr Span} {x : Token}
    (hx : x.isPunctuation "(" = false)
    (h : Takes (memberAccess? d start a) (x :: v) Anything
      (fun y => ∃ b, y = some b ∧ b.erase = e)) :
    Takes (chainLink? d start a) (x :: v) Anything (fun y => ∃ b, y = some b ∧ b.erase = e) := by
  refine .accept_no (fun t _ => hx) (.bind_nil h (fun _ => id) fun y hy => ?_)
  obtain ⟨b, rfl, hb⟩ := hy
  exact .pure ⟨b, rfl, hb⟩

/-- One more step of the chain. -/
theorem chain_grows {x : Token} (h : Grows d .chain u e)
    (hstep : ∀ start a, a.erase = e → Takes (chainLink? d start a) (x :: v) Anything
      (fun y => ∃ b, y = some b ∧ b.erase = e')) : Grows d .chain (u ++ x :: v) e' := by
  obtain ⟨y, u', rfl, hy⟩ := id h.leads
  refine ⟨⟨y, _, rfl, hy⟩, fun l hl => ?_, nofun⟩
  refine (h.climbs l hl).step (Precedence.stops_primary x) fun start a ha => ?_
  cases hl
  exact (hstep start a ha).mono (fun _ _ => trivial) fun _ => id

theorem field_grows (name : MemberName) (h : Grows d .chain u e) :
    Grows d .chain (u ++ [.mark ".", .word (wordKind name.text) name.text])
      (.member e (.ident ⟨name.text, ()⟩) false ()) := by
  refine chain_grows h fun start a ha => chainLink?_access rfl ?_
  subst ha
  exact field_taken name

theorem element_grows (h : Grows d .chain u e) (hindex : Spells d.assignment .assignment v e') :
    Grows d .chain (u ++ .mark "[" :: (v ++ [.mark "]"])) (.member e (.expr e') true ()) := by
  refine chain_grows h fun start a ha => chainLink?_access rfl ?_
  subst ha
  exact element_taken hindex

theorem call_grows {args : List (Expr Unit)} (h : Grows d .chain u e)
    (hargs : Takes (arguments d) (v ++ [.mark ")"]) Anything
      (fun as => Expr.mapAll (fun _ => ()) as = args)) :
    Grows d .chain (u ++ .mark "(" :: (v ++ [.mark ")"])) (.call e args ()) := by
  refine chain_grows h fun start a ha => .accept_yes rfl ?_
  refine .bind_nil hargs (fun _ => id) fun as has => .spanFrom fun span => .pure ⟨_, rfl, ?_⟩
  rw [← ha, ← has]
  rfl

/-! ## New -/

/-- The accesses behind a callee. -/
def calleeLoop (d : Deeper) : Loop := ⟨primary d, memberAccess? d⟩

theorem callee_of_primary (h : Grows d .primary u e) : (calleeLoop d).Climbs u Anything e :=
  .of_operand ((h.takes rfl).mono (fun t _ => Precedence.stops_primary t) fun _ => id)

theorem callee_field (name : MemberName) (h : (calleeLoop d).Climbs u Anything e) :
    (calleeLoop d).Climbs (u ++ [.mark ".", .word (wordKind name.text) name.text]) Anything
      (.member e (.ident ⟨name.text, ()⟩) false ()) := by
  refine h.step trivial fun start a ha => ?_
  subst ha
  exact field_taken name

theorem callee_element (h : (calleeLoop d).Climbs u Anything e)
    (hindex : Spells d.assignment .assignment v e') :
    (calleeLoop d).Climbs (u ++ .mark "[" :: (v ++ [.mark "]"])) Anything
      (.member e (.expr e') true ()) := by
  refine h.step trivial fun start a ha => ?_
  subst ha
  exact element_taken hindex

theorem construction_eq : construction d = (do
    let start := (← peek).span
    discard advance
    let callee ← (calleeLoop d).run
    let list ← optionalArguments d
    return .new callee list (← spanFrom start)) := by
  simp only [construction, calleeLoop, Loop.run, bind_assoc]

theorem construction_takes {args : List (Expr Unit)}
    (h : (calleeLoop d).Climbs u Anything e)
    (hargs : Takes (arguments d) (v ++ [.mark ")"]) Anything
      (fun as => Expr.mapAll (fun _ => ()) as = args)) :
    Takes (construction d) (.keyword "new" :: (u ++ .mark "(" :: (v ++ [.mark ")"]))) Anything
      (·.erase = .new e args ()) := by
  have hcallee : Takes (calleeLoop d).run u (· = .mark "(") (·.erase = e) := by
    refine h.takes (fun _ _ => trivial) fun start a => memberAccess?_none ?_
    rintro t rfl
    exact ⟨rfl, rfl⟩
  rw [construction_eq]
  refine .peek fun _ => .discard_advance (.bind hcallee (fun t _ => rfl) fun a ha => ?_)
  have hoptional : Takes (optionalArguments d) (.mark "(" :: (v ++ [.mark ")"])) Anything
      (fun as => Expr.mapAll (fun _ => ()) as = args) := .accept_yes rfl hargs
  refine .bind_nil hoptional (fun _ => id) fun as has => .spanFrom fun span => .pure ?_
  rw [← ha, ← has]
  rfl

theorem new_grows (h : Takes d.construction (.keyword "new" :: u) Anything (·.erase = e)) :
    Grows d .primary (.keyword "new" :: u) e := by
  refine .of_takes rfl (leads_starter (by decide)) (.peek_cons (.peek_cons ?_))
  rw [if_neg (by decide), if_neg (by decide), if_neg (by decide)]
  refine .isFunctionNext_no rfl rfl ?_
  exact h.mono (fun _ _ => trivial) fun _ => id

/-! ## Operators with one operand -/

theorem unaryOp_taken (op : UnaryOp) : Takes acceptUnaryOp [op.token] Anything (· = some op) := by
  cases op with
  | not | bitNot | plus | minus => exact .acceptOneOf_yes rfl (.pure rfl)
  | typeof | void | delete =>
    exact .acceptOneOf_no (fun _ _ => rfl) (.of_bind_pure (.acceptOneOf_yes rfl (.pure rfl)))

theorem unary_grows (op : UnaryOp) (h : Spells d.unary .unary u e) :
    Grows d .unary (op.token :: u) (.unary op e ()) := by
  refine .of_takes rfl (leads_starter (by cases op <;> decide)) (.peek fun _ => ?_)
  refine .accept_no (fun t _ => by cases op <;> rfl) ?_
  refine .bind (u := [op.token]) (unaryOp_taken op) (fun _ _ => trivial) fun x hx => ?_
  subst hx
  refine .bind_nil h.takes (fun _ => id) fun a ha => .spanFrom fun span => .pure ?_
  rw [← ha]
  rfl

theorem await_grows (h : Spells d.unary .unary u e) :
    Grows d .unary (.keyword "await" :: u) (.await e ()) := by
  refine .of_takes rfl (leads_starter (by decide)) (.peek fun _ => .accept_yes rfl ?_)
  refine .bind_nil h.takes (fun _ => id) fun a ha => .spanFrom fun span => .pure ?_
  rw [← ha]
  rfl

theorem requireUpdateTarget_takes {a : Expr Span} {f : Unit → ParseM (Expr Span)}
    {stops : Token → Prop} {Q : Expr Span → Prop} (ha : a.erase = e) (he : e.isUpdateTarget)
    (h : Takes (f ()) u stops Q) : Takes (requireUpdateTarget a >>= f) u stops Q := by
  have hok : requireUpdateTarget a = pure () := by
    rw [← ha, Expr.erase, Expr.isUpdateTarget_map] at he
    simp [requireUpdateTarget, he]
  rw [hok, pure_bind]
  exact h

theorem updateBefore_grows (op : UpdateOp) (h : Spells d.unary .unary u e)
    (he : e.isUpdateTarget) :
    Grows d .update (.operator op.symbol :: u) (.update op true e ()) := by
  refine .of_takes rfl (leads_starter (by cases op <;> decide)) (.peek fun _ => ?_)
  refine .acceptOneOf_yes (a := op) (by cases op <;> rfl) ?_
  refine .bind_nil h.takes (fun t ht => Precedence.stops_unary ht) fun a ha => ?_
  refine requireUpdateTarget_takes ha he (.spanFrom fun span => .pure ?_)
  rw [← ha]
  rfl

theorem updateAfter_grows (op : UpdateOp) (h : Spells (chain d) .chain u e)
    (he : e.isUpdateTarget) :
    Grows d .update (u ++ [.operator op.symbol]) (.update op false e ()) := by
  obtain ⟨x, v, rfl, hx⟩ := id h.leads
  refine .of_takes rfl ⟨x, _, rfl, starts_of_tighter hx⟩ (.peek fun _ => ?_)
  refine .acceptOneOf_no (fun t _ => chosen_of_starts_chain hx) ?_
  refine .bind h.takes (fun t _ => ?_) fun a ha => ?_
  · show Precedence.chain.stops (.operator op.symbol)
    cases op <;> decide
  · refine .nextOneOf (c := some op) (fun t _ => by cases op <;> rfl) ?_
    refine requireUpdateTarget_takes ha he (.discard_advance (.spanFrom fun span => .pure ?_))
    rw [← ha]
    rfl

/-! ## Operators with two operands -/

/-- An operand that the loop has taken, an operator, and one more operand. -/
theorem operator_grows {α : Type} {p : Precedence} {symbol : α → String} {ops : List α}
    {build : α → Expr Span → Expr Span → Span → Expr Span} {op : α} {x : Token}
    {whole : Expr Unit}
    (hloop : loopAt? d p = some (operatorLoop symbol ops build (routineAt d p.tighter)))
    (hchosen : chosen .operator symbol ops x = some op) (hx : p.tighter.stops x)
    (hbuild : ∀ a b span, a.erase = e → b.erase = e' → (build op a b span).erase = whole)
    (hleft : Grows d p u e) (hright : Spells (routineAt d p.tighter) p.tighter v e') :
    Grows d p (u ++ x :: v) whole := by
  obtain ⟨y, u', rfl, hy⟩ := id hleft.leads
  refine ⟨⟨y, _, rfl, hy⟩, fun l hl => ?_, fun hnone => nomatch hnone.symm.trans hloop⟩
  obtain rfl := Option.some.inj (hloop.symm.trans hl)
  refine (hleft.climbs _ hl).step hx fun start a ha => ?_
  refine (operatorLoop_some hchosen hright.takes).mono (fun _ => id) ?_
  rintro _ ⟨b, span, rfl, hb⟩
  exact ⟨_, rfl, hbuild a b span ha hb⟩

theorem binary_grows (op : BinaryOp) (hleft : Grows d op.precedence u e)
    (hright : Spells (routineAt d op.precedence.tighter) op.precedence.tighter v e') :
    Grows d op.precedence (u ++ .operator op.symbol :: v) (.binary op e e' ()) := by
  obtain ⟨ops, hloop, hchosen⟩ : ∃ ops,
      loopAt? d op.precedence = some (binaryLoop ops (routineAt d op.precedence.tighter)) ∧
        chosen .operator BinaryOp.symbol ops (.operator op.symbol) = some op := by
    cases op <;> exact ⟨_, rfl, rfl⟩
  refine operator_grows hloop hchosen (by cases op <;> decide) ?_ hleft hright
  rintro a b span rfl rfl
  rfl

theorem logical_grows (op : LogicalOp) (hleft : Grows d op.precedence u e)
    (hright : Spells (routineAt d op.precedence.tighter) op.precedence.tighter v e') :
    Grows d op.precedence (u ++ .operator op.symbol :: v) (.logical op e e' ()) := by
  have hloop : loopAt? d op.precedence =
      some (logicalLoop op (routineAt d op.precedence.tighter)) := by
    cases op <;> rfl
  have hchosen : chosen .operator LogicalOp.symbol [op] (.operator op.symbol) = some op := by
    cases op <;> rfl
  refine operator_grows hloop hchosen (by cases op <;> decide) ?_ hleft hright
  rintro a b span rfl rfl
  rfl

/-! ## Conditionals and assignments -/

theorem conditional_grows {test consequent alternate : Expr Unit}
    (htest : Spells (logicalOr d) .or u test)
    (hconsequent : Spells d.assignment .assignment v consequent)
    (halternate : Spells d.assignment .assignment w alternate) :
    Grows d .conditional (u ++ .operator "?" :: (v ++ .mark ":" :: w))
      (.conditional test consequent alternate ()) := by
  obtain ⟨x, u', rfl, hx⟩ := id htest.leads
  refine .of_takes rfl ⟨x, _, rfl, starts_of_tighter hx⟩ (.peek fun _ => ?_)
  refine .bind htest.takes (fun t _ => ?_) fun a ha => .accept_yes rfl ?_
  · show Precedence.or.stops (.operator "?")
    decide
  refine .bind hconsequent.takes (fun t _ => ?_) fun b hb => .require (by decide) ?_
  · show Precedence.assignment.stops (.mark ":")
    decide
  refine .bind_nil halternate.takes (fun t ht => (stops_conditional ht).2) fun c hc => ?_
  refine .spanFrom fun span => .pure ?_
  rw [← ha, ← hb, ← hc]
  rfl

/-- A target is read back as the pattern it is. -/
theorem target_of_erase {a : Expr Span} {t : TargetTree} (ha : a.erase = t.toExpr) :
    ∃ p, target a = pure p ∧ p.erase = t.toPattern := by
  cases a with
  | ident id =>
    refine ⟨.ident id, rfl, ?_⟩
    cases t <;> simp_all [Expr.erase, Expr.map, Pattern.erase, Pattern.map, TargetTree.toExpr,
      TargetTree.toPattern]
  | member object property computed s =>
    refine ⟨.member object property computed s, rfl, ?_⟩
    cases t <;> simp_all [Expr.erase, Expr.map, Pattern.erase, Pattern.map, TargetTree.toExpr,
      TargetTree.toPattern]
  | _ => cases t <;> simp [Expr.erase, Expr.map, TargetTree.toExpr] at ha

theorem assign_grows (op : AssignmentOp) {t : TargetTree}
    (hleft : Spells (logicalOr d) .or u t.toExpr) (hright : Spells d.assignment .assignment v e) :
    Grows d .assignment (u ++ .operator op.symbol :: v) (.assign op t.toPattern e ()) := by
  obtain ⟨x, u', rfl, hx⟩ := id hleft.leads
  refine .of_takes rfl ⟨x, _, rfl, starts_of_tighter (starts_of_tighter hx)⟩ (.peek fun _ => ?_)
  have hconditional : Takes (conditional d) (x :: u') (· = .operator op.symbol)
      (·.erase = t.toExpr) := by
    rintro s _ rest hs rfl
    have hstops : Precedence.or.stops (.operator op.symbol) := by cases op <;> decide
    exact conditional_consumes (by cases op <;> decide) (hleft.takes.consumes hstops) hs
  refine .bind hconditional (fun _ _ => rfl) fun a ha => ?_
  refine .acceptOneOf_yes (a := op) (by cases op <;> rfl) ?_
  obtain ⟨p, hp, hpattern⟩ := target_of_erase ha
  simp only [hp, pure_bind]
  refine .bind_nil hright.takes (fun _ => id) fun b hb => .spanFrom fun span => .pure ?_
  rw [← hb, ← hpattern]
  rfl

end Parse

end JsSyntax
