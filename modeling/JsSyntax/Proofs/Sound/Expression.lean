import JsSyntax.Parse.Expression
import JsSyntax.Proofs.Sound.Member
import JsSyntax.Proofs.Target

/-! # Soundness of expressions

Each level of precedence reads the phrases of its own nonterminal. A level of operators that group
to the left keeps, from one operator to the next, that all it has read so far is one phrase of the
level (`leftAssociative_yields`); calls and accesses likewise (`chain_parses`).
-/

set_option autoImplicit false

namespace JsSyntax

open Grammar

namespace Parse

/-- What the loop of a level keeps: all that has been read from `s₀` on is one phrase. -/
def Phrase (n : Nonterminal) (s₀ : State) (a : n.Node Span) (s : State) : Prop :=
  ∃ u, s₀.Reads u s ∧ Derives Reading.spanned n u a

/-! ## Primaries -/

theorem templateLiteral_reads {s s' : State} {e : Expr Span}
    (hk : s.current.kind = .templateString) (h : templateLiteral s = .ok e s') :
    s.Reads [s.current] s' ∧
      e = .template [⟨literalBody s.current.value, s.current.value, true, s.current.span⟩] []
        s.current.span := by
  simp only [templateLiteral, bind_eq_ok, pure_eq_ok] at h
  obtain ⟨t, _, hadv, rfl, rfl⟩ := h
  obtain ⟨rfl, hr⟩ := advance_reads_of_kind hadv hk (by decide)
  exact ⟨hr, rfl⟩

section
variable {d : Deeper} (hd : d.Sound)
include hd

/-- The element of an array, or the comma that stands for a hole. -/
theorem slot_collects : Collects (do
    if ← acceptMark "," then return .more none else commaItem (some <$> d.assignment))
    (Derives Reading.spanned .slots) := by
  have helement : Collects (commaItem (some <$> d.assignment))
      (Derives Reading.spanned .slots) := by
    apply commaItem_collects (E := fun u x => ∃ e, x = some e ∧
      Derives Reading.spanned .assignment u e)
    · intro s x s' h
      obtain ⟨e, he, rfl⟩ := map_eq_ok.mp h
      obtain ⟨u, hu, hde⟩ := hd.assignment he
      exact ⟨u, hu, e, rfl, hde⟩
    · rintro u x ⟨e, rfl, hde⟩
      exact .lastSlot hde
    · rintro u x t v slots ⟨e, rfl, hde⟩ ht hv
      exact .moreSlots hde ht hv
  have key : ∀ {s x s'}, (do
      if ← acceptMark "," then return .more none else commaItem (some <$> d.assignment) :
        ParseM (Item (Option (Expr Span)))) s = .ok x s' →
      (x = .more none ∧ ∃ t, s.Reads [t] s' ∧ Reading.spanned.IsMark t ",") ∨
        commaItem (some <$> d.assignment) s = .ok x s' := by
    intro s x s' h
    obtain ⟨b, s₁, hcomma, h⟩ := bind_eq_ok.mp h
    cases acceptMark_accepted hcomma with
    | yes hm hr =>
      obtain ⟨rfl, rfl⟩ := pure_eq_ok.mp h
      exact .inl ⟨rfl, _, hr, hm⟩
    | no => exact .inr h
  refine ⟨?_, ?_, ?_⟩
  · intro s s' h
    obtain ⟨hx, -⟩ | h := key h
    · cases hx
    · exact helement.stop h
  · intro s x s' h
    obtain ⟨hx, -⟩ | h := key h
    · cases hx
    · exact helement.last h
  · intro s x s' h
    obtain ⟨hx, t, hr, ht⟩ | h := key h
    · cases hx
      exact ⟨[t], hr, by simp, fun v slots hv => .hole ht hv⟩
    · exact helement.more h

theorem arrayLiteral_parses :
    ParsesAt (fun s => Reading.spanned.IsMark s.current "[") .primary (arrayLiteral d) := by
  intro s e s' hs h
  simp only [arrayLiteral, peek_bind, spanFrom_bind, bind_eq_ok, discard_eq_ok, pure_eq_ok] at h
  obtain ⟨_, s₁, ⟨_, hadv⟩, slots, s₂, hslots, _, s₃, hstop, rfl, rfl⟩ := h
  have hr := (advance_reads_of_kind hadv hs.1 (by decide)).2
  have hsteps : Collects (upTo "]" do
      if ← acceptMark "," then return .more none else commaItem (some <$> d.assignment))
      (Derives Reading.spanned .slots) := by
    refine upTo_collects .noSlots (slot_collects hd)
  obtain ⟨u, hu, hslots⟩ := collect_yields hsteps hslots
  obtain ⟨t, ht, hm⟩ := require_reads hstop
  have hr := (hr.trans hu).trans ht
  exact ⟨_, hr, .array hs hslots hm (hr.covers (by simp))⟩

theorem objectLiteral_parses :
    ParsesAt (fun s => Reading.spanned.IsMark s.current "\x7b") .primary (objectLiteral d) := by
  intro s e s' hs h
  simp only [objectLiteral, peek_bind, spanFrom_bind, bind_eq_ok, discard_eq_ok, pure_eq_ok] at h
  obtain ⟨_, s₁, ⟨_, hadv⟩, properties, s₂, hproperties, _, s₃, hstop, rfl, rfl⟩ := h
  have hr := (advance_reads_of_kind hadv hs.1 (by decide)).2
  have hsteps : Collects (upTo "\x7d" (commaItem (property d)))
      (Derives Reading.spanned .properties) :=
    upTo_collects .noProperties
      (commaItem_collects (property_parses hd) .lastProperty .moreProperties)
  obtain ⟨u, hu, hps⟩ := collect_yields hsteps hproperties
  obtain ⟨t, ht, hm⟩ := require_reads hstop
  have hr := (hr.trans hu).trans ht
  exact ⟨_, hr, .object hs hps hm (hr.covers (by simp))⟩

theorem group_parses :
    ParsesAt (fun s => Reading.spanned.IsMark s.current "(") .primary (group d) := by
  intro s e s' hs h
  simp only [group, bind_eq_ok, discard_eq_ok, pure_eq_ok] at h
  obtain ⟨_, s₁, ⟨_, hadv⟩, e, s₂, he, _, s₃, hstop, rfl, rfl⟩ := h
  have hr := (advance_reads_of_kind hadv hs.1 (by decide)).2
  obtain ⟨u, hu, hde⟩ := hd.assignment he
  obtain ⟨t, ht, hm⟩ := require_reads hstop
  exact ⟨_, (hr.trans hu).trans ht, .group hs hde hm⟩

theorem markPrimary_parses :
    ParsesAt (fun s => s.current.kind = .punctuation) .primary (markPrimary d) := by
  intro s e s' hs h
  simp only [markPrimary, peek_bind] at h
  split at h
  · rename_i hv
    exact group_parses hd ⟨hs, hv⟩ h
  split at h
  · rename_i hv
    exact arrayLiteral_parses hd ⟨hs, hv⟩ h
  split at h
  · rename_i hv
    exact objectLiteral_parses hd ⟨hs, hv⟩ h
  · exact absurd h unexpected_ne_ok

theorem keywordPrimary_parses :
    ParsesAt (fun s => s.current.kind = .keyword) .primary (keywordPrimary d) := by
  intro s e s' hs h
  simp only [keywordPrimary, peek_bind] at h
  split at h
  · rename_i hv
    simp only [bind_eq_ok, discard_eq_ok, pure_eq_ok] at h
    obtain ⟨_, _, ⟨_, hadv⟩, rfl, rfl⟩ := h
    exact ⟨_, (advance_reads_of_kind hadv hs (by decide)).2, .this ⟨hs, hv⟩ (covers_single _)⟩
  split at h
  · rename_i hv
    simp only [bind_eq_ok, discard_eq_ok, pure_eq_ok] at h
    obtain ⟨_, _, ⟨_, hadv⟩, rfl, rfl⟩ := h
    exact ⟨_, (advance_reads_of_kind hadv hs (by decide)).2, .super ⟨hs, hv⟩ (covers_single _)⟩
  split at h
  · rename_i hv
    have hv : s.current.value ∈ globalNames := by simpa using hv
    simp only [bind_eq_ok, discard_eq_ok, pure_eq_ok] at h
    obtain ⟨_, _, ⟨_, hadv⟩, rfl, rfl⟩ := h
    exact ⟨_, (advance_reads_of_kind hadv hs (by decide)).2, .reference (.inr ⟨hs, hv⟩) (covers_single _)⟩
  simp only [isFunctionNext_bind] at h
  split at h
  · rename_i hf
    simp only [bind_eq_ok, pure_eq_ok] at h
    obtain ⟨f, _, hfun, rfl, rfl⟩ := h
    obtain ⟨u, hu, hdf⟩ := function_parses hd hf hfun
    exact ⟨u, hu, .functionExpression hdf⟩
  split at h
  · rename_i hv
    exact hd.construction ⟨hs, hv⟩ h
  · exact absurd h unexpected_ne_ok

theorem primary_parses : Parses .primary (primary d) := by
  intro s e s' h
  simp only [primary, peek_bind] at h
  cases hk : s.current.kind <;> simp only [hk] at h
  case identifier =>
    simp only [bind_eq_ok, discard_eq_ok, pure_eq_ok] at h
    obtain ⟨_, _, ⟨_, hadv⟩, rfl, rfl⟩ := h
    exact ⟨_, (advance_reads_of_kind hadv hk (by decide)).2, .reference (.inl hk) (covers_single _)⟩
  case number =>
    simp only [bind_eq_ok, pure_eq_ok] at h
    obtain ⟨l, _, hl, rfl, rfl⟩ := h
    obtain ⟨hr, value, hv, rfl⟩ := numberLiteral_reads hk hl
    exact ⟨_, hr, .number hk hv (covers_single _)⟩
  case string =>
    simp only [bind_eq_ok, pure_eq_ok] at h
    obtain ⟨l, _, hl, rfl, rfl⟩ := h
    obtain ⟨hr, rfl⟩ := stringLiteral_reads hk hl
    exact ⟨_, hr, .string hk (covers_single _)⟩
  case boolean =>
    simp only [bind_eq_ok, discard_eq_ok, pure_eq_ok] at h
    obtain ⟨_, _, ⟨_, hadv⟩, rfl, rfl⟩ := h
    exact ⟨_, (advance_reads_of_kind hadv hk (by decide)).2, .boolean hk (covers_single _)⟩
  case null =>
    simp only [bind_eq_ok, discard_eq_ok, pure_eq_ok] at h
    obtain ⟨_, _, ⟨_, hadv⟩, rfl, rfl⟩ := h
    exact ⟨_, (advance_reads_of_kind hadv hk (by decide)).2, .null hk (covers_single _)⟩
  case templateString =>
    obtain ⟨hr, rfl⟩ := templateLiteral_reads hk h
    exact ⟨_, hr, .template hk (covers_single _)⟩
  case punctuation => exact markPrimary_parses hd hk h
  case keyword => exact keywordPrimary_parses hd hk h
  all_goals exact absurd h unexpected_ne_ok

/-! ## Accesses and calls -/

/-- What `arguments` reads after an opening parenthesis is the rest of the arguments. -/
theorem arguments_reads {s s' : State} {args : List (Expr Span)} {t : Token}
    (ht : Reading.spanned.IsMark t "(") (h : arguments d s = .ok args s') :
    ∃ u, s.Reads u s' ∧ Derives Reading.spanned .arguments ([t] ++ u) args := by
  simp only [arguments, isMarkNext_bind, ite_bind, bind_eq_ok, pure_eq_ok] at h
  obtain ⟨args, s₁, hargs, _, s₂, hstop, rfl, rfl⟩ := h
  obtain ⟨t', hr', ht'⟩ := require_reads hstop
  split at hargs
  · obtain ⟨rfl, rfl⟩ := pure_eq_ok.mp hargs
    exact ⟨_, hr', .noArguments ht ht'⟩
  · have hsteps : Collects (commaItem d.assignment) (Derives Reading.spanned .expressions) :=
      commaItem_collects hd.assignment .oneExpression .moreExpressions
    obtain ⟨u, hu, hes⟩ := collect_yields hsteps hargs
    exact ⟨_, hu.trans hr', .arguments ht hes ht'⟩

theorem optionalArguments_parses : Parses .optionalArguments (optionalArguments d) := by
  intro s args s' h
  simp only [optionalArguments, bind_eq_ok] at h
  obtain ⟨b, s₁, hopen, h⟩ := h
  cases acceptMark_accepted hopen with
  | yes hm hr =>
    obtain ⟨u, hu, hargs⟩ := arguments_reads hd hm h
    exact ⟨_, hr.trans hu, .givenArguments hargs⟩
  | no =>
    obtain ⟨rfl, rfl⟩ := pure_eq_ok.mp h
    exact ⟨_, .refl _, .omittedArguments⟩

/-- One access extends a phrase that starts where `start` does, if there is one. -/
theorem memberAccess?_reads {s₀ s s' : State} {object : Expr Span} {x : Option (Expr Span)}
    {u : List Token} (hu : s₀.Reads u s) (hne : u ≠ [])
    (h : memberAccess? d s₀.current.span object s = .ok x s') :
    (x = none ∧ s' = s) ∨ ∃ v property span, x = some (.member object property property.isComputed span) ∧
      s.Reads v s' ∧ Derives Reading.spanned .access v property ∧
      Reading.spanned.Covers (u ++ v) span := by
  simp only [memberAccess?, bind_eq_ok] at h
  obtain ⟨b, s₁, hopen, h⟩ := h
  cases acceptMark_accepted hopen with
  | yes hm hr =>
    simp only [if_true, spanFrom_bind, bind_eq_ok, pure_eq_ok] at h
    obtain ⟨e, s₂, he, _, s₃, hstop, rfl, rfl⟩ := h
    obtain ⟨v, hv, hde⟩ := hd.assignment he
    obtain ⟨t, ht, hm'⟩ := require_reads hstop
    have hr := (hr.trans hv).trans ht
    exact .inr ⟨_, .expr e, _, rfl, hr, .computedAccess hm hde hm',
      (hu.trans hr).covers (by simp [hne])⟩
  | no =>
    simp only [Bool.false_eq_true, if_false, bind_eq_ok] at h
    obtain ⟨b, s₁, hpoint, h⟩ := h
    cases acceptMark_accepted hpoint with
    | yes hm hr =>
      simp only [if_true, spanFrom_bind, bind_eq_ok, pure_eq_ok] at h
      obtain ⟨id, s₂, hid, rfl, rfl⟩ := h
      obtain ⟨t, ht, hn, rfl⟩ := memberName_reads hid
      have hr := hr.trans ht
      exact .inr ⟨_, .ident _, _, rfl, hr, .namedAccess hm hn (covers_single t),
        (hu.trans hr).covers (by simp [hne])⟩
    | no =>
      obtain ⟨rfl, rfl⟩ := pure_eq_ok.mp h
      exact .inl ⟨rfl, rfl⟩

theorem chainLink?_keeps {s₀ s s' : State} {e : Expr Span} {x : Option (Expr Span)}
    (he : Phrase .chain s₀ e s) (h : chainLink? d s₀.current.span e s = .ok x s') :
    Phrase .chain s₀ (x.getD e) s' := by
  obtain ⟨u, hu, hde⟩ := he
  have hne := hde.ne_nil rfl
  simp only [chainLink?, bind_eq_ok] at h
  obtain ⟨b, s₁, hopen, h⟩ := h
  cases acceptMark_accepted hopen with
  | yes hm hr =>
    simp only [if_true, spanFrom_bind, bind_eq_ok, pure_eq_ok] at h
    obtain ⟨args, s₂, hargs, rfl, rfl⟩ := h
    obtain ⟨v, hv, hda⟩ := arguments_reads hd hm hargs
    have hr := hu.trans (hr.trans hv)
    exact ⟨_, hr, .call hde hda (hr.covers (by simp [hne]))⟩
  | no =>
    simp only [Bool.false_eq_true, if_false, bind_eq_ok] at h
    obtain ⟨y, s₁, haccess, h⟩ := h
    obtain ⟨rfl, rfl⟩ | ⟨v, property, span, rfl, hv, hp, hc⟩ := memberAccess?_reads hd hu hne haccess
    · simp only [bind_eq_ok] at h
      obtain ⟨b, s₂, hnew, h⟩ := h
      cases acceptKeyword_accepted hnew with
      | yes hk hr =>
        simp only [if_true, spanFrom_bind, bind_eq_ok, pure_eq_ok] at h
        obtain ⟨args, s₃, hargs, rfl, rfl⟩ := h
        obtain ⟨v, hv, hda⟩ := optionalArguments_parses hd hargs
        have hr := (hu.trans hr).trans hv
        exact ⟨_, hr, .chainNew hde hk hda (hr.covers (by simp))⟩
      | no =>
        obtain ⟨rfl, rfl⟩ := pure_eq_ok.mp h
        exact ⟨_, hu, hde⟩
    · obtain ⟨rfl, rfl⟩ := pure_eq_ok.mp h
      exact ⟨_, hu.trans hv, .chainAccess hde hp hc⟩

theorem chain_parses : Parses .chain (chain d) := by
  intro s e s' h
  simp only [chain, peek_bind, bind_eq_ok] at h
  obtain ⟨e₀, s₁, hprimary, h⟩ := h
  obtain ⟨u, hu, hde⟩ := primary_parses hd hprimary
  exact iterate_keeps (I := Phrase .chain s) ⟨u, hu, .chainOfPrimary hde⟩ h (chainLink?_keeps hd)

theorem calleeAccess_keeps {s₀ s s' : State} {e : Expr Span} {x : Option (Expr Span)}
    (he : Phrase .callee s₀ e s) (h : memberAccess? d s₀.current.span e s = .ok x s') :
    Phrase .callee s₀ (x.getD e) s' := by
  obtain ⟨u, hu, hde⟩ := he
  obtain ⟨rfl, rfl⟩ | ⟨v, property, span, rfl, hv, hp, hc⟩ :=
    memberAccess?_reads hd hu (hde.ne_nil rfl) h
  · exact ⟨_, hu, hde⟩
  · exact ⟨_, hu.trans hv, .calleeAccess hde hp hc⟩

theorem construction_parses :
    ParsesAt (fun s => Reading.spanned.IsKeyword s.current "new") .primary (construction d) := by
  intro s e s' hs h
  simp only [construction, peek_bind, spanFrom_bind, bind_eq_ok, discard_eq_ok, pure_eq_ok] at h
  obtain ⟨_, s₁, ⟨_, hadv⟩, e₀, s₂, hprimary, callee, s₃, hcallee, args, s₄, hargs, rfl, rfl⟩ := h
  have hr := (advance_reads_of_kind hadv hs.1 (by decide)).2
  obtain ⟨u, hu, hde⟩ := primary_parses hd hprimary
  obtain ⟨v, hv, hdc⟩ := iterate_keeps (I := Phrase .callee s₁) ⟨u, hu, .calleeOfPrimary hde⟩
    hcallee (calleeAccess_keeps hd)
  obtain ⟨w, hw, hda⟩ := optionalArguments_parses hd hargs
  have hr := (hr.trans hv).trans hw
  exact ⟨_, hr, .new hs hdc hda (hr.covers (by simp))⟩

/-! ## Operators with one operand -/

omit hd in
theorem requireUpdateTarget_reads {e : Expr Span} {s s' : State} {x : Unit}
    (h : requireUpdateTarget e s = .ok x s') : s' = s ∧ e.isUpdateTarget := by
  unfold requireUpdateTarget at h
  split at h
  · rename_i he
    obtain ⟨-, rfl⟩ := pure_eq_ok.mp h
    exact ⟨rfl, he⟩
  · exact absurd h throw_ne_ok

theorem update_parses : Parses .update (update d) := by
  intro s e s' h
  simp only [update, peek_bind, bind_eq_ok] at h
  obtain ⟨x, s₁, hop, h⟩ := h
  obtain ⟨rfl, rfl⟩ | ⟨op, rfl, -, hr, ht⟩ := acceptOneOf_reads (by decide) hop
  · simp only [nextOneOf_bind, bind_eq_ok (x := chain d)] at h
    obtain ⟨e₀, s₂, hchain, h⟩ := h
    obtain ⟨u, hu, hde⟩ := chain_parses hd hchain
    cases hx : (if s₂.current.kind = .operator then
      UpdateOp.all.find? fun c => c.symbol == s₂.current.value else none) with
    | none =>
      simp only [hx] at h
      obtain ⟨rfl, rfl⟩ := pure_eq_ok.mp h
      exact ⟨u, hu, .updateOfChain hde⟩
    | some op =>
      obtain ⟨-, ht⟩ := nextOneOf_some hx
      simp only [hx, spanFrom_bind, bind_eq_ok, discard_eq_ok, pure_eq_ok] at h
      obtain ⟨_, s₃, htarget, _, s₄, ⟨_, hadv⟩, rfl, rfl⟩ := h
      obtain ⟨rfl, harg⟩ := requireUpdateTarget_reads htarget
      have hr := hu.trans (advance_reads_of_kind hadv ht.1 (by decide)).2
      exact ⟨_, hr, .updateAfter hde harg ht (hr.covers (by simp))⟩
  · simp only [spanFrom_bind, bind_eq_ok, pure_eq_ok] at h
    obtain ⟨e, s₂, hunary, _, s₃, htarget, rfl, rfl⟩ := h
    obtain ⟨u, hu, hde⟩ := hd.unary hunary
    obtain ⟨rfl, harg⟩ := requireUpdateTarget_reads htarget
    have hr := hr.trans hu
    exact ⟨_, hr, .updateBefore ht hde harg (hr.covers (by simp))⟩

omit hd in
/-- A unary operator is a mark or a word. -/
theorem acceptUnaryOp_reads {s s' : State} {x : Option UnaryOp} (h : acceptUnaryOp s = .ok x s') :
    (x = none ∧ s' = s) ∨ ∃ op, x = some op ∧ s.Reads [s.current] s' ∧
      (op ∈ UnaryOp.marks ∧ Reading.spanned.IsOperator s.current op.symbol ∨
        op ∈ UnaryOp.words ∧ Reading.spanned.IsKeyword s.current op.symbol) := by
  simp only [acceptUnaryOp, bind_eq_ok] at h
  obtain ⟨y, s₁, hmark, h⟩ := h
  obtain ⟨rfl, rfl⟩ | ⟨op, rfl, hm, hr, ht⟩ := acceptOneOf_reads (by decide) hmark
  · obtain h | ⟨op, rfl, hm, hr, ht⟩ := acceptOneOf_reads (by decide) h
    · exact .inl h
    · exact .inr ⟨op, rfl, hr, .inr ⟨hm, ht⟩⟩
  · obtain ⟨rfl, rfl⟩ := pure_eq_ok.mp h
    exact .inr ⟨op, rfl, hr, .inl ⟨hm, ht⟩⟩

theorem unary_parses : Parses .unary (unary d) := by
  intro s e s' h
  simp only [unary, peek_bind, bind_eq_ok] at h
  obtain ⟨b, s₁, hawait, h⟩ := h
  cases acceptKeyword_accepted hawait with
  | yes hk hr =>
    simp only [if_true, spanFrom_bind, bind_eq_ok, pure_eq_ok] at h
    obtain ⟨e, s₂, hunary, rfl, rfl⟩ := h
    obtain ⟨u, hu, hde⟩ := hd.unary hunary
    have hr := hr.trans hu
    exact ⟨_, hr, .await hk hde (hr.covers (by simp))⟩
  | no =>
    simp only [Bool.false_eq_true, if_false, bind_eq_ok] at h
    obtain ⟨x, s₁, hop, h⟩ := h
    obtain ⟨rfl, rfl⟩ | ⟨op, rfl, hr, ht⟩ := acceptUnaryOp_reads hop
    · obtain ⟨u, hu, hde⟩ := update_parses hd h
      exact ⟨u, hu, .unaryOfUpdate hde⟩
    · simp only [spanFrom_bind, bind_eq_ok, pure_eq_ok] at h
      obtain ⟨e, s₂, hunary, rfl, rfl⟩ := h
      obtain ⟨u, hu, hde⟩ := hd.unary hunary
      have hr := hr.trans hu
      obtain ⟨hm, ht⟩ | ⟨hm, ht⟩ := ht
      · exact ⟨_, hr, .unaryMark hm ht hde (hr.covers (by simp))⟩
      · exact ⟨_, hr, .unaryWord hm ht hde (hr.covers (by simp))⟩

/-! ## Operators with two operands -/

omit hd in
/-- One level of operators that group to the left: `E` are the phrases of an operand and `L` those
of the level. -/
theorem leftAssociative_yields {α : Type} {symbol : α → String} {ops : List α}
    {build : α → Expr Span → Expr Span → Span → Expr Span} {operand : ParseM (Expr Span)}
    {E L : List Token → Expr Span → Prop} (hoperand : Yields operand E)
    (hlift : ∀ {u e}, E u e → L u e)
    (hbuild : ∀ {u v t left right op s}, L u left → op ∈ ops →
      Reading.spanned.IsOperator t (symbol op) → E v right →
      Reading.spanned.Covers (u ++ [t] ++ v) s → L (u ++ [t] ++ v) (build op left right s)) :
    Yields (leftAssociative (acceptOneOf .operator symbol ops) build operand) L := by
  intro s e s' h
  simp only [leftAssociative, peek_bind, bind_eq_ok] at h
  obtain ⟨first, s₁, hfirst, h⟩ := h
  obtain ⟨u, hu, he⟩ := hoperand hfirst
  refine iterate_keeps (I := fun e s₁ => ∃ u, s.Reads u s₁ ∧ L u e) ⟨u, hu, hlift he⟩ h ?_
  intro left x s₁ s₂ ⟨u, hu, hleft⟩ h
  simp only [bind_eq_ok] at h
  obtain ⟨y, s₃, hop, h⟩ := h
  obtain ⟨rfl, rfl⟩ | ⟨op, rfl, hm, hr, ht⟩ := acceptOneOf_reads (by decide) hop
  · obtain ⟨rfl, rfl⟩ := pure_eq_ok.mp h
    exact ⟨u, hu, hleft⟩
  · simp only [spanFrom_bind, bind_eq_ok, pure_eq_ok] at h
    obtain ⟨right, s₄, hright, rfl, rfl⟩ := h
    obtain ⟨v, hv, hright⟩ := hoperand hright
    have hr := (hu.trans hr).trans hv
    exact ⟨_, hr, hbuild hleft hm ht hright (hr.covers (by simp))⟩

theorem multiplicative_parses : Parses .multiplicative (multiplicative d) :=
  leftAssociative_yields (unary_parses hd) .multiplicativeOfUnary .multiplicative

theorem additive_parses : Parses .additive (additive d) :=
  leftAssociative_yields (multiplicative_parses hd) .additiveOfMultiplicative
    .additive

theorem comparison_parses : Parses .comparison (comparison d) :=
  leftAssociative_yields (additive_parses hd) .comparisonOfAdditive .comparison

theorem equality_parses : Parses .equality (equality d) :=
  leftAssociative_yields (comparison_parses hd) .equalityOfComparison .equality

theorem logicalAnd_parses : Parses .and (logicalAnd d) := by
  refine leftAssociative_yields (equality_parses hd) .andOfEquality ?_
  intro u v t left right op s hleft hm ht hright hs
  obtain rfl := List.mem_singleton.1 hm
  exact .and hleft ht hright hs

theorem logicalOr_parses : Parses .or (logicalOr d) := by
  refine leftAssociative_yields (logicalAnd_parses hd) .orOfAnd ?_
  intro u v t left right op s hleft hm ht hright hs
  obtain rfl := List.mem_singleton.1 hm
  exact .or hleft ht hright hs

/-! ## Conditionals and assignments -/

theorem conditional_parses : Parses .conditional (conditional d) := by
  intro s e s' h
  simp only [conditional, peek_bind, bind_eq_ok] at h
  obtain ⟨test, s₁, htest, b, s₂, hquestion, h⟩ := h
  obtain ⟨u, hu, hdt⟩ := logicalOr_parses hd htest
  cases acceptOperator_accepted hquestion with
  | yes hq hr =>
    simp only [if_true, spanFrom_bind, bind_eq_ok, pure_eq_ok] at h
    obtain ⟨consequent, s₃, hconsequent, _, s₄, hcolon, alternate, s₅, halternate, rfl, rfl⟩ := h
    obtain ⟨v, hv, hdc⟩ := hd.assignment hconsequent
    obtain ⟨t, ht, hm⟩ := require_reads hcolon
    obtain ⟨w, hw, hda⟩ := hd.assignment halternate
    have hr := (((hu.trans hr).trans hv).trans ht).trans hw
    exact ⟨_, hr, .conditional hdt hq hdc hm hda (hr.covers (by simp))⟩
  | no =>
    obtain ⟨rfl, rfl⟩ := pure_eq_ok.mp h
    exact ⟨u, hu, .conditionalOfOr hdt⟩

omit hd in
theorem target_reads {e : Expr Span} {p : Pattern Span} {s s' : State}
    (h : target e s = .ok p s') : s' = s ∧ e = p.toExpr := by
  unfold target Expr.toPattern at h
  cases hp : e.asPattern with
  | ok q =>
    rw [hp] at h
    obtain ⟨rfl, rfl⟩ := pure_eq_ok.mp h
    exact ⟨rfl, e.eq_toExpr_of_asPattern q hp⟩
  | error s =>
    rw [hp] at h
    exact absurd h throw_ne_ok

theorem assignment_parses : Parses .assignment (assignment d) := by
  intro s e s' h
  simp only [assignment, peek_bind, bind_eq_ok] at h
  obtain ⟨left, s₁, hleft, x, s₂, hop, h⟩ := h
  obtain ⟨u, hu, hdl⟩ := conditional_parses hd hleft
  obtain ⟨rfl, rfl⟩ | ⟨op, rfl, -, hr, ht⟩ := acceptOneOf_reads (by decide) hop
  · obtain ⟨rfl, rfl⟩ := pure_eq_ok.mp h
    exact ⟨u, hu, .assignmentOfConditional hdl⟩
  · simp only [spanFrom_bind, bind_eq_ok, pure_eq_ok] at h
    obtain ⟨p, s₃, htarget, right, s₄, hright, rfl, rfl⟩ := h
    obtain ⟨rfl, rfl⟩ := target_reads htarget
    obtain ⟨v, hv, hdr⟩ := hd.assignment hright
    have hr := (hu.trans hr).trans hv
    exact ⟨_, hr, .assignment hdl ht hdr (hr.covers (by simp))⟩

end

end Parse

end JsSyntax
