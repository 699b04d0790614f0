import JsSyntax.Parse.Expression
import JsSyntax.Proofs.Follow.Member

/-! # Expressions that follow each other -/

set_option autoImplicit false
-- The whole text of a routine goes through the search for an instance.
set_option synthInstance.maxSize 1024

namespace JsSyntax

namespace Parse

/-! ## Routines that advance -/

namespace Advances

section
variable (d : Deeper) [hd : d.Regular]

instance primary : Advances (Parse.primary d) := of_parses (primary_parses hd.sound) rfl

instance arguments : Advances (Parse.arguments d) := by
  unfold Parse.arguments
  infer_instance

instance unary : Advances (Parse.unary d) := of_parses (unary_parses hd.sound) rfl

instance leftAssociative {γ : Type} {operator : ParseM (Option γ)}
    {build : γ → Expr Span → Expr Span → Span → Expr Span} {operand : ParseM (Expr Span)}
    [Moves operator] [Moves operand] [Advances operand] :
    Advances (Parse.leftAssociative operator build operand) := by
  unfold Parse.leftAssociative
  infer_instance

instance multiplicative : Advances (Parse.multiplicative d) := leftAssociative

instance additive : Advances (Parse.additive d) := leftAssociative

instance comparison : Advances (Parse.comparison d) := leftAssociative

instance equality : Advances (Parse.equality d) := leftAssociative

instance logicalAnd : Advances (Parse.logicalAnd d) := leftAssociative

end

end Advances

namespace Alignment

variable {τ : Type} {A : Alignment τ} {r : Reach} {pre : State → State → Prop}

/-! ## Primaries -/

theorem templateLiteral_follows :
    A.Follows .inside r A.Ready (A.Alike Expr.map) templateLiteral templateLiteral := by
  refine advance_follows.bind_whole fun ht => .pure ?_
  simp [Alike, Expr.map, TemplateElement.map, Expr.mapAll, ht.value, ht.span]

section
variable {d d' : Deeper} [d.Regular] (hd : A.Deepens d d')
include hd

/-- The element of an array, or the comma that stands for a hole. -/
theorem slot_follows : A.Follows .inside .inside A.Last
    (Items fun x x' => x.map (Expr.map A.left) = x'.map (Expr.map A.right))
    (do if ← acceptMark "," then return .more none else commaItem (some <$> d.assignment))
    (do if ← acceptMark "," then return .more none else commaItem (some <$> d'.assignment)) := by
  refine (acceptMark_accepts ",").bind_bool (.pure (.more rfl)) ?_
  exact commaItem_follows hd.assignment.some

omit hd in
theorem slot_lt {s s' : State} {x : Option (Expr Span)}
    (h : (do if ← acceptMark "," then return .more none else commaItem (some <$> d.assignment) :
      ParseM (Item (Option (Expr Span)))) s = .ok (.more x) s') :
    s'.rest.length < s.rest.length := by
  obtain ⟨b, s₁, hcomma, h⟩ := bind_eq_ok.mp h
  cases acceptMark_accepted hcomma with
  | yes _ hr =>
    obtain ⟨-, rfl⟩ := pure_eq_ok.mp h
    exact hr.lt_of_ne_nil (by simp)
  | no => exact commaItem_lt h

theorem arrayLiteral_follows :
    A.Follows .inside r A.Ready (A.Alike Expr.map) (arrayLiteral d) (arrayLiteral d') := by
  unfold arrayLiteral
  refine peek_bind fun hstart => ?_
  refine discard_advance_follows.of_whole.bind fun _ => ?_
  refine (collect_follows (upTo_lt slot_lt) (upTo_follows (slot_follows hd))).bind fun hslots => ?_
  refine (require_follows _).bind_whole fun _ => ?_
  refine spanFrom_bind hstart fun hspan => .pure ?_
  simp [Alike, Expr.map, hslots, hspan]

theorem objectLiteral_follows :
    A.Follows .inside r A.Ready (A.Alike Expr.map) (objectLiteral d) (objectLiteral d') := by
  unfold objectLiteral
  refine peek_bind fun hstart => ?_
  refine discard_advance_follows.of_whole.bind fun _ => ?_
  refine (collect_follows (upTo_lt commaItem_lt)
    (upTo_follows (commaItem_follows (property_follows hd)))).bind fun hps => ?_
  refine (require_follows _).bind_whole fun _ => ?_
  refine spanFrom_bind hstart fun hspan => .pure ?_
  simp [Alike, Expr.map, hps, hspan]

theorem group_follows :
    A.Follows .inside r A.Ready (A.Alike Expr.map) (group d) (group d') := by
  unfold group
  refine discard_advance_follows.of_whole.bind fun _ => ?_
  refine hd.assignment.bind fun he => ?_
  exact (require_follows _).bind_whole fun _ => .pure he

theorem keywordPrimary_follows [A.Ends r] :
    A.Follows .inside r A.Ready (A.Alike Expr.map) (keywordPrimary d) (keywordPrimary d') := by
  unfold keywordPrimary
  refine peek_bind fun hspan => .ite .rfl (fun _ => ?_) fun _ => ?_
  · refine discard_advance_follows.bind_whole fun _ => .pure ?_
    simp [Alike, Expr.map, hspan]
  refine .ite .rfl (fun _ => ?_) fun _ => ?_
  · refine discard_advance_follows.bind_whole fun _ => .pure ?_
    simp [Alike, Expr.map, hspan]
  refine .ite .rfl (fun _ => ?_) fun _ => ?_
  · refine discard_advance_follows.bind_whole fun _ => .pure ?_
    simp [Alike, Expr.map, Ident.map, hspan]
  refine functionNext_follows hd (fun hf => ?_) ?_
  · simp only [Alike] at hf
    simp [Alike, Expr.map, hf]
  exact .ite .rfl (fun _ => hd.construction) fun _ => unexpected_follows

theorem markPrimary_follows :
    A.Follows .inside r A.Ready (A.Alike Expr.map) (markPrimary d) (markPrimary d') := by
  unfold markPrimary
  refine peek_bind fun _ => .ite .rfl (fun _ => group_follows hd) fun _ => ?_
  refine .ite .rfl (fun _ => arrayLiteral_follows hd) fun _ => ?_
  exact .ite .rfl (fun _ => objectLiteral_follows hd) fun _ => unexpected_follows

theorem primary_follows [A.Ends r] :
    A.Follows .inside r pre (A.Alike Expr.map) (primary d) (primary d') := by
  unfold primary
  refine peek_bind_kind fun {kind value sp sp'} hspan => ?_
  have hready : kind ≠ .eof → ∀ {s s' : State}, s.current.kind = kind → A.Ready s s' :=
    fun hk _ _ => ready_of_kind hk
  cases kind with
  | identifier =>
    refine (discard_advance_follows.of_pre (hready (by decide))).bind_whole fun _ => .pure ?_
    simp [Alike, Expr.map, Ident.map, hspan]
  | number =>
    refine (numberLiteral_follows.of_pre (hready (by decide))).bind_whole fun hl => .pure ?_
    simp only [Alike] at hl
    simp [Alike, Expr.map, hl]
  | string =>
    refine (stringLiteral_follows.of_pre (hready (by decide))).bind_whole fun hl => .pure ?_
    simp only [Alike] at hl
    simp [Alike, Expr.map, hl]
  | boolean =>
    refine (discard_advance_follows.of_pre (hready (by decide))).bind_whole fun _ => .pure ?_
    simp [Alike, Expr.map, Literal.map, hspan]
  | null =>
    refine (discard_advance_follows.of_pre (hready (by decide))).bind_whole fun _ => .pure ?_
    simp [Alike, Expr.map, Literal.map, hspan]
  | templateString => exact templateLiteral_follows.of_pre (hready (by decide))
  | punctuation => exact (markPrimary_follows hd).of_pre (hready (by decide))
  | keyword => exact (keywordPrimary_follows hd).of_pre (hready (by decide))
  | operator => exact unexpected_follows
  | comment => exact unexpected_follows
  | eof => exact unexpected_follows
  | unknown => exact unexpected_follows

/-! ## Accesses and calls -/

theorem arguments_follows : A.Follows .inside r A.Last
    (A.Alike fun f => List.map (Expr.map f)) (arguments d) (arguments d') := by
  unfold arguments
  simp only [ite_bind]
  refine (isMarkNext_looks _).bind fun _ => ?_
  have hlist : A.Follows .inside .inside A.Last (A.Alike fun f => List.map (Expr.map f))
      (collect (commaItem d.assignment)) (collect (commaItem d'.assignment)) :=
    collect_follows commaItem_lt (commaItem_follows hd.assignment)
  refine Follows.bind (.ite .rfl ?_ fun _ => hlist) fun hargs => ?_
  · exact fun _ => .pure rfl
  · exact (require_follows _).bind_whole fun _ => .pure hargs

theorem optionalArguments_follows [A.Ends r] : A.Follows r r A.Last
    (A.Alike fun f => List.map (Expr.map f)) (optionalArguments d) (optionalArguments d') :=
  (acceptMark_accepts _).bind_bool_self (acceptMark_closes (by decide))
    (arguments_follows hd).of_leads (.pure rfl)

theorem memberAccess?_follows [A.Ends r] {start start' : Span} {e e' : Expr Span}
    (hstart : A.left start = A.right start') (he : A.Alike Expr.map e e') :
    A.Follows .inside r A.Last (Option.Rel (A.Alike Expr.map)) (memberAccess? d start e)
      (memberAccess? d' start' e') := by
  unfold memberAccess?
  simp only [Alike] at he
  refine (acceptMark_accepts _).bind_bool ?_ ?_
  · refine hd.assignment.bind fun hp => ?_
    refine (require_follows _).bind_whole fun _ => ?_
    refine spanFrom_bind hstart fun hspan => .pure (.some ?_)
    simp only [Alike] at hp
    simp [Alike, Expr.map, MemberProperty.map, he, hp, hspan]
  refine (acceptMark_accepts _).bind_bool ?_ (.pure .none)
  refine memberName_follows.bind_whole fun hp => ?_
  refine spanFrom_bind hstart fun hspan => .pure (.some ?_)
  simp only [Alike] at hp
  simp [Alike, Expr.map, MemberProperty.map, he, hp, hspan]

omit [d.Regular] hd in
theorem memberAccess?_none {start : Span} {e : Expr Span} {s s' : State}
    (h : memberAccess? d start e s = .ok none s') : s' = s := by
  obtain ⟨b, s₁, hopen, h⟩ := bind_eq_ok.mp h
  cases acceptMark_accepted hopen with
  | yes _ _ => simp [Parse.spanFrom_bind, bind_eq_ok, pure_eq_ok, -bind_pure_comp] at h
  | no =>
    obtain ⟨b, s₁, hpoint, h⟩ := bind_eq_ok.mp h
    cases acceptMark_accepted hpoint with
    | yes _ _ => simp [Parse.spanFrom_bind, bind_eq_ok, pure_eq_ok, -bind_pure_comp] at h
    | no => exact (pure_eq_ok.mp h).2.symm

omit [d.Regular] hd in
theorem memberAccess?_of_semicolon {start : Span} {e : Expr Span} {s : State}
    (h : s.current.isPunctuation ";") : memberAccess? d start e s = .ok none s := by
  have hbracket := (@acceptMark_closes "[" (by decide)).semicolon h
  have hpoint := (@acceptMark_closes "." (by decide)).semicolon h
  rw [memberAccess?, bind_of_ok hbracket]
  exact bind_of_ok hpoint

omit hd in
/-- An access has a point or a bracket at least. -/
theorem memberAccess?_lt {start : Span} {e e' : Expr Span} {s s' : State}
    (h : memberAccess? d start e s = .ok (some e') s') : s'.rest.length < s.rest.length := by
  obtain ⟨b, s₁, hopen, h⟩ := bind_eq_ok.mp h
  cases acceptMark_accepted hopen with
  | yes _ hr =>
    have := hr.lt_of_ne_nil (by simp)
    have := Shrinks.le_of_ok h
    omega
  | no =>
    obtain ⟨b, s₁, hpoint, h⟩ := bind_eq_ok.mp h
    cases acceptMark_accepted hpoint with
    | yes _ hr =>
      have := hr.lt_of_ne_nil (by simp)
      have := Shrinks.le_of_ok h
      omega
    | no => cases h

theorem chainLink?_follows [A.Ends r] {start start' : Span} {e e' : Expr Span}
    (hstart : A.left start = A.right start') (he : A.Alike Expr.map e e') :
    A.Follows .inside r A.Last (Option.Rel (A.Alike Expr.map)) (chainLink? d start e)
      (chainLink? d' start' e') := by
  unfold chainLink?
  have hspanned : ∀ {args args' : List (Expr Span)} {sp sp' : Span}
      (build : {σ : Type} → Expr σ → List (Expr σ) → σ → Expr σ),
      (∀ {σ τ : Type} (f : σ → τ) e args sp,
        (build e args sp).map f = build (e.map f) (args.map (Expr.map f)) (f sp)) →
      A.Alike (fun f => List.map (Expr.map f)) args args' → A.left sp = A.right sp' →
      A.Alike Expr.map (build e args sp) (build e' args' sp') := by
    intro args args' sp sp' build hbuild hargs hspan
    simp only [Alike] at he hargs ⊢
    rw [hbuild, hbuild, he, hargs, hspan]
  refine (acceptMark_accepts _).bind_bool ?_ ?_
  · refine (arguments_follows hd).bind_self fun hargs => ?_
    refine spanFrom_bind hstart fun hspan => .pure (.some ?_)
    exact hspanned .call (fun f e args sp => by simp [Expr.map]) hargs hspan
  refine (memberAccess?_follows hd hstart he).bind_option (fun haccess => .pure (.some haccess)) ?_
  refine (acceptKeyword_accepts _).bind_bool_self (acceptKeyword_closes _) ?_ (.pure .none)
  refine (optionalArguments_follows hd).bind_self fun hargs => ?_
  refine spanFrom_bind hstart fun hspan => .pure (.some ?_)
  exact hspanned .new (fun f e args sp => by simp [Expr.map]) hargs hspan

omit hd in
theorem chainLink?_lt {start : Span} {e e' : Expr Span} {s s' : State}
    (h : chainLink? d start e s = .ok (some e') s') : s'.rest.length < s.rest.length := by
  obtain ⟨b, s₁, hopen, h⟩ := bind_eq_ok.mp h
  cases acceptMark_accepted hopen with
  | yes _ hr =>
    have := hr.lt_of_ne_nil (by simp)
    have := Shrinks.le_of_ok h
    omega
  | no =>
    obtain ⟨x, s₁, haccess, h⟩ := bind_eq_ok.mp h
    cases x with
    | some access =>
      obtain ⟨-, rfl⟩ := pure_eq_ok.mp h
      exact memberAccess?_lt haccess
    | none =>
      have := Shrinks.le_of_ok haccess
      obtain ⟨b, s₂, hnew, h⟩ := bind_eq_ok.mp h
      cases acceptKeyword_accepted hnew with
      | yes _ hr =>
        have := hr.lt_of_ne_nil (by simp)
        have := Shrinks.le_of_ok h
        omega
      | no => cases h

omit [d.Regular] hd in
theorem chainLink?_none {start : Span} {e : Expr Span} {s s' : State}
    (h : chainLink? d start e s = .ok none s') : s' = s := by
  simp only [chainLink?, bind_eq_ok] at h
  obtain ⟨b, s₁, hopen, h⟩ := h
  cases acceptMark_accepted hopen with
  | yes _ _ => simp [Parse.spanFrom_bind, bind_eq_ok, pure_eq_ok, -bind_pure_comp] at h
  | no =>
    simp only [Bool.false_eq_true, if_false, bind_eq_ok] at h
    obtain ⟨x, s₁, haccess, h⟩ := h
    cases x with
    | some access => cases (pure_eq_ok.mp h).1
    | none =>
      simp only [bind_eq_ok] at h
      obtain ⟨b, s₂, hnew, h⟩ := h
      cases acceptKeyword_accepted hnew with
      | yes _ _ => simp [Parse.spanFrom_bind, bind_eq_ok, pure_eq_ok, -bind_pure_comp] at h
      | no => exact (pure_eq_ok.mp h).2.symm.trans (memberAccess?_none haccess)

omit [d.Regular] hd in
theorem chainLink?_of_semicolon {start : Span} {e : Expr Span} {s : State}
    (h : s.current.isPunctuation ";") : chainLink? d start e s = .ok none s := by
  have hopen := (@acceptMark_closes "(" (by decide)).semicolon h
  have hnew := (acceptKeyword_closes "new").semicolon h
  rw [chainLink?, bind_of_ok hopen]
  refine (bind_of_ok (memberAccess?_of_semicolon h)).trans ?_
  exact bind_of_ok hnew

theorem chain_follows [A.Ends r] :
    A.Follows .inside r pre (A.Alike Expr.map) (chain d) (chain d') := by
  unfold chain
  refine peek_bind fun hstart => (primary_follows hd).bind_self fun he => ?_
  exact iterate_follows chainLink?_lt (chainLink?_follows hd hstart) chainLink?_none
    chainLink?_of_semicolon he

theorem construction_follows [A.Ends r] :
    A.Follows .inside r A.Ready (A.Alike Expr.map) (construction d) (construction d') := by
  unfold construction
  refine peek_bind fun hstart => ?_
  refine discard_advance_follows.of_whole.bind fun _ => ?_
  refine peek_bind fun hcallee => (primary_follows hd).bind_self fun he => ?_
  refine (iterate_follows memberAccess?_lt (memberAccess?_follows hd hcallee) memberAccess?_none
    memberAccess?_of_semicolon he).bind_self fun he => ?_
  refine (optionalArguments_follows hd).bind_self fun hargs => ?_
  refine spanFrom_bind hstart fun hspan => .pure ?_
  simp only [Alike] at he hargs
  simp [Alike, Expr.map, he, hargs, hspan]

/-! ## Operators with one operand -/

omit [d.Regular] hd in
theorem requireUpdateTarget_bind {β : Type} {W : β → β → Prop} {r₀ : Reach} {g g' : Unit → ParseM β}
    {e e' : Expr Span} (he : A.Alike Expr.map e e') (hg : A.Follows r₀ r pre W (g ()) (g' ())) :
    A.Follows r₀ r pre W (requireUpdateTarget e >>= g) (requireUpdateTarget e' >>= g') := by
  simp only [Alike] at he
  have htarget : e.isUpdateTarget = e'.isUpdateTarget := by
    rw [← Expr.isUpdateTarget_map A.left, he, Expr.isUpdateTarget_map]
  have hspan : A.left e.span = A.right e'.span := by
    rw [← Expr.span_map A.left, he, Expr.span_map]
  unfold requireUpdateTarget
  rw [htarget]
  cases e'.isUpdateTarget with
  | true => exact hg
  | false => exact throw_follows (A := A) ⟨_, _, _, hspan, rfl, rfl⟩

/-- An operator behind the operand, if one follows. -/
def postfixUpdate (start : Span) (e : Expr Span) : ParseM (Expr Span) := do
  match ← nextOneOf .operator UpdateOp.symbol UpdateOp.all with
  | some op =>
    requireUpdateTarget e
    discard advance
    return .update op false e (← spanFrom start)
  | none => return e

omit [d.Regular] hd in
theorem alike_update {op : UpdateOp} {before : Bool} {e e' : Expr Span} {sp sp' : Span}
    (he : A.Alike Expr.map e e') (hspan : A.left sp = A.right sp') :
    A.Alike Expr.map (.update op before e sp) (.update op before e' sp') := by
  simp only [Alike] at he
  simp [Alike, Expr.map, he, hspan]

omit [d.Regular] hd in
theorem postfixUpdate_of_semicolon {start : Span} {e : Expr Span} {s : State}
    (h : s.current.isPunctuation ";") : postfixUpdate start e s = .ok e s := by
  have hk : s.current.kind ≠ .operator := by
    rw [(Token.is_iff.1 h).1]
    decide
  simp only [postfixUpdate, nextOneOf_bind, if_neg hk]
  rfl

omit [d.Regular] hd in
/-- It reads nothing, or the operator. -/
theorem postfixUpdate_cases (start : Span) (e : Expr Span) (s : State) :
    postfixUpdate start e s = .ok e s ∨ (∃ x, postfixUpdate start e s = .error x s) ∨
      (after (postfixUpdate start e s)).rest.length < s.rest.length := by
  simp only [postfixUpdate, nextOneOf_bind]
  cases hx : (if s.current.kind = .operator then
    UpdateOp.all.find? fun c => c.symbol == s.current.value else none) with
  | none => exact .inl rfl
  | some op =>
    unfold requireUpdateTarget
    cases e.isUpdateTarget with
    | false => exact .inr (.inl ⟨_, rfl⟩)
    | true =>
      have hk : s.current.kind ≠ .eof := by
        rw [(nextOneOf_some hx).2.1]
        decide
      obtain ⟨s₁, hadvance, hlt⟩ := discard_advance_lt hk
      refine .inr (.inr (Nat.lt_of_le_of_lt (Nat.le_of_eq ?_) hlt))
      show (after ((discard advance >>= _) s)).rest.length = _
      rw [bind_of_ok hadvance]
      rfl

omit [d.Regular] hd in
theorem postfixUpdate_follows [A.Ends r] {start start' : Span} {e e' : Expr Span}
    (hstart : A.left start = A.right start') (he : A.Alike Expr.map e e') :
    A.Follows r r A.Last (A.Alike Expr.map) (postfixUpdate start e) (postfixUpdate start' e') := by
  have hinside : A.Follows .inside r A.Last (A.Alike Expr.map) (postfixUpdate start e)
      (postfixUpdate start' e') := by
    refine (nextOneOf_looks _ _ _).bind fun op => ?_
    cases op with
    | none => exact .pure he
    | some op =>
      refine requireUpdateTarget_bind he ?_
      refine (discard_advance_follows.of_pre .inl).bind_whole fun _ => ?_
      exact spanFrom_bind hstart fun hspan => .pure (alike_update he hspan)
  cases r with
  | inside => exact hinside
  | whole =>
    intro s s' hs h₀ hl
    by_cases hin : A.At .inside s
    · exact hinside hs hin hl
    rcases postfixUpdate_cases start e s with hleft | ⟨x, hleft⟩ | hlt
    · rw [hleft, postfixUpdate_of_semicolon (hs.semicolon hin)]
      exact fun _ => ⟨e', s', rfl, he, hs, hl⟩
    · rw [hleft]
      exact fun h₁ => absurd h₁ hin
    · exact .of_beyond fun h₁ => hin (h₁.inside_of_lt hlt)

theorem update_follows [A.Ends r] :
    A.Follows .inside r pre (A.Alike Expr.map) (update d) (update d') := by
  unfold update
  refine peek_bind fun hstart => ?_
  refine (acceptOneOf_accepts (by decide) _ _).bind_option (fun op => ?_) ?_
  · refine hd.unary.bind_self fun he => ?_
    refine requireUpdateTarget_bind he ?_
    exact spanFrom_bind hstart fun hspan => .pure (alike_update he hspan)
  exact (chain_follows hd).bind_self fun he => postfixUpdate_follows hstart he

omit hd in
theorem acceptUnaryOp_accepts : A.Accepts none acceptUnaryOp acceptUnaryOp := by
  refine (acceptOneOf_accepts (by decide) _ _).orElse ?_ (acceptOneOf_accepts (by decide) _ _)
  rintro (_ | op) hop
  · exact absurd rfl hop
  · exact ⟨some op, nofun, rfl, rfl⟩

theorem unary_follows [A.Ends r] :
    A.Follows .inside r pre (A.Alike Expr.map) (unary d) (unary d') := by
  unfold unary
  refine peek_bind fun hstart => ?_
  refine (acceptKeyword_accepts _).bind_bool ?_ ?_
  · refine hd.unary.bind_self fun he => ?_
    refine spanFrom_bind hstart fun hspan => .pure ?_
    simp only [Alike] at he
    simp [Alike, Expr.map, he, hspan]
  refine acceptUnaryOp_accepts.bind_option (fun op => ?_) (update_follows hd)
  refine hd.unary.bind_self fun he => ?_
  refine spanFrom_bind hstart fun hspan => .pure ?_
  simp only [Alike] at he
  simp [Alike, Expr.map, he, hspan]

end

/-! ## Operators with two operands -/

/-- A further operator with its operand, behind what has been read from `start` on. -/
def operation? {γ : Type} (operator : ParseM (Option γ))
    (build : γ → Expr Span → Expr Span → Span → Expr Span) (operand : ParseM (Expr Span))
    (start : Span) (left : Expr Span) : ParseM (Option (Expr Span)) := do
  match ← operator with
  | some op =>
    let right ← operand
    return some (build op left right (← spanFrom start))
  | none => return none

section
variable {γ : Type} {symbol : γ → String} {ops : List γ}
  {build : γ → Expr Span → Expr Span → Span → Expr Span} {operand operand' : ParseM (Expr Span)}
  {start : Span} {left : Expr Span} {s s' : State}

theorem operation?_none
    (h : operation? (acceptOneOf .operator symbol ops) build operand start left s = .ok none s') :
    s' = s := by
  simp only [operation?, bind_eq_ok] at h
  obtain ⟨op, s₁, hop, h⟩ := h
  obtain ⟨rfl, rfl⟩ | ⟨op, rfl, -⟩ := acceptOneOf_reads (by decide) hop
  · exact (pure_eq_ok.mp h).2.symm
  · simp [Parse.spanFrom_bind, bind_eq_ok, pure_eq_ok, -bind_pure_comp] at h

theorem operation?_lt [Shrinks operand] {e : Expr Span}
    (h : operation? (acceptOneOf .operator symbol ops) build operand start left s =
      .ok (some e) s') : s'.rest.length < s.rest.length := by
  obtain ⟨op, s₁, hop, h⟩ := bind_eq_ok.mp h
  obtain ⟨rfl, -⟩ | ⟨op, rfl, -, hr, -⟩ := acceptOneOf_reads (by decide) hop
  · cases (pure_eq_ok.mp h).1
  · have := hr.lt_of_ne_nil (by simp)
    have := Shrinks.le_of_ok h
    omega

theorem operation?_of_semicolon (h : s.current.isPunctuation ";") :
    operation? (acceptOneOf .operator symbol ops) build operand start left s = .ok none s :=
  bind_of_ok ((acceptOneOf_closes (by decide) (by decide) symbol ops).semicolon h)

variable (hoperand : ∀ pre, A.Follows .inside r pre (A.Alike Expr.map) operand operand')
  (hbuild : ∀ ⦃op left left' right right' sp sp'⦄, A.Alike Expr.map left left' →
    A.Alike Expr.map right right' → A.left sp = A.right sp' →
    A.Alike Expr.map (build op left right sp) (build op left' right' sp'))
include hoperand hbuild

theorem operation?_follows [Advances operand] {start start' : Span} {left left' : Expr Span}
    (hstart : A.left start = A.right start') (hleft : A.Alike Expr.map left left') :
    A.Follows .inside r A.Last (Option.Rel (A.Alike Expr.map))
      (operation? (acceptOneOf .operator symbol ops) build operand start left)
      (operation? (acceptOneOf .operator symbol ops) build operand' start' left') := by
  refine (acceptOneOf_accepts (by decide) _ _).bind_option (fun op => ?_) (.pure .none)
  refine (hoperand _).bind_self fun hright => ?_
  exact spanFrom_bind hstart fun hspan => .pure (.some (hbuild hleft hright hspan))

omit hoperand hbuild in
instance operation?_moves [Moves operand] :
    Moves (operation? (acceptOneOf .operator symbol ops) build operand start left) := by
  unfold operation?
  infer_instance

theorem operations_follow [A.Ends r] [Moves operand] [Advances operand] {start start' : Span}
    {e e' : Expr Span} (hstart : A.left start = A.right start') (he : A.Alike Expr.map e e') :
    A.Follows r r A.Last (A.Alike Expr.map)
      (iterate (operation? (acceptOneOf .operator symbol ops) build operand start) e)
      (iterate (operation? (acceptOneOf .operator symbol ops) build operand' start') e') := by
  refine iterate_follows ?_ ?_ ?_ ?_ he
  · exact fun h => operation?_lt h
  · exact fun hleft => operation?_follows hoperand hbuild hstart hleft
  · exact fun h => operation?_none h
  · exact fun h => operation?_of_semicolon h

theorem leftAssociative_follows [A.Ends r] [Moves operand] [Advances operand] :
    A.Follows .inside r pre (A.Alike Expr.map)
      (leftAssociative (acceptOneOf .operator symbol ops) build operand)
      (leftAssociative (acceptOneOf .operator symbol ops) build operand') := by
  unfold leftAssociative
  refine peek_bind fun hstart => (hoperand _).bind_self fun he => ?_
  exact operations_follow hoperand hbuild hstart he

end

section
variable {d d' : Deeper} [d.Regular] (hd : A.Deepens d d')
include hd

omit [d.Regular] hd in
theorem alike_binary ⦃op : BinaryOp⦄ ⦃left left' right right' : Expr Span⦄ ⦃sp sp' : Span⦄
    (hleft : A.Alike Expr.map left left') (hright : A.Alike Expr.map right right')
    (hspan : A.left sp = A.right sp') :
    A.Alike Expr.map (.binary op left right sp) (.binary op left' right' sp') := by
  simp only [Alike] at hleft hright
  simp [Alike, Expr.map, hleft, hright, hspan]

omit [d.Regular] hd in
theorem alike_logical ⦃op : LogicalOp⦄ ⦃left left' right right' : Expr Span⦄ ⦃sp sp' : Span⦄
    (hleft : A.Alike Expr.map left left') (hright : A.Alike Expr.map right right')
    (hspan : A.left sp = A.right sp') :
    A.Alike Expr.map (.logical op left right sp) (.logical op left' right' sp') := by
  simp only [Alike] at hleft hright
  simp [Alike, Expr.map, hleft, hright, hspan]

theorem multiplicative_follows [A.Ends r] :
    A.Follows .inside r pre (A.Alike Expr.map) (multiplicative d) (multiplicative d') :=
  leftAssociative_follows (fun _ => unary_follows hd) alike_binary

theorem additive_follows [A.Ends r] :
    A.Follows .inside r pre (A.Alike Expr.map) (additive d) (additive d') :=
  leftAssociative_follows (fun _ => multiplicative_follows hd) alike_binary

theorem comparison_follows [A.Ends r] :
    A.Follows .inside r pre (A.Alike Expr.map) (comparison d) (comparison d') :=
  leftAssociative_follows (fun _ => additive_follows hd) alike_binary

theorem equality_follows [A.Ends r] :
    A.Follows .inside r pre (A.Alike Expr.map) (equality d) (equality d') :=
  leftAssociative_follows (fun _ => comparison_follows hd) alike_binary

theorem logicalAnd_follows [A.Ends r] :
    A.Follows .inside r pre (A.Alike Expr.map) (logicalAnd d) (logicalAnd d') :=
  leftAssociative_follows (fun _ => equality_follows hd) alike_logical

theorem logicalOr_follows [A.Ends r] :
    A.Follows .inside r pre (A.Alike Expr.map) (logicalOr d) (logicalOr d') :=
  leftAssociative_follows (fun _ => logicalAnd_follows hd) alike_logical

/-! ## Conditionals and assignments -/

theorem conditional_follows [A.Ends r] :
    A.Follows .inside r pre (A.Alike Expr.map) (conditional d) (conditional d') := by
  unfold conditional
  refine peek_bind fun hstart => (logicalOr_follows hd).bind_self fun htest => ?_
  refine (acceptOperator_accepts _).bind_bool_self (acceptOperator_closes _) ?_ (.pure htest)
  refine Follows.of_leads (hd.assignment.bind fun hconsequent => ?_)
  refine (require_follows _).of_whole.bind fun _ => ?_
  refine hd.assignment.bind_self fun halternate => ?_
  refine spanFrom_bind hstart fun hspan => .pure ?_
  simp only [Alike] at htest hconsequent halternate
  simp [Alike, Expr.map, htest, hconsequent, halternate, hspan]

omit [d.Regular] hd in
theorem target_follows {e e' : Expr Span} (he : A.Alike Expr.map e e') :
    A.Follows .inside .inside A.Last (A.Alike Pattern.map) (target e) (target e') := by
  have h := e.asPattern_map A.left
  simp only [Alike] at he
  rw [he, e'.asPattern_map A.right] at h
  unfold target Expr.toPattern
  cases hp : e.asPattern with
  | ok p =>
    cases hp' : e'.asPattern with
    | ok p' =>
      rw [hp, hp'] at h
      simp only [mapReading, Except.ok.injEq] at h
      exact .pure h.symm
    | error sp' => simp [hp, hp', mapReading] at h
  | error sp =>
    cases hp' : e'.asPattern with
    | ok p' => simp [hp, hp', mapReading] at h
    | error sp' =>
      rw [hp, hp'] at h
      simp only [mapReading, Except.error.injEq] at h
      exact throw_follows ⟨_, sp, sp', h.symm, rfl, rfl⟩

theorem assignment_follows [A.Ends r] :
    A.Follows .inside r pre (A.Alike Expr.map) (assignment d) (assignment d') := by
  unfold assignment
  refine peek_bind fun hstart => ?_
  refine (conditional_follows hd).bind_self fun hleft => ?_
  refine (acceptOneOf_accepts (by decide) _ _).bind_option_self
    (acceptOneOf_closes (by decide) (by decide) _ _) (fun op => ?_) (.pure hleft)
  refine Follows.of_leads ((target_follows hleft).bind fun htarget => ?_)
  refine hd.assignment.bind_self fun hright => ?_
  refine spanFrom_bind hstart fun hspan => .pure ?_
  simp only [Alike] at htarget hright
  simp [Alike, Expr.map, htarget, hright, hspan]

end

end Alignment

end Parse

end JsSyntax
