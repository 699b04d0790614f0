import JsSyntax.Proofs.Layout
import JsSyntax.Proofs.RoundTrip.Takes

/-! # Expressions in front of a semicolon

What a level of precedence reads, every looser level reads as well, when a semicolon follows: none
of the operators of the looser levels is there (`assignment_of_primary` and its kin).

`Recurs m e s s'`: wherever a semicolon follows the tokens between the states `s` and `s'`, the
routine `m` reads just these and gives what corresponds to `e`. A loop that has been cut short
between two of its steps recurs likewise, since the semicolon stops it.
-/

set_option autoImplicit false

namespace JsSyntax

namespace Parse

/-! ## Looser levels -/

section
variable {d : Deeper} {e : Expr Span} {t t' : State}

/-- With what no primary starts: the operators of the levels between. -/
def prefixWords : List String := "await" :: UnaryOp.words.map UnaryOp.symbol

theorem keywordPrimary_starts (h : keywordPrimary d t = .ok e t') :
    t.current.value ∉ prefixWords := by
  have hmem : t.current.value ∈
      ["this", "super", "undefined", "NaN", "Infinity", "function", "async", "new"] := by
    simp only [keywordPrimary, peek_bind] at h
    split at h
    · next hv => simp [hv]
    split at h
    · next hv => simp [hv]
    split at h
    · next hv =>
      have hv : t.current.value ∈ globalNames := by simpa using hv
      simp only [globalNames, List.mem_cons, List.not_mem_nil, or_false] at hv
      rcases hv with hv | hv | hv <;> simp [hv]
    simp only [isFunctionNext_bind] at h
    split at h
    · next hf =>
      simp only [Bool.or_eq_true, Bool.and_eq_true] at hf
      rcases hf with hf | ⟨hf, -⟩ <;> simp [(Token.is_iff.1 hf).2]
    split at h
    · next hv => simp [hv]
    · exact absurd h unexpected_ne_ok
  have hapart : ∀ word ∈ ["this", "super", "undefined", "NaN", "Infinity", "function", "async",
      "new"], word ∉ prefixWords := by decide
  exact hapart _ hmem

theorem primary_starts (h : primary d t = .ok e t') : t.current.kind ≠ .operator ∧
    (t.current.kind = .keyword → t.current.value ∉ prefixWords) := by
  simp only [primary, peek_bind] at h
  cases hk : t.current.kind <;> simp only [hk] at h
  case operator => exact absurd h unexpected_ne_ok
  case keyword => exact ⟨by decide, fun _ => keywordPrimary_starts h⟩
  all_goals exact ⟨by decide, fun hkeyword => absurd hkeyword (by decide)⟩

theorem update_starts (h : update d t = .ok e t') :
    (t.current.kind = .operator → t.current.value = "++" ∨ t.current.value = "--") ∧
      (t.current.kind = .keyword → t.current.value ∉ prefixWords) := by
  simp only [update, peek_bind, bind_eq_ok] at h
  obtain ⟨x, s₁, hop, h⟩ := h
  obtain ⟨rfl, rfl⟩ | ⟨op, rfl, -, -, hk, hv⟩ := acceptOneOf_reads (by decide) hop
  · simp only [bind_eq_ok] at h
    obtain ⟨e₀, s₂, hchain, -⟩ := h
    simp only [chain, peek_bind, bind_eq_ok] at hchain
    obtain ⟨e₁, s₃, hprimary, -⟩ := hchain
    have hstarts := primary_starts hprimary
    exact ⟨fun hk => absurd hk hstarts.1, hstarts.2⟩
  · refine ⟨fun _ => ?_, fun hkeyword => absurd (hk.symm.trans hkeyword) (by decide)⟩
    cases op <;> simp [show t.current.value = _ from hv, UpdateOp.symbol]

theorem acceptAwait_of_update (h : update d t = .ok e t') :
    acceptKeyword "await" t = .ok false t := by
  have hawait : ¬ t.current.is .keyword "await" := fun hawait => by
    obtain ⟨hk, hv⟩ := Token.is_iff.1 hawait
    exact (update_starts h).2 hk (by simp [prefixWords, hv])
  rw [acceptKeyword, accept, isNext_bind, if_neg hawait]
  rfl

theorem acceptUnaryOp_of_update (h : update d t = .ok e t') : acceptUnaryOp t = .ok none t := by
  obtain ⟨hoperator, hkeyword⟩ := update_starts h
  have hmarks : chosen .operator UnaryOp.symbol UnaryOp.marks t.current = none := by
    unfold chosen
    split
    · next hk => rcases hoperator hk with hv | hv <;> rw [hv] <;> decide
    · rfl
  have hwords : chosen .keyword UnaryOp.symbol UnaryOp.words t.current = none := by
    unfold chosen
    split
    · next hk =>
      refine List.find?_eq_none.2 fun op hop heq => hkeyword hk ?_
      rw [← beq_iff_eq.1 heq]
      exact List.mem_cons_of_mem _ (List.mem_map_of_mem (List.mem_append_left _ hop))
    · rfl
  rw [acceptUnaryOp, bind_of_ok (acceptOneOf_of_none hmarks)]
  exact acceptOneOf_of_none hwords

section
variable (hsemi : t'.current.isPunctuation ";")
include hsemi

theorem chain_of_primary (h : primary d t = .ok e t') : chain d t = .ok e t' := by
  rw [chain, peek_bind, bind_of_ok h]
  exact Steps.refl.iterate_eq_ok (Alignment.chainLink?_of_semicolon hsemi)

theorem update_of_chain (h : chain d t = .ok e t') : update d t = .ok e t' := by
  have hstarts : t.current.kind ≠ .operator := by
    simp only [chain, peek_bind, bind_eq_ok] at h
    obtain ⟨e₀, s₁, hprimary, -⟩ := h
    exact (primary_starts hprimary).1
  have hop : chosen .operator UpdateOp.symbol UpdateOp.all t.current = none := if_neg hstarts
  rw [update, peek_bind, bind_of_ok (acceptOneOf_of_none hop)]
  exact (bind_of_ok h).trans (Alignment.postfixUpdate_of_semicolon hsemi)

omit hsemi in
theorem unary_of_update (h : update d t = .ok e t') : unary d t = .ok e t' := by
  rw [unary, peek_bind, bind_of_ok (acceptAwait_of_update h)]
  exact (bind_of_ok (acceptUnaryOp_of_update h)).trans h

theorem leftAssociative_of_operand {γ : Type} {symbol : γ → String} {ops : List γ}
    {build : γ → Expr Span → Expr Span → Span → Expr Span} {operand : ParseM (Expr Span)}
    (h : operand t = .ok e t') :
    leftAssociative (acceptOneOf .operator symbol ops) build operand t = .ok e t' := by
  rw [leftAssociative, peek_bind, bind_of_ok h]
  exact Steps.refl.iterate_eq_ok (Alignment.operation?_of_semicolon hsemi)

theorem conditional_of_logicalOr (h : logicalOr d t = .ok e t') : conditional d t = .ok e t' := by
  rw [conditional, peek_bind, bind_of_ok h]
  exact bind_of_ok ((Alignment.acceptOperator_closes "?").semicolon hsemi)

theorem assignment_of_conditional (h : conditional d t = .ok e t') :
    assignment d t = .ok e t' := by
  rw [assignment, peek_bind, bind_of_ok h]
  exact bind_of_ok ((Alignment.acceptOneOf_closes (by decide) (by decide) _ _).semicolon hsemi)

theorem assignment_of_logicalOr (h : logicalOr d t = .ok e t') : assignment d t = .ok e t' :=
  assignment_of_conditional hsemi (conditional_of_logicalOr hsemi h)

theorem assignment_of_logicalAnd (h : logicalAnd d t = .ok e t') : assignment d t = .ok e t' :=
  assignment_of_logicalOr hsemi (leftAssociative_of_operand hsemi h)

theorem assignment_of_equality (h : equality d t = .ok e t') : assignment d t = .ok e t' :=
  assignment_of_logicalAnd hsemi (leftAssociative_of_operand hsemi h)

theorem assignment_of_comparison (h : comparison d t = .ok e t') : assignment d t = .ok e t' :=
  assignment_of_equality hsemi (leftAssociative_of_operand hsemi h)

theorem assignment_of_additive (h : additive d t = .ok e t') : assignment d t = .ok e t' :=
  assignment_of_comparison hsemi (leftAssociative_of_operand hsemi h)

theorem assignment_of_multiplicative (h : multiplicative d t = .ok e t') :
    assignment d t = .ok e t' :=
  assignment_of_additive hsemi (leftAssociative_of_operand hsemi h)

theorem assignment_of_unary (h : unary d t = .ok e t') : assignment d t = .ok e t' :=
  assignment_of_multiplicative hsemi (leftAssociative_of_operand hsemi h)

theorem assignment_of_update (h : update d t = .ok e t') : assignment d t = .ok e t' :=
  assignment_of_unary hsemi (unary_of_update h)

theorem assignment_of_chain (h : chain d t = .ok e t') : assignment d t = .ok e t' :=
  assignment_of_update hsemi (update_of_chain hsemi h)

theorem assignment_of_primary (h : primary d t = .ok e t') : assignment d t = .ok e t' :=
  assignment_of_chain hsemi (chain_of_primary hsemi h)

end

end

/-! ## Where a semicolon follows -/

/-- Wherever a semicolon follows the tokens from `s` to `s'`, the routine `m` reads just these and
gives what corresponds to `e`. -/
def Recurs (m : ParseM (Expr Span)) (e : Expr Span) (s s' : State) : Prop :=
  ∀ (A : Alignment Unit) [A.Ends .whole], (∀ sp, A.excused (Fault.nestingTooDeep.report sp)) →
    ∀ {t : State}, A.Along s t → A.At .inside s → A.At .whole s' → ¬ A.At .inside s' →
      ∃ e' t', m t = .ok e' t' ∧ A.Alike Expr.map e e' ∧ A.Along s' t'

namespace Recurs

variable {m m' : ParseM (Expr Span)} {e : Expr Span} {s s' : State}

theorem of_follows (h : m s = .ok e s')
    (hm : ∀ {A : Alignment Unit} [A.Ends .whole],
      (∀ sp, A.excused (Fault.nestingTooDeep.report sp)) →
      A.Follows .inside .whole (fun _ _ => True) (A.Alike Expr.map) m m') : Recurs m' e s s' := by
  intro A _ hex t ht hin hwhole _
  have hagree := hm hex ht hin trivial
  rw [h] at hagree
  obtain ⟨e', t', h', he, ht', -⟩ := hagree hwhole
  exact ⟨e', t', h', he, ht'⟩

/-- A looser level reads the same in front of the semicolon. -/
theorem looser (h : Recurs m e s s')
    (hm : ∀ {e t t'}, t'.current.isPunctuation ";" → m t = .ok e t' → m' t = .ok e t') :
    Recurs m' e s s' := by
  intro A _ hex t ht hin hwhole hend
  obtain ⟨e', t', h', he, ht'⟩ := h A hex ht hin hwhole hend
  exact ⟨e', t', hm (ht'.semicolon hend) h', he, ht'⟩

end Recurs

/-! ## What the levels read -/

/-- The routines of `d'` do what those of `d` do, however the tokens of the two are laid side by
side, but where the nesting is too deep for `d`. -/
def Deeper.Repeats (d' d : Deeper) : Prop :=
  ∀ ⦃A : Alignment Unit⦄, (∀ sp, A.excused (Fault.nestingTooDeep.report sp)) → A.Deepens d d'

theorem level_repeats {n n' : Nat} (h : n ≤ n') : (level n').Repeats (level n) :=
  fun _ hex => Alignment.level_deepens (.inr ⟨h, hex⟩)

section
variable {d d' : Deeper} [d.Regular] (hd : d'.Repeats d) {e : Expr Span} {s s' : State}
include hd

theorem assignment_recurs (h : assignment d s = .ok e s') : Recurs (assignment d') e s s' :=
  .of_follows h fun hex => Alignment.assignment_follows (hd hex)

theorem conditional_recurs (h : conditional d s = .ok e s') : Recurs (assignment d') e s s' :=
  (Recurs.of_follows h fun hex => Alignment.conditional_follows (hd hex)).looser
    assignment_of_conditional

theorem unary_recurs (h : unary d s = .ok e s') : Recurs (assignment d') e s s' :=
  (Recurs.of_follows h fun hex => Alignment.unary_follows (hd hex)).looser assignment_of_unary

theorem update_recurs (h : update d s = .ok e s') : Recurs (assignment d') e s s' :=
  (Recurs.of_follows h fun hex => Alignment.update_follows (hd hex)).looser assignment_of_update

theorem primary_recurs (h : primary d s = .ok e s') : Recurs (assignment d') e s s' :=
  (Recurs.of_follows h fun hex => Alignment.primary_follows (hd hex)).looser assignment_of_primary

/-- A primary with some of the calls and accesses behind it. -/
theorem chain_recurs {first : Expr Span} {s₁ : State} (hfirst : primary d s = .ok first s₁)
    (hsteps : Steps (chainLink? d s.current.span) first s₁ e s') :
    Recurs (assignment d') e s s' := by
  refine Recurs.looser (m := chain d') ?_ assignment_of_chain
  intro A _ hex t ht hin hwhole hend
  have hprimary : A.Agree .whole _ _ _ :=
    (Alignment.primary_follows (hd hex) : A.Follows .inside .whole (fun _ _ => True) _ _ _)
      ht hin trivial
  rw [hfirst] at hprimary
  obtain ⟨first', t₁, hfirst', hsame, ht₁, hl₁⟩ := hprimary (hwhole.of_le hsteps.le)
  have hstart := (ht.current hin).span
  obtain ⟨e', t', hsteps', he, ht', -⟩ := Alignment.steps_follow
    (fun hsame => Alignment.chainLink?_follows (hd hex) hstart hsame) hsteps ht₁ hl₁ hsame hwhole
  refine ⟨e', t', ?_, he, ht'⟩
  rw [chain, peek_bind, bind_of_ok hfirst']
  exact hsteps'.iterate_eq_ok (Alignment.chainLink?_of_semicolon (ht'.semicolon hend))

end

/-- Some operands of a level with the operators between them. -/
theorem operations_recur {γ : Type} {symbol : γ → String} {ops : List γ}
    {build : γ → Expr Span → Expr Span → Span → Expr Span} {operand operand' : ParseM (Expr Span)}
    [Moves operand] [Advances operand] {e first : Expr Span} {s s₁ s' : State}
    (hoperand : ∀ {A : Alignment Unit} [A.Ends .whole],
      (∀ sp, A.excused (Fault.nestingTooDeep.report sp)) →
      ∀ pre, A.Follows .inside .whole pre (A.Alike Expr.map) operand operand')
    (hbuild : ∀ {A : Alignment Unit} ⦃op left left' right right' sp sp'⦄,
      A.Alike Expr.map left left' → A.Alike Expr.map right right' → A.left sp = A.right sp' →
      A.Alike Expr.map (build op left right sp) (build op left' right' sp'))
    (hfirst : operand s = .ok first s₁)
    (hsteps : Steps (Alignment.operation? (acceptOneOf .operator symbol ops) build operand
      s.current.span) first s₁ e s') :
    Recurs (leftAssociative (acceptOneOf .operator symbol ops) build operand') e s s' := by
  intro A _ hex t ht hin hwhole hend
  have hagree := hoperand hex (fun _ _ => True) ht hin trivial
  rw [hfirst] at hagree
  obtain ⟨first', t₁, hfirst', hsame, ht₁, hl₁⟩ := hagree (hwhole.of_le hsteps.le)
  have hstart := (ht.current hin).span
  obtain ⟨e', t', hsteps', he, ht', -⟩ := Alignment.steps_follow
    (fun hsame => Alignment.operation?_follows (hoperand hex) hbuild hstart hsame)
    hsteps ht₁ hl₁ hsame hwhole
  refine ⟨e', t', ?_, he, ht'⟩
  rw [leftAssociative, peek_bind, bind_of_ok hfirst']
  exact hsteps'.iterate_eq_ok (Alignment.operation?_of_semicolon (ht'.semicolon hend))

/-! ## Stretches that stand alone -/

/-- The tokens `u`, wherever they are, are read as `e` when a semicolon is all that follows. -/
def Alone (d : Deeper) (u : List Token) (e : Expr Span) : Prop :=
  ∀ {t : State} {v : List Token} {semi : Token}, t.rest = v ++ [semi] →
    v.map Token.phrase = u.map Token.phrase → semi.isPunctuation ";" →
    ∃ e' t', assignment d t = .ok e' t' ∧ t'.rest = [semi] ∧ e'.erase = e.erase

theorem Recurs.alone {d : Deeper} {e : Expr Span} {s s' : State} {u : List Token}
    (h : Recurs (assignment d) e s s') (hu : s.Reads u s') (hne : u ≠ []) : Alone d u e := by
  intro t v semi hrest hv hsemi
  have hnot : ∀ x ∈ [semi].head?, ¬ x.isKeyword "else" := by
    rintro x ⟨⟩ hx
    exact absurd ((Token.is_iff.1 hsemi).1.symm.trans (Token.is_iff.1 hx).1) nofun
  let A : Alignment Unit := .forked (fun _ => ()) (fun _ => ()) s'.rest [semi]
    (fun e => e.message = Fault.nestingTooDeep.message) (fun _ _ => rfl) hnot
  have hstopped : A.Stopped := ⟨semi, rfl, hsemi⟩
  have : A.Ends .whole := ⟨fun _ => .inr hstopped⟩
  have ht : A.Along s t := by
    refine ⟨?_, False.elim⟩
    rw [hu.rest, hrest]
    exact .of_same (same_of_phrases hv.symm) (.inr (.inl hstopped))
  have hend : ¬ A.At .inside s' := by
    rintro (hj | hlt)
    · exact hj
    · exact Nat.lt_irrefl _ hlt
  obtain ⟨e', t', hok, he, ht'⟩ := h A (fun _ => rfl) ht (.inr (hu.lt_of_ne_nil hne))
    (.inr (Nat.le_refl _)) hend
  exact ⟨e', t', hok, (ht'.edge hend).2, he.symm⟩

end Parse

end JsSyntax
