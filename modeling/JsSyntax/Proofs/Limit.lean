import JsSyntax.Proofs.Layout

/-! # The limit on nesting

A greater limit on nesting makes no difference to a source that keeps within the smaller one: as
long as nothing fails for being nested too deeply, the runs under the two limits go through the same
states, failures and recoveries included (`parseWith_of_le`).
-/

set_option autoImplicit false

namespace JsSyntax

namespace Parse

/-- The same token list twice. The run on the left may fail for its nesting alone. -/
def sameTokens : Alignment Span :=
  { Alignment.full id id fun ha hb => congrArg₂ Span.through ha hb with
    excused := fun e => e.message = Fault.nestingTooDeep.message }

theorem sameTokens_aligned (ts : List Token) : sameTokens.Aligned ts ts := by
  have hsame : List.Forall₂ sameTokens.Same ts ts :=
    List.forall₂_same.2 fun _ _ => ⟨rfl, rfl, rfl⟩
  have haligned := Alignment.Aligned.of_same hsame (.inl trivial)
  simpa [sameTokens, Alignment.full] using haligned

theorem sameTokens_deepens {limit limit' : Nat} (h : limit ≤ limit') :
    sameTokens.Deepens (level limit) (level limit') :=
  Alignment.level_deepens (.inr ⟨h, fun _ => rfl⟩)

theorem eq_of_sameTokens {st st' : Statement Span} (h : sameTokens.Alike Statement.map st st') :
    st = st' := by
  have h : st.map id = st'.map id := h
  rwa [Statement.map_id, Statement.map_id] at h

theorem eq_of_report {e e' : Diagnostic} (h : sameTokens.Report e e') : e = e' := by
  obtain ⟨fault, sp, sp', hsp, rfl, rfl⟩ := h
  obtain rfl : sp = sp' := hsp
  rfl

/-- A run under a limit is a run under a greater one, if no stretch is nested too deeply. -/
theorem Runs.deepen {limit limit' : Nat} (hle : limit ≤ limit') {s s₁ : State} {os : List Outcome}
    (h : Runs (level limit) s os s₁)
    (hshallow : ∀ e ∈ os.filterMap errorOf?, e.message ≠ Fault.nestingTooDeep.message)
    {s' : State} (hs : sameTokens.Along s s') : ∃ s₁', Runs (level limit') s' os s₁' := by
  have hd := sameTokens_deepens hle
  have hlength : ∀ {s s'}, sameTokens.Along s s' → s.rest.length = s'.rest.length :=
    fun h => h.aligned.length
  have hnil : ∀ {s s'}, sameTokens.Along s s' → (s.rest = [] ↔ s'.rest = []) := fun h => by
    rw [← List.length_eq_zero_iff, ← List.length_eq_zero_iff, hlength h]
  induction h generalizing s' with
  | done hrest => exact ⟨s', .done ((hnil hs).1 hrest)⟩
  | statement hne hok _ ih =>
    obtain ⟨st', s₁', hok', hst, hs₁⟩ := Alignment.statement_ok hd rfl hs hne hok
    obtain rfl := eq_of_sameTokens hst
    obtain ⟨s₂', hruns⟩ := ih hshallow hs₁
    exact ⟨s₂', .statement (mt (hnil hs).2 hne) hok' hruns⟩
  | @failure s s₁ _ e os hne herror _ ih =>
    have hlater : ∀ e ∈ os.filterMap errorOf?, e.message ≠ Fault.nestingTooDeep.message :=
      fun x hx => hshallow x (List.mem_cons_of_mem e hx)
    obtain ⟨e', s₁', herror', he, hs₁⟩ := Alignment.statement_error hd rfl hs hne herror
      (.inl trivial) (hshallow e List.mem_cons_self)
    obtain rfl := eq_of_report he
    obtain ⟨s₂', hruns⟩ := ih hlater (hs₁.afterFailure rfl (.inl trivial) (.inl trivial))
    exact ⟨s₂', .failure (mt (hnil hs).2 hne) herror' hruns⟩

/-- Where a run ends, it has read the last token, whatever the limit. -/
theorem Runs.last_eq {d d' : Deeper} [d.Regular] [d'.Regular] {s s₁ s₁' : State}
    {os os' : List Outcome} (h : Runs d s os s₁) (h' : Runs d' s os' s₁') : s₁.last = s₁'.last := by
  rw [h.reads.1.last, h'.reads.1.last]

end Parse

open Parse

/-- A source of which no part is nested too deeply under a limit has the same program under every
greater limit. -/
theorem parseWith_of_le {limit limit' : Nat} {source : String} (hle : limit ≤ limit')
    (hshallow : ∀ e ∈ (parseWith limit source).errors,
      e.message ≠ Fault.nestingTooDeep.message) :
    parseWith limit' source = parseWith limit source := by
  obtain ⟨os, s, hruns, hparse⟩ := parseWith_runs limit source
  obtain ⟨os', s', hruns', hparse'⟩ := parseWith_runs limit' source
  rw [hparse] at hshallow
  have hs : sameTokens.Along (startOf source) (startOf source) :=
    ⟨sameTokens_aligned _, fun _ => rfl⟩
  obtain ⟨s₁, hdeep⟩ := hruns.deepen hle hshallow hs
  obtain ⟨rfl, rfl⟩ := hruns'.unique hdeep
  rw [hparse, hparse', State.spanFrom, State.spanFrom, hruns.last_eq hruns']

/-- Parentheses in parentheses keep within a limit of four, and what fails behind them does. -/
theorem parseWith_of_le_parentheses : (parseWith 4 "((x)) y; z;").errors ≠ [] ∧
    (∀ e ∈ (parseWith 4 "((x)) y; z;").errors, e.message ≠ Fault.nestingTooDeep.message) ∧
    parse "((x)) y; z;" = parseWith 4 "((x)) y; z;" :=
  have hshallow : ∀ e ∈ (parseWith 4 "((x)) y; z;").errors,
      e.message ≠ Fault.nestingTooDeep.message := by decide +kernel
  ⟨by decide +kernel, hshallow, parseWith_of_le (by decide) hshallow⟩

/-- Under a limit of three they are nested too deeply. -/
example : ∃ e ∈ (parseWith 3 "((x)) y; z;").errors, e.message = Fault.nestingTooDeep.message := by
  decide +kernel

end JsSyntax
