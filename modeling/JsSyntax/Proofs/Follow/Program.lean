import Mathlib.Data.List.Forall2
import JsSyntax.Proofs.Follow.Statement
import JsSyntax.Proofs.Parse.Runs

/-! # Programs that follow each other

The steps of a run over the top level, when nothing stands behind the common stretch on the left: a
statement on the left is one on the right, and after a failure both sides go on at the same place,
if recovery on the left does not run into the end of the common stretch.
-/

set_option autoImplicit false

namespace JsSyntax

namespace Parse

namespace Alignment

variable {τ : Type} {A : Alignment τ}

variable (A) in
/-- The outcomes differ in their places only. -/
def SameOutcome : Outcome → Outcome → Prop
  | .ok st, .ok st' => A.Alike Statement.map st st'
  | .error e, .error e' => A.Report e e'
  | _, _ => False

/-! ## Lists side by side -/

/-- A stretch of tokens that differ in their places only is the common one, if nothing stands behind
it, or a semicolon on the right, or it ends with a fence. -/
theorem Aligned.of_same {u u' : List Token} (h : List.Forall₂ A.Same u u')
    (hlast : A.joined ∨ A.Stopped ∨ ∀ t ∈ u.getLast?, Fence t) :
    A.Aligned (u ++ A.leftRest) (u' ++ A.rightRest) := by
  induction h with
  | nil => exact .done
  | @cons t t' u u' ht _ ih =>
    refine .token ht (hlast.imp_right (.imp_right fun hfence hlength => ?_))
      (ih (hlast.imp_right (.imp_right fun hfence x hx => hfence x ?_)))
    · rw [List.append_eq, List.length_append] at hlength
      obtain rfl : u = [] := List.length_eq_zero_iff.1 (by omega)
      exact hfence t rfl
    · rw [List.getLast?_cons, Option.mem_def.1 hx]
      rfl

/-! ## Recovery -/

theorem startsStatement_eq {t t' : Token} (h : A.Same t t') :
    startsStatement t = startsStatement t' := by
  rw [startsStatement, startsStatement, h.kind, h.value]

/-- Both sides skip the same, if the common stretch ends with a semicolon or with both lists. -/
theorem Aligned.skipped {last last' : Token} {r r' : List Token} (hleft : A.leftRest = [])
    (h : A.Aligned r r') (hlast : A.Same last last')
    (hstop : A.joined ∨ ∀ t ∈ (last :: r).getLast?, t.isPunctuation ";") :
    A.Aligned (r.drop (skipped last r).length) (r'.drop (skipped last' r').length) := by
  induction h generalizing last last' with
  | done =>
    have hskip : Parse.skipped last' A.rightRest = [] := by
      rcases hstop with hj | hsemi
      · rw [A.rightRest_eq_nil hj]
        rfl
      · have hlast' : last'.isPunctuation ";" := by
          rw [Token.isPunctuation, ← is_eq hlast]
          exact hsemi last (by simp [hleft])
        cases A.rightRest with
        | nil => rfl
        | cons t rest => simp [Parse.skipped, hlast']
    rw [hskip, hleft]
    simpa [hleft] using Aligned.done (A := A)
  | @token t t' r r' ht hfence hr ih =>
    have hcond : (last.isPunctuation ";" || startsStatement t) =
        (last'.isPunctuation ";" || startsStatement t') := by
      rw [startsStatement_eq ht, Token.isPunctuation, Token.isPunctuation, is_eq hlast]
    rw [Parse.skipped, Parse.skipped, ← hcond]
    split
    · exact .token ht hfence hr
    · refine ih ht (hstop.imp_right fun h x hx => h x ?_)
      rwa [List.getLast?_cons_cons]

theorem Along.recover {s s' : State} (hleft : A.leftRest = []) (h : A.Along s s')
    (hin : A.At .inside s) (hstop : A.joined ∨ ∀ t ∈ s.rest.getLast?, t.isPunctuation ";") :
    A.Along (recover s) (recover s') := by
  obtain ⟨-, hr, hr'⟩ | ⟨t, t', r, r', hr, hr', ht, -, haligned⟩ := h.cases hin
  · refine ⟨?_, ?_⟩
    · simpa [Parse.recover, hr, hr'] using h.aligned
    · simpa [Parse.recover, hr, hr', State.closing] using h.closing
  · refine ⟨?_, ?_⟩
    · simpa [Parse.recover, hr, hr'] using haligned.skipped hleft ht (hr ▸ hstop)
    · simpa [Parse.recover, hr, hr', State.closing] using h.closing

theorem Along.afterFailure {s s' : State} {e e' : Diagnostic} (hleft : A.leftRest = [])
    (h : A.Along s s') (hin : A.At .inside s)
    (hstop : A.joined ∨ ∀ t ∈ s.rest.getLast?, t.isPunctuation ";") :
    A.Along (s.afterFailure e) (s'.afterFailure e') :=
  (h.withEvents _ _).recover hleft hin hstop

/-! ## Steps -/

theorem At.inside_of_ne_nil (hleft : A.leftRest = []) {s : State} (hne : s.rest ≠ []) :
    A.At .inside s := by
  refine .inr ?_
  rw [hleft]
  exact List.length_pos_iff.2 hne

theorem statement_agree {d d' : Deeper} (hd : A.Deepens d d') {s s' : State} (hs : A.Along s s')
    (hin : A.At .inside s) :
    A.Agree .whole (A.Alike Statement.map) (d.statement s) (d'.statement s') :=
  have h : A.Follows .inside .whole (fun _ _ => True) _ _ _ := hd.statement
  h hs hin trivial

section
variable {d d' : Deeper} (hd : A.Deepens d d') (hleft : A.leftRest = []) {s s' : State}
  (hs : A.Along s s') (hne : s.rest ≠ [])
include hd hleft hs hne

theorem statement_ok {s₁ : State} {st : Statement Span} (h : d.statement s = .ok st s₁) :
    ∃ st' s₁', d'.statement s' = .ok st' s₁' ∧ A.Alike Statement.map st st' ∧
      A.Along s₁ s₁' := by
  have hagree := statement_agree hd hs (At.inside_of_ne_nil hleft hne)
  rw [h] at hagree
  obtain ⟨st', s₁', h', hst, hs₁, -⟩ := hagree (.inr (by simp [hleft]))
  exact ⟨st', s₁', h', hst, hs₁⟩

theorem statement_error {s₁ : State} {e : Diagnostic} (h : d.statement s = .error e s₁)
    (hin : A.At .inside s₁) (he : ¬ A.excused e) :
    ∃ e' s₁', d'.statement s' = .error e' s₁' ∧ A.Report e e' ∧ A.Along s₁ s₁' := by
  have hagree := statement_agree hd hs (At.inside_of_ne_nil hleft hne)
  rw [h] at hagree
  exact hagree hin he

end

/-! ## Runs -/

variable (A) in
/-- No failure of the run, and no recovery from one, needs what stands behind the common stretch:
both lists end with it, or there is no failure, or the stretch ends with a semicolon and no failure
is reported at its end. -/
def Contained (s : State) (os : List Outcome) : Prop :=
  A.joined ∨ os.filterMap errorOf? = [] ∨
    (∀ t ∈ s.rest.getLast?, t.isPunctuation ";") ∧
      ∀ e ∈ os.filterMap errorOf?, e.location ≠ ⟨s.stop.line, s.stop.column⟩

theorem Contained.tail {s s₁ : State} {o : Outcome} {os : List Outcome} {u : List Token}
    (h : A.Contained s (o :: os)) (hu : s.Reads u s₁) : A.Contained s₁ os := by
  refine h.imp_right (Or.imp ?_ ?_)
  · rw [List.filterMap_cons]
    cases o with
    | ok st => exact id
    | error e => exact nofun
  · rintro ⟨hsemi, he⟩
    refine ⟨fun t ht => hsemi t ?_, fun e hmem => ?_⟩
    · rw [hu.rest, List.getLast?_append, Option.mem_def.1 ht, Option.some_or]
      rfl
    · rw [hu.stop]
      refine he e ?_
      rw [List.filterMap_cons]
      cases o with
      | ok st => exact hmem
      | error e => exact List.mem_cons_of_mem _ hmem

/-- The failure is not at the end of the common stretch. -/
theorem Contained.failure {d : Deeper} [hd : d.Regular] {s s₁ : State} {e : Diagnostic}
    {os : List Outcome} (hleft : A.leftRest = []) (h : A.Contained s (.error e :: os))
    (hne : s.rest ≠ []) (herror : d.statement s = .error e s₁) :
    A.At .inside s₁ ∧ (A.joined ∨ ∀ t ∈ s₁.rest.getLast?, t.isPunctuation ";") := by
  obtain ⟨u, hu⟩ := hd.statement.error herror
  rcases h with hj | hnone | ⟨hsemi, he⟩
  · exact ⟨.inl hj, .inl hj⟩
  · cases hnone
  refine ⟨At.inside_of_ne_nil hleft fun hnil => ?_, .inr fun t ht => hsemi t ?_⟩
  · rcases hd.statement.blames herror with hloc | ⟨t, hlast, hnot⟩
    · refine he e List.mem_cons_self (hloc.trans ?_)
      simp [State.current, hnil, State.closing, Token.eof, Span.point, Token.line, Token.column,
        hu.stop]
    · have hrest : s.rest = u := by rw [hu.rest, hnil, List.append_nil]
      have hu' : u ≠ [] := hrest ▸ hne
      rw [hu.last, List.getLast?_eq_some_getLast hu', Option.some_or] at hlast
      refine hnot (Token.is_iff.1 (hsemi t ?_))
      rw [hrest, List.getLast?_eq_some_getLast hu', Option.mem_def, hlast]
  · rw [hu.rest, List.getLast?_append, Option.mem_def.1 ht, Option.some_or]
    rfl

/-- A run over the common stretch on the right, and whatever comes behind it. -/
theorem runs_follow {d d' : Deeper} [hr : d.Regular] [d'.Regular] (hd : A.Deepens d d')
    (hleft : A.leftRest = []) (hex : ∀ e, ¬ A.excused e) {s s' s₁ : State} {os : List Outcome}
    (h : Runs d s os s₁) (hs : A.Along s s') (hc : A.Contained s os) :
    ∃ os' s₁', List.Forall₂ A.SameOutcome os os' ∧ A.Along s₁ s₁' ∧ (∃ u, s'.Reads u s₁') ∧
      ∀ {os₂ s₂}, Runs d' s₁' os₂ s₂ → Runs d' s' (os' ++ os₂) s₂ := by
  have hne' : ∀ {s s'}, A.Along s s' → s.rest ≠ [] → s'.rest ≠ [] := by
    intro s s' hs hne
    obtain ⟨-, hnil, -⟩ | ⟨t, t', r, r', -, hr', -⟩ := hs.cases (At.inside_of_ne_nil hleft hne)
    · exact absurd hnil hne
    · rw [hr']
      exact List.cons_ne_nil t' r'
  induction h generalizing s' with
  | done _ => exact ⟨[], s', .nil, hs, ⟨[], .refl s'⟩, id⟩
  | statement hne hok _ ih =>
    obtain ⟨st', s₁', hok', hst, hs₁⟩ := statement_ok hd hleft hs hne hok
    obtain ⟨u, hu, -⟩ := statement_reads hok
    obtain ⟨u', hu', -⟩ := statement_reads hok'
    obtain ⟨os', s₂', hos, hs₂, ⟨v, hv⟩, hruns⟩ := ih hs₁ (hc.tail hu)
    exact ⟨.ok st' :: os', s₂', .cons hst hos, hs₂, ⟨_, hu'.trans hv⟩,
      fun h => .statement (hne' hs hne) hok' (hruns h)⟩
  | @failure s s₁ _ e os hne herror _ ih =>
    obtain ⟨hin, hstop⟩ := hc.failure hleft hne herror
    obtain ⟨e', s₁', herror', he, hs₁⟩ := statement_error hd hleft hs hne herror hin (hex e)
    obtain ⟨u, -, hu, -⟩ := failure_reads hne herror
    obtain ⟨u', -, hu', -⟩ := failure_reads (hne' hs hne) herror'
    obtain ⟨os', s₂', hos, hs₂, ⟨v, hv⟩, hruns⟩ :=
      ih (hs₁.afterFailure hleft hin hstop) (hc.tail hu)
    exact ⟨.error e' :: os', s₂', .cons he hos, hs₂, ⟨_, hu'.trans hv⟩,
      fun h => .failure (hne' hs hne) herror' (hruns h)⟩

end Alignment

end Parse

end JsSyntax
