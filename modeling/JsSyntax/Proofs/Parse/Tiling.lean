import JsSyntax.Proofs.Sound.Program

/-! # The stretches at the top level

The tokens of a source are divided into segments that follow one another without a gap, one segment
for each statement and one for each error (`parse_tiles`). The segment of a statement is what its
span covers. The segment of an error goes on, behind the token that was ahead at the failure, to
the first boundary: behind a semicolon, in front of a statement keyword, or at the end.
-/

set_option autoImplicit false

namespace JsSyntax

open Grammar

namespace Parse

/-! ## Boundaries in a list of tokens -/

/-- Skipping ends at the end, behind a semicolon or in front of a statement keyword. -/
theorem skipped_stops (last : Token) (rest : List Token) : ∃ u v, skipped last rest = u ∧
    rest = u ++ v ∧ (v = [] ∨ (∃ t, (last :: u).getLast? = some t ∧ t.isPunctuation ";") ∨
      ∃ t, v.head? = some t ∧ startsStatement t) := by
  induction rest generalizing last with
  | nil => exact ⟨[], [], rfl, rfl, .inl rfl⟩
  | cons t rest ih =>
    rw [skipped]
    split
    · rename_i h
      refine ⟨[], t :: rest, rfl, rfl, .inr ?_⟩
      rcases Bool.or_eq_true_iff.1 h with h | h
      · exact .inl ⟨last, rfl, h⟩
      · exact .inr ⟨t, rfl, h⟩
    · obtain ⟨u, v, hu, hrest, h⟩ := ih t
      refine ⟨t :: u, v, by rw [hu], by rw [hrest, List.cons_append], ?_⟩
      rwa [List.getLast?_cons_cons]

/-- Within what is skipped there is neither. -/
theorem skipped_goes_on {last t x : Token} {rest u v : List Token}
    (h : skipped last rest = u ++ x :: v) (ht : (last :: u).getLast? = some t) :
    ¬ t.isPunctuation ";" ∧ ¬ startsStatement x := by
  induction rest generalizing last u with
  | nil => simp [skipped] at h
  | cons y rest ih =>
    rw [skipped] at h
    split at h
    · simp at h
    · rename_i hstop
      cases u with
      | nil =>
        obtain ⟨rfl, -⟩ := List.cons.inj h
        obtain rfl : last = t := by simpa using ht
        simpa [not_or] using hstop
      | cons z u =>
        obtain ⟨rfl, hrest⟩ := List.cons.inj h
        rw [List.getLast?_cons_cons] at ht
        exact ih hrest ht

/-! ## Boundaries in a source -/

section
variable (source : String)

/-- The number of tokens in front of the closing one. -/
def tokenCount : Nat := (significant source).length - 1

/-- Parsing may go on in front of token `j`. -/
def Boundary (j : Nat) : Prop :=
  j = tokenCount source ∨
    (∃ t, (significant source)[j - 1]? = some t ∧ t.isPunctuation ";") ∨
    ∃ t, (significant source)[j]? = some t ∧ startsStatement t

/-- After a failure in front of token `e`, parsing goes on in front of token `j`: at the first
boundary behind the token `e`, or at the end if the failure was there. -/
def Resumes (e j : Nat) : Prop :=
  if e = tokenCount source then j = e
  else (e + 1 ≤ j ∧ j ≤ tokenCount source ∧ Boundary source j) ∧
    ∀ i, e + 1 ≤ i → i < j → ¬ Boundary source i

/-- The state is in front of token `i`. -/
def StandsAt (s : State) (i : Nat) : Prop :=
  i ≤ tokenCount source ∧ s.rest = (startOf source).rest.drop i ∧
    s.stop = (startOf source).stop

/-- The outcome of the tokens from `i` up to `j`. A statement covers them; an error was raised in
front of some token `e`. -/
def Segment (i : Nat) (o : Outcome) (j : Nat) : Prop :=
  ∃ s, StandsAt source s i ∧ match o with
  | .ok st => ∃ s' first last, (level nestingLimit).statement s = .ok st s' ∧
      StandsAt source s' j ∧ (significant source)[i]? = some first ∧
      (significant source)[j - 1]? = some last ∧ st.span = ⟨first.span.start, last.span.stop⟩
  | .error e => ∃ s' k, (level nestingLimit).statement s = .error e s' ∧ StandsAt source s' k ∧
      i ≤ k ∧ Resumes source k j

/-- The segments between the bounds have the outcomes, one each, from the token `i` to the end. -/
structure Tiles (i : Nat) (bounds : Nat → Nat) (os : List Outcome) : Prop where
  first : bounds 0 = i
  last : bounds os.length = tokenCount source
  lt : ∀ m < os.length, bounds m < bounds (m + 1)
  segment : ∀ m (h : m < os.length), Segment source (bounds m) os[m] (bounds (m + 1))

variable {source}

theorem length_rest : (startOf source).rest.length = tokenCount source := by
  rw [tokenCount, significant_eq]
  simp

theorem significant_get {i : Nat} (h : i < tokenCount source) :
    (significant source)[i]? = (startOf source).rest[i]? := by
  rw [significant_eq, List.getElem?_append_left (by rwa [length_rest])]

theorem StandsAt.length {s : State} {i : Nat} (hs : StandsAt source s i) :
    i + s.rest.length = tokenCount source := by
  have hi := hs.1
  rw [hs.2.1, List.length_drop, length_rest]
  omega

/-- The tokens behind `u`, when `u` starts at `i`. -/
theorem StandsAt.reads {s s' : State} {u : List Token} {i : Nat} (hs : StandsAt source s i)
    (hu : s.Reads u s') : StandsAt source s' (i + u.length) := by
  obtain ⟨hi, hrest, hstop⟩ := hs
  have hlen := congrArg List.length (hrest.symm.trans hu.rest)
  rw [List.length_drop, length_rest, List.length_append] at hlen
  refine ⟨by omega, ?_, hu.stop.trans hstop⟩
  rw [← List.drop_drop, ← hrest, hu.rest, List.drop_left]

theorem StandsAt.get {s s' : State} {u : List Token} {i m : Nat} (hs : StandsAt source s i)
    (hu : s.Reads u s') (hm : m < u.length) : (significant source)[i + m]? = u[m]? := by
  have := (hs.reads hu).1
  rw [significant_get (by omega), ← List.getElem?_drop, ← hs.2.1, hu.rest,
    List.getElem?_append_left hm]

/-! ## One segment -/

theorem Segment.statement {s s' : State} {u : List Token} {st : Statement Span} {i : Nat}
    (hs : StandsAt source s i) (h : (level nestingLimit).statement s = .ok st s')
    (hu : s.Reads u s') (hne : u ≠ []) (hst : Derives Reading.spanned .statement u st) :
    Segment source i (.ok st) (i + u.length) := by
  obtain ⟨first, last, hf, hl, hspan⟩ := statement_covers hst
  have hpos := List.length_pos_iff.2 hne
  have ho : Ordered u := by
    refine (ordered_startOf source).sublist ?_
    have hsub : u.Sublist s.rest := hu.rest ▸ List.sublist_append_left u s'.rest
    exact hsub.trans (hs.2.1 ▸ List.drop_sublist i _)
  refine ⟨s, hs, s', first, last, h, hs.reads hu, ?_, ?_, hspan.trans (ho.through hf hl)⟩
  · have := hs.get hu hpos
    rw [Nat.add_zero] at this
    rw [this, ← List.head?_eq_getElem?, hf]
  · have := hs.get hu (Nat.sub_one_lt (by omega))
    rw [show i + u.length - 1 = i + (u.length - 1) by omega, this, ← List.getLast?_eq_getElem?, hl]

/-- Behind a semicolon, in front of a statement keyword and at the end there is a boundary. -/
theorem boundary_of_reads {s s' : State} {u : List Token} {k : Nat} (hs : StandsAt source s k)
    (hr : s.Reads u s') (hne : u ≠ [])
    (h : s'.rest = [] ∨ (∃ x, u.getLast? = some x ∧ x.isPunctuation ";") ∨
      ∃ x, s'.rest.head? = some x ∧ startsStatement x) : Boundary source (k + u.length) := by
  have hend := hs.reads hr
  have hlength := hend.length
  have hpos := List.length_pos_iff.2 hne
  rcases h with hnil | ⟨x, hx, hsemi⟩ | ⟨x, hx, hstart⟩
  · rw [hnil, List.length_nil] at hlength
    exact .inl hlength
  · refine .inr (.inl ⟨x, ?_, hsemi⟩)
    rw [Nat.add_sub_assoc hpos, hs.get hr (Nat.sub_one_lt (Nat.ne_of_gt hpos)),
      ← List.getLast?_eq_getElem?, hx]
  · refine .inr (.inr ⟨x, ?_, hstart⟩)
    obtain ⟨rest, hrest⟩ := List.head?_eq_some_iff.1 hx
    rw [hrest, List.length_cons] at hlength
    rw [significant_get (by omega), ← Nat.add_zero (k + _), ← List.getElem?_drop, ← hend.2.1,
      ← List.head?_eq_getElem?, hx]

/-- There is none between the tokens that are skipped. -/
theorem not_boundary_of_skipped {s s' : State} {t : Token} {rest : List Token} {k m : Nat}
    (hs : StandsAt source s k) (hr : s.Reads (t :: skipped t rest) s')
    (hm : m < (skipped t rest).length) : ¬ Boundary source (k + (m + 1)) := by
  have hsplit : skipped t rest =
      (skipped t rest).take m ++ (skipped t rest)[m] :: (skipped t rest).drop (m + 1) := by
    rw [List.getElem_cons_drop, List.take_append_drop]
  have hlast : (t :: (skipped t rest).take m).getLast? = (t :: skipped t rest)[m]? := by
    rw [← List.take_succ_cons, List.getLast?_eq_getElem?, List.length_take, List.length_cons,
      Nat.min_eq_left (by omega), Nat.add_sub_cancel,
      List.getElem?_take_of_lt (Nat.lt_succ_self m)]
  have hlen := (hs.reads hr).1
  rw [List.length_cons] at hlen
  rintro (hend | ⟨x, hx, hsemi⟩ | ⟨x, hx, hstart⟩)
  · omega
  · rw [← Nat.add_assoc, Nat.add_sub_cancel, hs.get hr (by simp; omega), ← hlast] at hx
    exact (skipped_goes_on hsplit hx).1 hsemi
  · rw [hs.get hr (by simp; omega), List.getElem?_cons_succ, List.getElem?_eq_getElem hm] at hx
    obtain rfl := Option.some.inj hx
    have hbefore := hlast.trans (List.getElem?_eq_getElem (by simp; omega))
    exact (skipped_goes_on hsplit hbefore).2 hstart

/-- Recovery goes on at the first boundary. -/
theorem resumes_passed {s s' : State} {k : Nat} (hs : StandsAt source s k)
    (hr : s.Reads (passed s.rest) s') : Resumes source k (k + (passed s.rest).length) := by
  have hend := hs.reads hr
  have hlength := hs.length
  unfold Resumes
  split
  · next hk =>
    have := hend.1
    omega
  · next hk =>
    cases hrest : s.rest with
    | nil =>
      rw [hrest, List.length_nil] at hlength
      exact absurd hlength hk
    | cons t rest =>
      rw [hrest] at hend hr
      obtain ⟨u, v, rfl, hv, hstop⟩ := skipped_stops t rest
      have hp : passed (t :: rest) = t :: skipped t rest := by rw [passed]
      rw [hp] at hend hr ⊢
      have hv' : s'.rest = v := by
        have hread := hr.rest
        rw [hrest, List.cons_append] at hread
        exact (List.append_cancel_left (hv.symm.trans (List.cons.inj hread).2)).symm
      refine ⟨⟨by simp, hend.1, ?_⟩, fun i hi hij => ?_⟩
      · exact boundary_of_reads hs hr (List.cons_ne_nil _ _) (hv' ▸ hstop)
      · obtain ⟨m, rfl⟩ : ∃ m, i = k + (m + 1) := ⟨i - k - 1, by omega⟩
        rw [List.length_cons] at hij
        exact not_boundary_of_skipped hs hr (by omega)

/-- A failure and the recovery from it. -/
theorem Segment.failure {s s' : State} {u : List Token} {e : Diagnostic} {i : Nat}
    (hs : StandsAt source s i) (h : (level nestingLimit).statement s = .error e s')
    (hu : s.Reads u s') : Segment source i (.error e) (i + (u ++ passed s'.rest).length) := by
  have hresumes := resumes_passed (hs.reads hu) (afterFailure_reads s' e)
  rw [Nat.add_assoc, ← List.length_append] at hresumes
  exact ⟨s, hs, s', _, h, hs.reads hu, by omega, hresumes⟩

/-! ## All segments -/

theorem Tiles.nil {s : State} {i : Nat} (hs : StandsAt source s i) (hnil : s.rest = []) :
    Tiles source i (fun _ => i) [] := by
  have hlength := hs.length
  rw [hnil] at hlength
  exact ⟨rfl, hlength, by simp, by simp⟩

theorem Tiles.cons {i j : Nat} {bounds : Nat → Nat} {o : Outcome} {os : List Outcome}
    (hij : i < j) (ho : Segment source i o j) (h : Tiles source j bounds os) :
    Tiles source i (fun | 0 => i | m + 1 => bounds m) (o :: os) := by
  refine ⟨rfl, h.last, ?_, ?_⟩
  · intro m hm
    cases m with
    | zero =>
      show i < bounds 0
      rwa [h.first]
    | succ m => exact h.lt m (Nat.lt_of_succ_lt_succ hm)
  · intro m hm
    cases m with
    | zero =>
      show Segment source i o (bounds 0)
      rwa [h.first]
    | succ m => exact h.segment m (Nat.lt_of_succ_lt_succ hm)

/-- A run divides the tokens ahead into segments. -/
theorem Runs.tiles {s s' : State} {os : List Outcome} {i : Nat}
    (h : Runs (level nestingLimit) s os s') (hs : StandsAt source s i) :
    ∃ bounds, Tiles source i bounds os := by
  induction h generalizing i with
  | done hnil => exact ⟨_, .nil hs hnil⟩
  | statement _ hok _ ih =>
    obtain ⟨u, hu, hne, hst⟩ := statement_reads hok
    obtain ⟨bounds, htiles⟩ := ih (hs.reads hu)
    have := List.length_pos_iff.2 hne
    exact ⟨_, htiles.cons (by omega) (.statement hs hok hu hne hst)⟩
  | @failure s s' _ e _ hne herror _ ih =>
    obtain ⟨u, hu, hr, hne⟩ := failure_reads hne herror
    obtain ⟨bounds, htiles⟩ := ih (hs.reads hr)
    have := List.length_pos_iff.2 hne
    exact ⟨_, htiles.cons (by omega) (.failure hs herror hu)⟩

/-! ## Tokens and segments -/

section
variable {i : Nat} {bounds : Nat → Nat} {os : List Outcome} (h : Tiles source i bounds os)
include h

theorem Tiles.le {a b : Nat} (hab : a ≤ b) (hb : b ≤ os.length) : bounds a ≤ bounds b := by
  induction hab with
  | refl => exact Nat.le_refl _
  | @step b _ ih => exact Nat.le_trans (ih (by omega)) (Nat.le_of_lt (h.lt b (by omega)))

/-- A token lies in one segment only. -/
theorem Tiles.unique {x m m' : Nat} (hm : m < os.length) (hx : bounds m ≤ x ∧ x < bounds (m + 1))
    (hm' : m' < os.length) (hx' : bounds m' ≤ x ∧ x < bounds (m' + 1)) : m' = m := by
  rcases Nat.lt_trichotomy m m' with hlt | heq | hlt
  · have := h.le (show m + 1 ≤ m' from hlt) (Nat.le_of_lt hm')
    omega
  · exact heq.symm
  · have := h.le (show m' + 1 ≤ m from hlt) (Nat.le_of_lt hm)
    omega

/-- Every token lies in a segment. -/
theorem Tiles.exists {x : Nat} (hi : i ≤ x) (hx : x < tokenCount source) :
    ∃ m < os.length, bounds m ≤ x ∧ x < bounds (m + 1) := by
  have key : ∀ k ≤ os.length, x < bounds k → ∃ m < k, bounds m ≤ x ∧ x < bounds (m + 1) := by
    intro k
    induction k with
    | zero =>
      intro _ hx
      have := h.first
      omega
    | succ k ih =>
      intro hk hx
      by_cases hlt : x < bounds k
      · obtain ⟨m, hm, hb⟩ := ih (by omega) hlt
        exact ⟨m, by omega, hb⟩
      · exact ⟨k, Nat.lt_succ_self k, by omega, hx⟩
  exact key os.length (Nat.le_refl _) (h.last ▸ hx)

/-- There is no error exactly if every token lies in the segment of a statement. -/
theorem Tiles.errors_eq_nil_iff : os.filterMap errorOf? = [] ↔
    ∀ x, i ≤ x → x < tokenCount source →
      ∃ m st, os[m]? = some (.ok st) ∧ bounds m ≤ x ∧ x < bounds (m + 1) := by
  rw [List.filterMap_eq_nil_iff]
  constructor
  · intro hnone x hi hx
    obtain ⟨m, hm, hb⟩ := h.exists hi hx
    cases ho : os[m] with
    | ok st => exact ⟨m, st, by rw [List.getElem?_eq_getElem hm, ho], hb⟩
    | error e => exact absurd (hnone os[m] (List.getElem_mem hm)) (by simp [ho, errorOf?])
  · intro hall o ho
    obtain ⟨m, hm, rfl⟩ := List.getElem_of_mem ho
    have hlt := h.lt m hm
    have hle := h.le (show m + 1 ≤ os.length from hm) (Nat.le_refl _)
    have hi := h.le (Nat.zero_le m) (Nat.le_of_lt hm)
    rw [h.first] at hi
    rw [h.last] at hle
    obtain ⟨m', st, hst, hb⟩ := hall (bounds m) hi (by omega)
    obtain ⟨hm', hst⟩ := List.getElem?_eq_some_iff.1 hst
    obtain rfl := h.unique hm ⟨Nat.le_refl _, hlt⟩ hm' hb
    rw [hst]
    rfl

end

end

/-! ## Programs -/

theorem length_filterMap_outcomes (os : List Outcome) :
    (os.filterMap statementOf?).length + (os.filterMap errorOf?).length = os.length := by
  induction os with
  | nil => rfl
  | cons o os ih =>
    cases o with
    | ok st =>
      simp only [List.filterMap_cons, statementOf?, errorOf?, List.length_cons]
      omega
    | error e =>
      simp only [List.filterMap_cons, statementOf?, errorOf?, List.length_cons]
      omega

/-- The span from the first token to the last, or the end of the source if there is none. -/
def SpansTokens (source : String) (s : Span) : Prop :=
  (tokenCount source = 0 → s = .point (Position.first.advanceBy source.toList)) ∧
    (tokenCount source ≠ 0 → ∃ first last, (significant source)[0]? = some first ∧
      (significant source)[tokenCount source - 1]? = some last ∧
      s = ⟨first.span.start, last.span.stop⟩)

theorem Runs.spansTokens {source : String} {d : Deeper} [d.Regular] {s : State}
    {os : List Outcome} (h : Runs d (startOf source) os s) :
    SpansTokens source (s.spanFrom (startOf source).current.span) := by
  obtain ⟨hr, -⟩ := h.reads
  have hlen : (startOf source).rest.length = tokenCount source := length_rest
  refine ⟨fun hn => ?_, fun hn => ?_⟩
  · have hnil := List.length_eq_zero_iff.1 (hlen.trans hn)
    have hlast : s.last = none := by
      rw [hr.last, hnil]
      rfl
    simp [State.spanFrom, hlast, State.current, hnil, State.closing, Token.eof, stop_startOf]
  · have hne : (startOf source).rest ≠ [] := fun hnil => hn (by rw [← hlen, hnil, List.length_nil])
    obtain ⟨first, last, hf, hl, hspan⟩ := hr.covers hne
    refine ⟨first, last, ?_, ?_, hspan.trans ((ordered_startOf source).through hf hl)⟩
    · rw [significant_get (by omega), ← List.head?_eq_getElem?, hf]
    · rw [significant_get (by omega), ← hlen, ← List.getLast?_eq_getElem?, hl]

/-- The tokens of a source are divided into segments, one for each statement and one for each
error, in order; every token lies in exactly one of them. -/
theorem parse_tiles (source : String) : ∃ bounds os, Tiles source 0 bounds os ∧
    (parse source).body = os.filterMap statementOf? ∧
    (parse source).errors = os.filterMap errorOf? ∧
    (parse source).body.length + (parse source).errors.length = os.length ∧
    (∀ x < tokenCount source, ∃ m < os.length, (bounds m ≤ x ∧ x < bounds (m + 1)) ∧
      ∀ m' < os.length, bounds m' ≤ x ∧ x < bounds (m' + 1) → m' = m) ∧
    ((parse source).errors = [] ↔ ∀ x < tokenCount source,
      ∃ m st, os[m]? = some (.ok st) ∧ bounds m ≤ x ∧ x < bounds (m + 1)) ∧
    SpansTokens source (parse source).span := by
  obtain ⟨os, s, hruns, hparse⟩ := parseWith_runs nestingLimit source
  have hstart : StandsAt source (startOf source) 0 := ⟨Nat.zero_le _, by rw [List.drop_zero], rfl⟩
  obtain ⟨bounds, htiles⟩ := hruns.tiles hstart
  refine ⟨bounds, os, htiles, ?_⟩
  rw [parse, hparse]
  refine ⟨rfl, rfl, length_filterMap_outcomes os, ?_, ?_, hruns.spansTokens⟩
  · intro x hx
    obtain ⟨m, hm, hb⟩ := htiles.exists (Nat.zero_le x) hx
    exact ⟨m, hm, hb, fun m' hm' hb' => htiles.unique hm hb hm' hb'⟩
  · simpa using htiles.errors_eq_nil_iff

end Parse

end JsSyntax
