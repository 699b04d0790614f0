import JsSyntax.Proofs.Nested.Routines
import JsSyntax.Proofs.Reuse

/-! # What is logged

The records of a parse tell stretch by stretch what becomes of the source (`Recounts`). The routine
for statements says where it begins, at every depth, so that the records of a statement name the
statements in it in the order in which they stand in its tree (`level_announcing`); after a failure
what has been said stays said. So the program can be checked against the records
(`parse_recordsAgree`).
-/

set_option autoImplicit false

namespace JsSyntax

open Parse

/-- The records of parsing a source, at the most verbose level. -/
def parseRecords (source : String) : List LogRecord :=
  ((parseLog source).map Event.record).filter (·.level.shownAt (some .trace))

/-! ## What records say -/

/-- The record gives the place of the statement and its first token. -/
def Announces (source : String) (st : Statement Span) (r : LogRecord) : Prop :=
  ∃ t ∈ tokenize source, t.span.start = st.span.start ∧
    r = ⟨.trace, "hedwig::parser", "statement at " ++ toString st.span.start.line ++ ":" ++
      toString st.span.start.column ++ " starting with " ++ t.kind.name ++ " '" ++ t.value ++ "'"⟩

/-- The statement that should start with token `i` fails with `e` in front of token `k`. -/
def FailsAt (source : String) (i : Nat) (e : Diagnostic) (k : Nat) : Prop :=
  ∃ s s', StandsAt source s i ∧ (level nestingLimit).statement s = .error e s' ∧
    StandsAt source s' k

/-- The records of the stretches from token `i` to the end, which have the outcomes `os`. A
statement has left a record for each statement in it; a failure the error, and the number of tokens
from where it was raised up to the next stretch. -/
inductive Recounts (source : String) : Nat → List Outcome → List LogRecord → Prop where
  | done : Recounts source (tokenCount source) [] []
  | statement {i j : Nat} {st : Statement Span} {os : List Outcome} {traces rs : List LogRecord} :
      Segment source i (.ok st) j → List.Forall₂ (Announces source) st.statements traces →
      Recounts source j os rs → Recounts source i (.ok st :: os) (traces ++ rs)
  | failure {i j k : Nat} {e : Diagnostic} {os : List Outcome} {traces rs : List LogRecord} :
      FailsAt source i e k → Resumes source k j → (∀ r ∈ traces, r.level = .trace) →
      Recounts source j os rs → Recounts source i (.error e :: os)
        (traces ++ ⟨.error, "hedwig::parser", e.text⟩ ::
          ⟨.warn, "hedwig::parser",
            "recovered after skipping " ++ toString (j - k) ++ " token(s)"⟩ :: rs)

/-- Behind each error, and nowhere else, a recovery is recorded. -/
inductive Paired : List LogRecord → Prop where
  | nil : Paired []
  | other {r : LogRecord} {rs : List LogRecord} :
      r.level ≠ .error → r.level ≠ .warn → Paired rs → Paired (r :: rs)
  | failure {r r' : LogRecord} {rs : List LogRecord} :
      r.level = .error → r'.level = .warn → Paired rs → Paired (r :: r' :: rs)

/-- The records agree with the program of the source. -/
structure RecordsAgree (source : String) (p : Program) (records : List LogRecord) : Prop where
  errors : (records.filter (·.level = .error)).map LogRecord.message = p.errors.map Diagnostic.text
  paired : Paired records
  stretches : ∃ os rs, Recounts source 0 os rs ∧
    p.body = os.filterMap statementOf? ∧ p.errors = os.filterMap errorOf? ∧
    records =
      (tokenizeLog source ++ [Event.parsing (significant source).length]).map Event.record ++ rs ++
        [(Event.parsed p.body.length p.errors.length).record]
  /-- No token is skipped exactly if the failure is at the end. -/
  skipped : ∀ k j, Resumes source k j → (j - k = 0 ↔ k = tokenCount source)
  last : records.getLast? = some ⟨.debug, "hedwig::parser", "parsed " ++ toString p.body.length ++
    " statements with " ++ toString p.errors.length ++ " errors"⟩
  /-- Without errors each statement is recorded once, and those within it behind it. -/
  statements : p.errors = [] → List.Forall₂ (Announces source)
    (p.body.flatMap Statement.statements) (records.filter (·.level = .trace))

/-! ## Records of one kind -/

theorem level_of_announces {source : String} {st : Statement Span} {r : LogRecord}
    (h : Announces source st r) : r.level = .trace := by
  obtain ⟨t, -, -, rfl⟩ := h
  rfl

theorem levels_of_announces {source : String} {sts : List (Statement Span)} {rs : List LogRecord}
    (h : List.Forall₂ (Announces source) sts rs) : ∀ r ∈ rs, r.level = .trace := by
  induction h with
  | nil => exact nofun
  | cons hr _ ih => exact List.forall_mem_cons.2 ⟨level_of_announces hr, ih⟩

section
variable {rs : List LogRecord} {l l' : Level}

theorem filter_of_level (h : ∀ r ∈ rs, r.level = l) : rs.filter (·.level = l) = rs :=
  List.filter_eq_self.2 fun r hr => decide_eq_true (h r hr)

theorem filter_of_level_ne (h : ∀ r ∈ rs, r.level = l) (hl : l ≠ l') :
    rs.filter (·.level = l') = [] :=
  List.filter_eq_nil_iff.2 fun r hr => by simpa [h r hr] using hl

theorem filter_between {front back : List LogRecord} (hfront : ∀ r ∈ front, r.level = l)
    (hback : ∀ r ∈ back, r.level = l) (hl : l ≠ l') :
    (front ++ rs ++ back).filter (·.level = l') = rs.filter (·.level = l') := by
  rw [List.filter_append, List.filter_append, filter_of_level_ne hfront hl,
    filter_of_level_ne hback hl, List.append_nil, List.nil_append]

theorem Paired.append {rs' : List LogRecord} (h : Paired rs) (h' : Paired rs') :
    Paired (rs ++ rs') := by
  induction h with
  | nil => exact h'
  | other herror hwarn _ ih => exact .other herror hwarn ih
  | failure herror hwarn _ ih => exact .failure herror hwarn ih

theorem paired_of_level (h : ∀ r ∈ rs, r.level = l) (herror : l ≠ .error) (hwarn : l ≠ .warn) :
    Paired rs := by
  induction rs with
  | nil => exact .nil
  | cons r rs ih =>
    obtain ⟨hr, hrs⟩ := List.forall_mem_cons.1 h
    exact .other (hr ▸ herror) (hr ▸ hwarn) (ih hrs)

end

namespace Recounts

variable {source : String} {i : Nat} {os : List Outcome} {rs : List LogRecord}

theorem errors (h : Recounts source i os rs) :
    (rs.filter (·.level = .error)).map LogRecord.message =
      (os.filterMap errorOf?).map Diagnostic.text := by
  induction h with
  | done => rfl
  | statement _ htraces _ ih =>
    rw [List.filter_append, filter_of_level_ne (levels_of_announces htraces) (by decide)]
    exact ih
  | failure _ _ htraces _ ih =>
    rw [List.filter_append, filter_of_level_ne htraces (by decide)]
    simpa [errorOf?] using ih

theorem paired (h : Recounts source i os rs) : Paired rs := by
  induction h with
  | done => exact .nil
  | statement _ htraces _ ih =>
    exact (paired_of_level (levels_of_announces htraces) (by decide) (by decide)).append ih
  | failure _ _ htraces _ ih =>
    exact (paired_of_level htraces (by decide) (by decide)).append (.failure rfl rfl ih)

theorem statements (h : Recounts source i os rs) (hnone : os.filterMap errorOf? = []) :
    List.Forall₂ (Announces source) ((os.filterMap statementOf?).flatMap Statement.statements)
      (rs.filter (·.level = .trace)) := by
  induction h with
  | done => exact .nil
  | statement _ htraces _ ih =>
    rw [List.filter_append, filter_of_level (levels_of_announces htraces)]
    exact List.rel_append htraces (ih hnone)
  | failure => cases hnone

end Recounts

/-! ## Failures -/

/-- Where a statement fails does not depend on what has been read and logged before. -/
theorem FailsAt.unique {source : String} {i k k' : Nat} {e e' : Diagnostic}
    (h : FailsAt source i e k) (h' : FailsAt source i e' k') : k = k' := by
  obtain ⟨s, s₁, hs, herror, hk⟩ := h
  obtain ⟨s', s₁', hs', herror', hk'⟩ := h'
  have hsame : placeless.Along s s' := by
    refine ⟨?_, fun _ => rfl⟩
    rw [hs.2.1, hs'.2.1]
    exact aligned_of_phrases rfl
  have hd : placeless.Deepens (level nestingLimit) (level nestingLimit) :=
    Alignment.level_deepens (.inl rfl)
  have hagree := Alignment.statement_agree hd hsame (.inl trivial)
  rw [herror] at hagree
  obtain ⟨e'', s₂, herror'', -, halong⟩ := hagree (.inl trivial) id
  obtain ⟨rfl, rfl⟩ : _ ∧ _ := by simpa using herror'.symm.trans herror''
  have := hk.length
  have := hk'.length
  have := length_eq_of_along halong
  omega

theorem sub_eq_zero_of_resumes {source : String} {k j : Nat} (h : Resumes source k j) :
    j - k = 0 ↔ k = tokenCount source := by
  unfold Resumes at h
  split at h
  · omega
  · omega

namespace Parse

theorem afterFailure_events (s : State) (e : Diagnostic) : (s.afterFailure e).events =
    .recovered (passed s.rest).length :: .failed e :: s.events := by
  unfold State.afterFailure recover
  cases s.rest <;> rfl

/-! ## Statements -/

/-- Since the state `S`, each of the statements has been announced with its first token. -/
def announcing (S : State) : Invariant (Statement Span) where
  Holds s K := Reached S s ∧ ∃ ts : List Token,
    s.events = (ts.map Event.statement).reverse ++ S.events ∧
      List.Forall₂ (fun st t => t ∈ S.rest ∧ t.span.start = st.span.start) K ts
  reads h hu he := ⟨h.1.trans hu, by rw [he]; exact h.2⟩

theorem statement_start {d : Deeper} [d.Regular] {s s' : State} {st : Statement Span}
    (h : d.statement s = .ok st s') :
    s.current ∈ s.rest ∧ s.current.span.start = st.span.start := by
  obtain ⟨u, hu, hne, hst⟩ := statement_reads h
  obtain ⟨first, last, hf, -, hspan⟩ := statement_covers hst
  obtain rfl : s.current = first := Option.some.inj ((hu.current hne).symm.trans hf)
  refine ⟨hu.rest ▸ List.mem_append_left _ (List.mem_of_mem_head? hf), ?_⟩
  rw [hspan, Span.start_through]

theorem level_announcing (S : State) (limit : Nat) : (level limit).Threading (announcing S) := by
  refine level_threading (fun n _ s s' st front h hs => ?_) _ (Nat.le_refl _)
  obtain ⟨hreached, ts, hevents, hfront⟩ := hs
  obtain ⟨hmem, hstart⟩ := statement_start h
  refine ⟨hreached.withEvents _, ts ++ [s.current], by simp [hevents], ?_⟩
  obtain ⟨u, hu⟩ := hreached
  exact List.rel_append hfront (.cons ⟨hu.rest ▸ List.mem_append_right u hmem, hstart⟩ .nil)

/-- What a statement logs, if it is none of the failures. -/
theorem statement_announces {source : String} {s s' : State} {st : Statement Span} {i : Nat}
    (hs : StandsAt source s i) (h : (level nestingLimit).statement s = .ok st s') :
    ∃ ts : List Token, s'.events = (ts.map Event.statement).reverse ++ s.events ∧
      List.Forall₂ (Announces source) st.statements
        ((ts.map Event.statement).map Event.record) := by
  have hnone : (announcing s).Holds s ([] ++ []) := ⟨⟨[], .refl s⟩, [], rfl, .nil⟩
  obtain ⟨-, ts, hevents, hts⟩ :=
    (level_announcing s nestingLimit).statement.threads [] hnone h
  refine ⟨ts, hevents, ?_⟩
  rw [List.map_map, List.forall₂_map_right_iff]
  refine hts.imp fun st t ⟨ht, hstart⟩ => ⟨t, ?_, hstart, hstart ▸ rfl⟩
  have hmem := List.mem_of_mem_drop (hs.2.1 ▸ ht)
  rw [rest_startOf] at hmem
  exact (List.mem_filter.1 hmem).1

/-! ## Runs -/

/-- The records of a run are those of its stretches. -/
theorem Runs.recounts {source : String} {s s' : State} {os : List Outcome} {i : Nat}
    (h : Runs (level nestingLimit) s os s') (hs : StandsAt source s i) :
    ∃ es : List Event, s'.events = es.reverse ++ s.events ∧
      Recounts source i os (es.map Event.record) := by
  induction h generalizing i with
  | @done s hnil =>
    have hlength := hs.length
    rw [hnil, List.length_nil, Nat.add_zero] at hlength
    exact ⟨[], rfl, hlength ▸ .done⟩
  | statement _ hok _ ih =>
    obtain ⟨u, hu, hne, hst⟩ := statement_reads hok
    obtain ⟨ts, hevents, hts⟩ := statement_announces hs hok
    obtain ⟨es, hes, hrecounts⟩ := ih (hs.reads hu)
    refine ⟨ts.map Event.statement ++ es, by simp [hes, hevents], ?_⟩
    rw [List.map_append]
    exact .statement (.statement hs hok hu hne hst) hts hrecounts
  | @failure s s₁ _ e _ hne herror _ ih =>
    obtain ⟨u, hu, hr, -⟩ := failure_reads hne herror
    obtain ⟨ts, hevents⟩ := Moves.error_logs herror
    obtain ⟨es, hes, hrecounts⟩ := ih (hs.reads hr)
    have hresumes := resumes_passed (hs.reads hu) (afterFailure_reads s₁ e)
    rw [List.length_append, ← Nat.add_assoc] at hrecounts
    have hall : ∀ r ∈ (ts.reverse.map Event.statement).map Event.record, r.level = .trace := by
      simp [Event.record, Event.level]
    have hfailure := hrecounts.failure ⟨s, s₁, hs, herror, hs.reads hu⟩ hresumes hall
    rw [Nat.add_sub_cancel_left] at hfailure
    refine ⟨ts.reverse.map Event.statement ++
      .failed e :: .recovered (passed s₁.rest).length :: es, ?_, ?_⟩
    · simp [hes, afterFailure_events, hevents]
    · rwa [List.map_append]

end Parse

/-! ## Sources -/

/-- The program is what a run has found, and the records are those of the run. -/
theorem parseRecords_eq {source : String} {os : List Outcome} {s : State} {es : List Event}
    (h : Runs (level nestingLimit) (startOf source) os s)
    (hes : s.events = es.reverse ++ (startOf source).events) :
    parse source = Parser.programOf source os s ∧ parseRecords source =
      (tokenizeLog source ++ [Event.parsing (significant source).length]).map Event.record ++
        es.map Event.record ++ [(Event.parsed (os.filterMap statementOf?).length
          (os.filterMap errorOf?).length).record] := by
  have hrun := Parser.run_eq_of_runs h
  have hlog : parseLog source =
      tokenizeLog source ++ [.parsing (significant source).length] ++ es ++
        [.parsed (os.filterMap statementOf?).length (os.filterMap errorOf?).length] := by
    rw [parseLog, hrun]
    simp [Parser.logOutcomes, hes, startOf, tokenizeLog]
  have hshown : ∀ r : LogRecord, r.level.shownAt (some .trace) := fun r => by
    cases r.level <;> rfl
  refine ⟨by rw [parse, parseWith, hrun], ?_⟩
  rw [parseRecords, List.filter_eq_self.2 fun r _ => hshown r, hlog, List.map_append,
    List.map_append]
  rfl

/-- **The log agrees with the program.** The error records are the errors, behind each of them is
one of the only warnings, which counts the tokens that are skipped, the last record counts the
statements and the errors, and without errors the trace is the list of all statements. -/
theorem parse_recordsAgree (source : String) :
    RecordsAgree source (parse source) (parseRecords source) := by
  obtain ⟨os, s, hruns⟩ := Parser.exists_runs source
  have hstart : StandsAt source (startOf source) 0 :=
    ⟨Nat.zero_le _, by rw [List.drop_zero], rfl⟩
  obtain ⟨es, hes, hrecounts⟩ := hruns.recounts hstart
  obtain ⟨hparse, hrecords⟩ := parseRecords_eq hruns hes
  rw [hparse, hrecords]
  set front := (tokenizeLog source ++ [Event.parsing (significant source).length]).map Event.record
  have hfront : ∀ r ∈ front, r.level = .debug := by
    simp [front, tokenizeLog, tokenizeEvents, Event.record, Event.level]
  have hlast : ∀ r ∈ [(Event.parsed (os.filterMap statementOf?).length
      (os.filterMap errorOf?).length).record], r.level = .debug := List.forall_mem_singleton.2 rfl
  refine ⟨?_, ?_, ⟨os, _, hrecounts, rfl, rfl, rfl⟩, fun _ _ => sub_eq_zero_of_resumes,
    List.getLast?_concat, fun hnone => ?_⟩
  · rw [filter_between hfront hlast (by decide)]
    exact hrecounts.errors
  · refine (Paired.append ?_ hrecounts.paired).append ?_
    · exact paired_of_level hfront (by decide) (by decide)
    · exact paired_of_level hlast (by decide) (by decide)
  · rw [filter_between hfront hlast (by decide)]
    exact hrecounts.statements hnone

/-- The statement under the condition is announced, and `d` and the semicolon are skipped. -/
example : (parseRecords "if (a) b; c d;").map LogRecord.message =
    ["tokenizing 14 bytes", "produced 10 tokens", "parsing 10 tokens",
      "statement at 1:1 starting with KEYWORD 'if'",
      "statement at 1:8 starting with IDENTIFIER 'b'",
      "statement at 1:11 starting with IDENTIFIER 'c'",
      "ParseError: Expected ';' after expression at line 1, column 13",
      "recovered after skipping 2 token(s)", "parsed 1 statements with 1 errors"] := by
  decide +kernel

end JsSyntax
