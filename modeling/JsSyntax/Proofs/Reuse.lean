import JsSyntax.Proofs.Counting.Depth
import JsSyntax.Proofs.Layout

/-! # Using a parser again

A parser is used for one source after another, and asked for expressions in between. Whatever it
has been used for, nothing is ahead of it afterwards and it is in none of the nested routines, so
that what it answers depends on the last source at most (`session_fresh`).
-/

set_option autoImplicit false

namespace JsSyntax

open Parse

namespace Parser

/-! ## Calls -/

inductive Call where
  | parse (source : String)
  | parseExpression

inductive Answer where
  | program (p : Program)
  | expression (result : Except Diagnostic (Expr Span))

/-- The answer to a call, and the parser as the call leaves it. -/
def use (p : Parser) : Call → Answer × Parser
  | .parse source => (.program (p.parse source).1, (p.parse source).2)
  | .parseExpression => (.expression p.parseExpression.1, p.parseExpression.2)

/-- Calls one after another, each with what `use` gives. -/
def session (p : Parser) : List Call → List (Answer × Parser)
  | [] => []
  | c :: cs => p.use c :: (p.use c).2.session cs

/-! ## What is expected -/

/-- The source that is the last one after the call. -/
def Call.latest (last : Option String) : Call → Option String
  | .parse source => some source
  | .parseExpression => last

/-- The position behind the last character of the last source. -/
def endOf (last : Option String) : Position := Position.first.advanceBy (last.getD "").toList

/-- The answer to a call if the last source is all that counts. -/
def Call.expected (last : Option String) : Call → Answer
  | .parse source => .program (fresh.parse source).1
  | .parseExpression => .expression (.error
      ⟨"Unexpected end of input", ⟨(endOf last).line, (endOf last).column⟩⟩)

def expected (last : Option String) : List Call → List Answer
  | [] => []
  | c :: cs => c.expected last :: expected (c.latest last) cs

/-! ## Sources -/

/-- The program of a source, from the outcomes of its stretches and the state behind them. -/
def programOf (source : String) (os : List Outcome) (s : State) : Program :=
  ⟨os.filterMap statementOf?, (tokenize source).filter (·.kind = .comment),
    os.filterMap errorOf?, s.spanFrom (startOf source).current.span⟩

/-- What was found is logged. -/
def logOutcomes (os : List Outcome) (s : State) : State :=
  { s with
    events := .parsed (os.filterMap statementOf?).length (os.filterMap errorOf?).length ::
      s.events }

theorem run_eq_of_runs {limit : Nat} {source : String} {os : List Outcome} {s : State}
    (h : Runs (level limit) (startOf source) os s) :
    run limit source = (programOf source os s, logOutcomes os s) := by
  obtain ⟨rfl, rfl⟩ := h.unique (runs_outcomes (Nat.le_refl _))
  rfl

theorem parse_eq_of_runs {source : String} {os : List Outcome} {s : State} (p : Parser)
    (h : Runs (level nestingLimit) (startOf source) os s) :
    p.parse source = (programOf source os s, ⟨logOutcomes os s⟩) := by
  unfold Parser.parse
  rw [run_eq_of_runs h]

theorem exists_runs (source : String) :
    ∃ os s, Runs (level nestingLimit) (startOf source) os s :=
  ⟨_, _, runs_outcomes (Nat.le_refl _)⟩

/-! ## At the end -/

/-- Nothing of the last source is ahead. -/
structure Rests (p : Parser) (last : Option String) : Prop where
  rest : p.state.rest = []
  stop : p.state.stop = endOf last

theorem rests_fresh : fresh.Rests none := ⟨rfl, rfl⟩

theorem rests_parse (p : Parser) (source : String) : (p.parse source).2.Rests (some source) := by
  obtain ⟨os, s, h⟩ := exists_runs source
  obtain ⟨hreads, hrest⟩ := h.reads
  rw [parse_eq_of_runs p h]
  exact ⟨hrest, hreads.stop.trans (stop_startOf source)⟩

/-- At the end there is no expression, and the search for one changes nothing. -/
theorem Rests.parseExpression {p : Parser} {last : Option String} (h : p.Rests last) :
    p.parseExpression = (.error (Fault.unexpectedEnd.report (endOf last)), p) := by
  obtain ⟨⟨l, rest, stop, events⟩⟩ := p
  obtain ⟨rfl, rfl⟩ : rest = [] ∧ stop = endOf last := ⟨h.rest, h.stop⟩
  rfl

theorem Rests.use {p : Parser} {last : Option String} (h : p.Rests last) (c : Call) :
    (p.use c).1 = c.expected last ∧ (p.use c).2.Rests (c.latest last) := by
  cases c with
  | parse source => exact ⟨rfl, rests_parse p source⟩
  | parseExpression =>
    rw [Parser.use, h.parseExpression]
    exact ⟨rfl, h⟩

theorem Rests.session {p : Parser} {last : Option String} (h : p.Rests last) (calls : List Call) :
    (p.session calls).map Prod.fst = expected last calls ∧
      ∀ q ∈ (p.session calls).map Prod.snd, ∃ last', q.Rests last' := by
  induction calls generalizing p last with
  | nil => exact ⟨rfl, by simp [Parser.session]⟩
  | cons c cs ih =>
    obtain ⟨hanswer, hrests⟩ := h.use c
    obtain ⟨hanswers, hall⟩ := ih hrests
    refine ⟨?_, ?_⟩
    · rw [Parser.session, List.map_cons, hanswer, hanswers, expected]
    · rw [Parser.session, List.map_cons, List.forall_mem_cons]
      exact ⟨⟨_, hrests⟩, hall⟩

/-! ## The depth -/

/-- The parser in none of the nested routines. -/
def counter (p : Parser) : Counter := ⟨p.state, 0⟩

/-- One call, with the depth counted. A source is parsed from its start and at depth 0, an
expression from where the parser is and at the depth it is at. -/
inductive Uses (P : Presentation) : Counter → Call → Answer → Counter → Prop where
  | parse {k k' : Counter} {source : String} {os : List Outcome} :
      Counts P ⟨startOf source, 0⟩ os k' →
      Uses P k (.parse source) (.program (programOf source os k'.state))
        { k' with state := logOutcomes os k'.state }
  | expression {k k' : Counter} {e : Expr Span} :
      Executes P (.call .assignment) k (.ok e k') →
      Uses P k .parseExpression (.expression (.ok e)) k'
  | failure {k k' : Counter} {e : Diagnostic} :
      Executes P (.call .assignment) k (.error e k') →
      Uses P k .parseExpression (.expression (.error e)) k'

/-- Calls one after another, with the depth counted. -/
inductive Sessions (P : Presentation) :
    Counter → List Call → List (Answer × Counter) → Prop where
  | nil {k : Counter} : Sessions P k [] []
  | cons {k k' : Counter} {c : Call} {cs : List Call} {a : Answer}
      {entries : List (Answer × Counter)} :
      Uses P k c a k' → Sessions P k' cs entries → Sessions P k (c :: cs) ((a, k') :: entries)

section
variable {P : Presentation}

theorem left_zero (s : State) : Counter.Left ⟨s, 0⟩ nestingLimit := Nat.zero_add _

theorem executes_assignment_iff {p : Parser} {r : EStateM.Result Diagnostic Counter (Expr Span)} :
    Executes P (.call .assignment) p.counter r ↔
      r = p.counter.result ((level nestingLimit).assignment p.state) :=
  executes_iff (left_zero p.state)

theorem uses_use (p : Parser) (c : Call) :
    Uses P p.counter c (p.use c).1 (p.use c).2.counter := by
  cases c with
  | parse source =>
    obtain ⟨os, s, h⟩ := exists_runs source
    rw [use, parse_eq_of_runs p h]
    exact .parse (h.counts (left_zero (startOf source)))
  | parseExpression =>
    have hx := (executes_assignment_iff (P := P) (p := p)).2 rfl
    unfold use Parser.parseExpression
    cases h : (level nestingLimit).assignment p.state with
    | ok e s =>
      rw [h] at hx
      exact .expression hx
    | error e s =>
      rw [h] at hx
      exact .failure hx

theorem Uses.eq_use {p : Parser} {c : Call} {a : Answer} {k : Counter}
    (h : Uses P p.counter c a k) : a = (p.use c).1 ∧ k = (p.use c).2.counter := by
  cases c with
  | parse source =>
    cases h with
    | parse hc =>
      obtain ⟨hr, hd⟩ := (counts_iff (left_zero (startOf source))).1 hc
      rw [use, parse_eq_of_runs p hr, hd]
      exact ⟨rfl, rfl⟩
  | parseExpression =>
    obtain ⟨s, depth⟩ := k
    cases h with
    | expression hx =>
      obtain ⟨hs, rfl⟩ := Counter.result_eq_ok.1 (executes_assignment_iff.1 hx).symm
      unfold use Parser.parseExpression
      rw [hs]
      exact ⟨rfl, rfl⟩
    | failure hx =>
      obtain ⟨hs, rfl⟩ := Counter.result_eq_error.1 (executes_assignment_iff.1 hx).symm
      unfold use Parser.parseExpression
      rw [hs]
      exact ⟨rfl, rfl⟩

theorem sessions_iff {p : Parser} {calls : List Call} {entries : List (Answer × Counter)} :
    Sessions P p.counter calls entries ↔
      entries = (p.session calls).map fun e => (e.1, e.2.counter) := by
  induction calls generalizing p entries with
  | nil =>
    constructor
    · rintro ⟨⟩
      rfl
    · rintro rfl
      exact .nil
  | cons c cs ih =>
    constructor
    · intro h
      cases h with
      | cons huse h =>
        obtain ⟨rfl, rfl⟩ := huse.eq_use
        rw [ih.1 h]
        rfl
    · rintro rfl
      exact .cons (uses_use p c) (ih.2 rfl)

end

/-! ## Sessions -/

/-- **Reuse has no memory.** Whatever calls a parser is used for, each source gives what a parser
gives that has not been used, and each call for an expression fails at the end of the last source
and leaves the parser as it is. After every call the parser is at the end of its source, and if the
depth is counted, which the nested routines do however they are written as scripts, it is 0. -/
theorem session_fresh (calls : List Call) :
    (fresh.session calls).map Prod.fst = expected none calls ∧
    (∀ p ∈ fresh :: (fresh.session calls).map Prod.snd,
      p.state.rest = [] ∧ p.parseExpression.2 = p) ∧
    Nonempty Presentation ∧
    ∀ (P : Presentation) (entries : List (Answer × Counter)),
      Sessions P ⟨fresh.state, 0⟩ calls entries ↔
        entries = (fresh.session calls).map fun e => (e.1, ⟨e.2.state, 0⟩) := by
  obtain ⟨hanswers, hrests⟩ := rests_fresh.session calls
  refine ⟨hanswers, ?_, nonempty_presentation, fun P entries => sessions_iff⟩
  have hall : ∀ p ∈ fresh :: (fresh.session calls).map Prod.snd, ∃ last, p.Rests last :=
    List.forall_mem_cons.2 ⟨⟨none, rests_fresh⟩, hrests⟩
  intro p hp
  obtain ⟨last, h⟩ := hall p hp
  exact ⟨h.rest, by rw [h.parseExpression]⟩

end Parser

end JsSyntax
