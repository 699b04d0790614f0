import JsSyntax.Proofs.Follow.Program
import JsSyntax.Proofs.Layout
import JsSyntax.Proofs.Token.Splice

/-! # Sources one after another

A source is parsed as it is parsed in front of another one, and the other one as it is parsed on its
own, further down (`parse_append`). What can join the two is left out: a token that is not closed at
the end of the first, an `else` at the start of the second, and a failure that is noticed, or a
recovery that ends, only at the end of the first.
-/

set_option autoImplicit false

namespace JsSyntax

open Parse

/-! ## Further down -/

/-- A position as many bytes and lines further down. -/
def Position.shift (bytes lines : Nat) (p : Position) : Position :=
  ⟨p.offset + bytes, p.line + lines, p.column⟩

/-- Where a position of a source lies when the text `a` and a line break are put in front. -/
def below (a : String) : Position → Position :=
  Position.shift (a.utf8ByteSize + 1) (a.toList.count '\n' + 1)

/-- A report in a source when the text `a` and a line break are put in front. -/
def Diagnostic.below (a : String) (e : Diagnostic) : Diagnostic :=
  ⟨e.message, ⟨e.location.line + (a.toList.count '\n' + 1), e.location.column⟩⟩

theorem movesText_shift (bytes lines : Nat) (p : Position) :
    MovesText (Position.shift bytes lines) p := by
  intro cs
  induction cs generalizing p with
  | nil => rfl
  | cons c cs ih =>
    have hadvance : (p.advance c).shift bytes lines = (p.shift bytes lines).advance c := by
      unfold Position.advance
      split <;> simp [Position.shift] <;> omega
    rw [Position.advanceBy_cons, ih, hadvance]
    rfl

theorem below_first (a : String) :
    below a .first = Position.first.advanceBy (a.toList ++ ['\n']) := by
  have hoffset := Position.first.offset_advanceBy (a.toList ++ ['\n'])
  have hline := Position.first.line_advanceBy (a.toList ++ ['\n'])
  have hcolumn : (Position.first.advanceBy (a.toList ++ ['\n'])).column = 1 := by
    rw [Position.advanceBy_append]
    rfl
  rw [String.utf8Len_append, utf8Len_toList] at hoffset
  rw [List.count_append] at hline
  generalize Position.first.advanceBy (a.toList ++ ['\n']) = p at *
  obtain ⟨offset, line, column⟩ := p
  simp only at hoffset hline hcolumn
  subst hoffset hline hcolumn
  simp [below, Position.shift, Position.first]
  decide

/-! ## Tokens -/

/-- The source ends inside a block comment, a string or a template. -/
def EndsOpen (source : String) : Prop :=
  ∃ t ∈ (tokenize source).dropLast.getLast?, Unclosed t.kind t.value.toList

theorem tokenize_append {a b : String} (h : ¬ EndsOpen a) :
    tokenize (a ++ "\n" ++ b) =
      (tokenize a).dropLast ++ (tokenize b).map (Token.move (below a)) := by
  have hb : Lexes (below a .first) _ _ := (lexes_tokenize b).move (movesText_shift _ _ _)
  rw [below_first] at hb
  have hab := (lexes_tokenize a).append (fun t ht hopen => h ⟨t, ht, hopen⟩) hb
  have htext : (a ++ "\n" ++ b).toList = a.toList ++ '\n' :: b.toList := by simp
  exact (htext ▸ lexes_tokenize (a ++ "\n" ++ b)).unique hab

/-! ## Alignments -/

namespace Parse

/-- The same tokens, with some more of them on the right. -/
def beside (rest : List Token) (h : ∀ t ∈ rest.head?, ¬ t.isKeyword "else") : Alignment Span :=
  .forked id id [] rest (fun _ => False) (fun h h' => congrArg₂ Span.through h h') h

theorem aligned_beside {rest r : List Token} (h : ∀ t ∈ rest.head?, ¬ t.isKeyword "else")
    (hfence : ∀ t ∈ r.getLast?, Alignment.Fence t) : (beside rest h).Aligned r (r ++ rest) := by
  have hsame : List.Forall₂ (beside rest h).Same r r :=
    List.forall₂_same.2 fun _ _ => ⟨rfl, rfl, rfl⟩
  have haligned := Alignment.Aligned.of_same hsame (.inr (.inr hfence))
  rwa [beside, Alignment.forked, List.append_nil] at haligned

theorem through_move {f : Position → Position} {n : Nat} (hf : ∀ p, (f p).offset = p.offset + n)
    (a b : Span) : (a.through b).move f = (a.move f).through (b.move f) := by
  unfold Span.through
  simp only [Span.move, hf, Nat.add_lt_add_iff_right]
  split <;> rfl

/-- The same tokens, on the right further down. -/
def movedBy (f : Position → Position) {n : Nat} (hf : ∀ p, (f p).offset = p.offset + n) :
    Alignment Span :=
  .full (Span.move f) id fun h h' => by rw [through_move hf, h, h']; rfl

theorem aligned_movedBy {f : Position → Position} {n : Nat} (hf : ∀ p, (f p).offset = p.offset + n)
    (ts : List Token) : (movedBy f hf).Aligned ts (ts.map (Token.move f)) := by
  have hsame : List.Forall₂ (movedBy f hf).Same ts (ts.map (Token.move f)) :=
    List.forall₂_map_right_iff.2 (List.forall₂_same.2 fun _ _ => ⟨rfl, rfl, rfl⟩)
  have haligned := Alignment.Aligned.of_same hsame (.inl trivial)
  rwa [movedBy, Alignment.full, List.append_nil, List.append_nil] at haligned

/-! ## Programs -/

theorem startOf_append {a b : String} (h : ¬ EndsOpen a) :
    (startOf (a ++ "\n" ++ b)).rest =
        (startOf a).rest ++ (startOf b).rest.map (Token.move (below a)) ∧
      (startOf (a ++ "\n" ++ b)).stop = below a (startOf b).stop := by
  constructor
  · obtain ⟨us, hus, -⟩ := (lexes_tokenize a).closing
    have hb : ((tokenize b).map (Token.move (below a))).filter
          (fun t => t.kind ≠ .comment ∧ t.kind ≠ .eof) =
        ((tokenize b).filter fun t => t.kind ≠ .comment ∧ t.kind ≠ .eof).map
          (Token.move (below a)) := List.filter_map
    rw [rest_startOf, rest_startOf, rest_startOf, tokenize_append h, List.filter_append, hb, hus]
    simp [Token.eof]
  · have htext : (a ++ "\n" ++ b).toList = (a.toList ++ ['\n']) ++ b.toList := by simp
    rw [stop_startOf, stop_startOf, htext, Position.advanceBy_append, ← below_first]
    exact (movesText_shift _ _ _ b.toList).symm

/-- Without errors, the tokens end with a semicolon or a brace. -/
theorem Runs.ends_with_mark {d : Deeper} [d.Regular] {s s' : State} {os : List Outcome}
    (h : Runs d s os s') (herrors : os.filterMap errorOf? = []) :
    ∀ t ∈ s.rest.getLast?, t.kind = .punctuation := by
  induction h with
  | done hnil => simp [hnil]
  | failure _ _ _ _ => cases herrors
  | @statement s s₁ _ st os _ hok hruns ih =>
    obtain ⟨u, hu, -, hst⟩ := statement_reads hok
    intro t ht
    rw [hu.rest, List.getLast?_append] at ht
    cases hlast : s₁.rest.getLast? with
    | some x =>
      rw [hlast] at ht
      exact ih herrors t (hlast ▸ ht)
    | none =>
      obtain ⟨v, x, rfl, hx⟩ := hst.ends_with_mark rfl
      obtain rfl : x = t := by simpa [hlast] using ht
      exact hx

section
variable {os os' : List Outcome}

theorem eq_of_beside {rest : List Token} {h : ∀ t ∈ rest.head?, ¬ t.isKeyword "else"}
    (hos : List.Forall₂ (beside rest h).SameOutcome os os') : os = os' := by
  induction hos with
  | nil => rfl
  | @cons o o' os os' ho _ ih =>
    rw [ih]
    match o, o', ho with
    | .ok st, .ok st', ho =>
      have ho : st.map id = st'.map id := ho
      rw [Statement.map_id, Statement.map_id] at ho
      rw [ho]
    | .error _, .error _, ⟨_, _, _, rfl, rfl, rfl⟩ => rfl

theorem eq_of_movedBy {a : String} (hf : ∀ p, (below a p).offset = p.offset + (a.utf8ByteSize + 1))
    (hos : List.Forall₂ (movedBy (below a) hf).SameOutcome os os') :
    os'.filterMap statementOf? =
        (os.filterMap statementOf?).map (Statement.map (Span.move (below a))) ∧
      os'.filterMap errorOf? = (os.filterMap errorOf?).map (Diagnostic.below a) := by
  induction hos with
  | nil => exact ⟨rfl, rfl⟩
  | @cons o o' os os' ho _ ih =>
    simp only [List.filterMap_cons]
    match o, o', ho with
    | .ok st, .ok st', ho =>
      have ho : st.map (Span.move (below a)) = st'.map id := ho
      rw [Statement.map_id] at ho
      simp [statementOf?, errorOf?, ih, ho]
    | .error _, .error _, ⟨fault, sp, sp', hsp, rfl, rfl⟩ =>
      have hsp : sp.move (below a) = sp' := hsp
      subst hsp
      simp only [statementOf?, errorOf?, ih, List.map_cons, true_and]
      rfl

/-- The tokens of a source go as far as they do when nothing is behind them. -/
theorem runs_beside {n : Nat} {s s' s₁ : State} {more : List Token}
    (h : Runs (level n) s os s₁) (hrest : s'.rest = s.rest ++ more)
    (helse : ∀ t ∈ more.head?, ¬ t.isKeyword "else")
    (hclosed : os.filterMap errorOf? = [] ∨ (∀ t ∈ s.rest.getLast?, t.isPunctuation ";") ∧
      ∀ e ∈ os.filterMap errorOf?, e.location ≠ ⟨s.stop.line, s.stop.column⟩) :
    ∃ s₁', s₁'.rest = more ∧ s₁'.stop = s'.stop ∧
      ∀ {os₂ s₂}, Runs (level n) s₁' os₂ s₂ → Runs (level n) s' (os ++ os₂) s₂ := by
  have hmark : ∀ t ∈ s.rest.getLast?, t.kind = .punctuation := by
    rcases hclosed with hnone | ⟨hsemi, -⟩
    · exact h.ends_with_mark hnone
    · exact fun t ht => (Token.is_iff.1 (hsemi t ht)).1
  have hs : (beside more helse).Along s s' := by
    refine ⟨hrest ▸ aligned_beside helse fun t ht => ?_, nofun⟩
    rw [Alignment.Fence, hmark t ht]
    decide
  obtain ⟨os', s₁', hos, hs₁, ⟨u, hu⟩, hruns⟩ := Alignment.runs_follow
    (Alignment.level_deepens (.inl rfl)) rfl (fun _ => id) h hs (.inr hclosed)
  obtain rfl := eq_of_beside hos
  refine ⟨s₁', ?_, hu.stop, hruns⟩
  have haligned := hs₁.aligned
  rw [h.reads.2] at haligned
  generalize s₁'.rest = r at haligned ⊢
  cases haligned
  rfl

/-- The tokens of a source go as far as they do when nothing is in front of them. -/
theorem runs_below {n : Nat} {a : String} {s s' s₁ : State} (h : Runs (level n) s os s₁)
    (hrest : s'.rest = s.rest.map (Token.move (below a))) (hstop : s'.stop = below a s.stop) :
    ∃ os' s₁', Runs (level n) s' os' s₁' ∧
      os'.filterMap statementOf? =
        (os.filterMap statementOf?).map (Statement.map (Span.move (below a))) ∧
      os'.filterMap errorOf? = (os.filterMap errorOf?).map (Diagnostic.below a) := by
  have hoffset : ∀ p, (below a p).offset = p.offset + (a.utf8ByteSize + 1) := fun _ => rfl
  have hs : (movedBy (below a) hoffset).Along s s' := by
    refine ⟨hrest ▸ aligned_movedBy hoffset s.rest, fun _ => ?_⟩
    show (Span.point s.stop).move (below a) = Span.point s'.stop
    rw [hstop]
    rfl
  obtain ⟨os', s₁', hos, hs₁, -, hruns⟩ := Alignment.runs_follow
    (Alignment.level_deepens (.inl rfl)) rfl (fun _ => id) h hs (.inl trivial)
  have hlength := hs₁.aligned.length
  rw [h.reads.2] at hlength
  have hruns := hruns (.done (List.length_eq_zero_iff.1 hlength.symm))
  rw [List.append_nil] at hruns
  exact ⟨os', s₁', hruns, eq_of_movedBy hoffset hos⟩

end

/-- No error of the source, and no recovery from one, waits for what comes behind it. -/
def EndsClean (source : String) : Prop :=
  (parse source).errors = [] ∨
    (∃ t ∈ (significant source).dropLast.getLast?, t.isPunctuation ";") ∧
      ∀ closing ∈ (tokenize source).getLast?, ∀ e ∈ (parse source).errors,
        e.location ≠ ⟨closing.line, closing.column⟩

theorem EndsClean.closed {source : String} (h : EndsClean source) : (parse source).errors = [] ∨
    (∀ t ∈ (startOf source).rest.getLast?, t.isPunctuation ";") ∧
      ∀ e ∈ (parse source).errors,
        e.location ≠ ⟨(startOf source).stop.line, (startOf source).stop.column⟩ := by
  refine h.imp_right fun ⟨⟨t, hlast, hsemi⟩, he⟩ => ⟨fun t' ht' => ?_, ?_⟩
  · rw [significant_eq, List.dropLast_concat] at hlast
    exact Option.mem_unique hlast ht' ▸ hsemi
  · obtain ⟨us, hus, -⟩ := (lexes_tokenize source).closing
    rw [stop_startOf]
    exact he (.eof (Position.first.advanceBy source.toList)) (by simp [hus])

/-- Sources with a line break between them are parsed one after another. -/
theorem parse_append (a b : String) (hclean : EndsClean a) (hopen : ¬ EndsOpen a)
    (helse : ∀ t ∈ (significant b).head?, ¬ t.isKeyword "else") :
    (parse (a ++ "\n" ++ b)).body =
        (parse a).body ++ (parse b).body.map (Statement.map (Span.move (below a))) ∧
      (parse (a ++ "\n" ++ b)).comments =
        (parse a).comments ++ (parse b).comments.map (Token.move (below a)) ∧
      (parse (a ++ "\n" ++ b)).errors =
        (parse a).errors ++ (parse b).errors.map (Diagnostic.below a) := by
  obtain ⟨osa, sa, hrunsa, ha⟩ := parseWith_runs nestingLimit a
  obtain ⟨osb, sb, hrunsb, hb⟩ := parseWith_runs nestingLimit b
  obtain ⟨os, s, hruns, hab⟩ := parseWith_runs nestingLimit (a ++ "\n" ++ b)
  obtain ⟨hrest, hstop⟩ := @startOf_append a b hopen
  have hclosed := hclean.closed
  rw [parse, ha] at hclosed
  have hbehind : ∀ t ∈ ((startOf b).rest.map (Token.move (below a))).head?,
      ¬ t.isKeyword "else" := by
    intro t ht
    obtain ⟨t, hmem, rfl⟩ : ∃ t' ∈ (startOf b).rest.head?, t'.move (below a) = t := by
      simpa [List.head?_map] using ht
    refine helse t ?_
    rw [significant_eq, List.head?_append, Option.mem_def.1 hmem]
    rfl
  obtain ⟨s₁, hrest₁, hstop₁, hruns₁⟩ := runs_beside hrunsa hrest hbehind hclosed
  obtain ⟨os₂, s₂, hruns₂, hbody, herrors⟩ := runs_below hrunsb hrest₁ (hstop₁.trans hstop)
  obtain ⟨rfl, -⟩ := hruns.unique (hruns₁ hruns₂)
  rw [parse, parse, parse, ha, hb, hab]
  refine ⟨?_, ?_, ?_⟩
  · simp [List.filterMap_append, hbody]
  · obtain ⟨us, hus, -⟩ := (lexes_tokenize a).closing
    have hfilter : ((tokenize b).map (Token.move (below a))).filter (·.kind = .comment) =
        ((tokenize b).filter (·.kind = .comment)).map (Token.move (below a)) := List.filter_map
    simp only
    rw [tokenize_append hopen, List.filter_append, hfilter, hus]
    simp [Token.eof]
  · simp [List.filterMap_append, herrors]

/-- A statement behind one that fails. -/
theorem parse_append_failed :
    (parse ("= ;" ++ "\n" ++ "y;")).body =
        (parse "= ;").body ++ (parse "y;").body.map (Statement.map (Span.move (below "= ;"))) ∧
      (parse ("= ;" ++ "\n" ++ "y;")).errors =
        (parse "= ;").errors ++ (parse "y;").errors.map (Diagnostic.below "= ;") := by
  have htokens : tokenize "= ;" = [⟨.operator, "=", ⟨⟨0, 1, 1⟩, ⟨1, 1, 2⟩⟩⟩,
      ⟨.punctuation, ";", ⟨⟨2, 1, 3⟩, ⟨3, 1, 4⟩⟩⟩, .eof ⟨3, 1, 4⟩] := by decide +kernel
  have herrors : (parse "= ;").errors = [⟨"Unexpected token '='", ⟨1, 1⟩⟩] := by decide +kernel
  have hbehind : (significant "y;").head? = some ⟨.identifier, "y", ⟨⟨0, 1, 1⟩, ⟨1, 1, 2⟩⟩⟩ := by
    decide +kernel
  have hclean : EndsClean "= ;" := by
    refine .inr ⟨⟨⟨.punctuation, ";", ⟨⟨2, 1, 3⟩, ⟨3, 1, 4⟩⟩⟩, ?_, rfl⟩, ?_⟩
    · simp [significant, htokens, Token.eof]
    · simp [htokens, herrors, Token.eof, Span.point, Token.line, Token.column]
  have hopen : ¬ EndsOpen "= ;" := by simp [EndsOpen, htokens, Unclosed]
  have h := parse_append "= ;" "y;" hclean hopen (by simp [hbehind, Token.isKeyword, Token.is])
  exact ⟨h.1, h.2.2⟩

end Parse

end JsSyntax
