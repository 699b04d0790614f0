import Mathlib.Data.List.Forall2
import JsSyntax.Proofs.Follow.Program
import JsSyntax.Proofs.Parse.Tiling

/-! # Layout makes no difference

Two sources whose tokens agree, comments left out, in kind and text are parsed alike: blanks, line
breaks, comments and positions have no say in which trees are built, which stretches fail and with
what message, and where recovery ends (`parse_layout`).
-/

set_option autoImplicit false

namespace JsSyntax

/-- What is left of a token without its place. -/
def Token.phrase (t : Token) : TokenKind × String := (t.kind, t.value)

namespace Parse

/-- Token lists that agree but for the places. -/
def placeless : Alignment Unit := .full (fun _ => ()) (fun _ => ()) fun _ _ => rfl

theorem same_of_phrases {A : Alignment Unit} {ts ts' : List Token}
    (h : ts.map Token.phrase = ts'.map Token.phrase) : List.Forall₂ A.Same ts ts' := by
  rw [← List.forall₂_eq_eq_eq, List.forall₂_map_left_iff, List.forall₂_map_right_iff] at h
  exact h.imp fun t t' ht => ⟨congrArg Prod.fst ht, congrArg Prod.snd ht, rfl⟩

theorem aligned_of_phrases {ts ts' : List Token}
    (h : ts.map Token.phrase = ts'.map Token.phrase) : placeless.Aligned ts ts' := by
  have haligned := Alignment.Aligned.of_same (same_of_phrases (A := placeless) h) (.inl trivial)
  rwa [placeless, Alignment.full, List.append_nil, List.append_nil] at haligned

theorem length_eq_of_along {s s' : State} (h : placeless.Along s s') :
    s.rest.length = s'.rest.length := h.aligned.length

/-- What the parser has ahead at the start of a source. -/
theorem rest_phrases (source : String) : (startOf source).rest.map Token.phrase =
    ((tokenize source).map Token.phrase).filter fun x => x.1 ≠ .comment ∧ x.1 ≠ .eof := by
  rw [rest_startOf]
  exact (List.filter_map (f := Token.phrase)
    (p := fun x => decide (x.1 ≠ .comment ∧ x.1 ≠ .eof))).symm

/-! ## Two runs in step -/

section
variable {source source' : String}

/-- Both runs read equally many tokens. -/
theorem length_eq_of_reads {s s' s₁ s₁' : State} {u u' : List Token} (hs : placeless.Along s s')
    (hs₁ : placeless.Along s₁ s₁') (hu : s.Reads u s₁) (hu' : s'.Reads u' s₁') :
    u'.length = u.length := by
  have h := length_eq_of_along hs
  have h₁ := length_eq_of_along hs₁
  rw [hu.length, hu'.length] at h
  omega

/-- The outcomes of the two runs agree, and the stretches have the same bounds. -/
theorem Runs.in_step {s s' s₁ : State} {os : List Outcome} {i : Nat}
    (h : Runs (level nestingLimit) s os s₁) (hs : placeless.Along s s')
    (hi : StandsAt source s i) (hi' : StandsAt source' s' i) :
    ∃ os' s₁' bounds, Runs (level nestingLimit) s' os' s₁' ∧
      List.Forall₂ placeless.SameOutcome os os' ∧ Tiles source i bounds os ∧
      Tiles source' i bounds os' := by
  have hd : placeless.Deepens (level nestingLimit) (level nestingLimit) :=
    Alignment.level_deepens (.inl rfl)
  have hnil : ∀ {s s'}, placeless.Along s s' → (s.rest = [] ↔ s'.rest = []) := fun h => by
    rw [← List.length_eq_zero_iff, ← List.length_eq_zero_iff, length_eq_of_along h]
  induction h generalizing s' i with
  | done hrest =>
    have hrest' := (hnil hs).1 hrest
    exact ⟨[], s', _, .done hrest', .nil, .nil hi hrest, .nil hi' hrest'⟩
  | @statement s s₁ s₂ st os hne hok _ ih =>
    have hne' := mt (hnil hs).2 hne
    obtain ⟨st', s₁', hok', hst, hs₁⟩ := Alignment.statement_ok hd rfl hs hne hok
    obtain ⟨u, hu, hune, hderives⟩ := statement_reads hok
    obtain ⟨u', hu', hune', hderives'⟩ := statement_reads hok'
    have hlen := length_eq_of_reads hs hs₁ hu hu'
    obtain ⟨os', s₂', bounds, hruns, hos, ht, ht'⟩ :=
      ih hs₁ (hi.reads hu) (hlen ▸ hi'.reads hu')
    have := List.length_pos_iff.2 hune
    exact ⟨_, _, _, .statement hne' hok' hruns, .cons hst hos,
      ht.cons (by omega) (.statement hi hok hu hune hderives),
      ht'.cons (by omega) (hlen ▸ .statement hi' hok' hu' hune' hderives')⟩
  | @failure s s₁ s₂ e os hne herror _ ih =>
    have hne' := mt (hnil hs).2 hne
    obtain ⟨e', s₁', herror', he, hs₁⟩ :=
      Alignment.statement_error hd rfl hs hne herror (.inl trivial) id
    have hafter : placeless.Along (s₁.afterFailure e) (s₁'.afterFailure e') :=
      hs₁.afterFailure rfl (.inl trivial) (.inl trivial)
    obtain ⟨u, hu, hr, hune⟩ := failure_reads hne herror
    obtain ⟨u', hu', hr', hune'⟩ := failure_reads hne' herror'
    have hlen := length_eq_of_reads hs hafter hr hr'
    obtain ⟨os', s₂', bounds, hruns, hos, ht, ht'⟩ :=
      ih hafter (hi.reads hr) (hlen ▸ hi'.reads hr')
    have := List.length_pos_iff.2 hune
    exact ⟨_, _, _, .failure hne' herror' hruns, .cons he hos,
      ht.cons (by omega) (.failure hi herror hu),
      ht'.cons (by omega) (hlen ▸ .failure hi' herror' hu')⟩

end

/-! ## Sources with the same tokens -/

theorem Runs.unique {d : Deeper} {s s₁ s₁' : State} {os os' : List Outcome} (h : Runs d s os s₁)
    (h' : Runs d s os' s₁') : os = os' ∧ s₁ = s₁' := by
  induction h generalizing os' s₁' with
  | done hrest =>
    cases h' with
    | done _ => exact ⟨rfl, rfl⟩
    | statement hne _ _ => exact absurd hrest hne
    | failure hne _ _ => exact absurd hrest hne
  | statement hne hok _ ih =>
    cases h' with
    | done hrest => exact absurd hrest hne
    | statement _ hok' h' =>
      obtain ⟨rfl, rfl⟩ : _ ∧ _ := by simpa using hok.symm.trans hok'
      obtain ⟨rfl, rfl⟩ := ih h'
      exact ⟨rfl, rfl⟩
    | failure _ herror' _ => cases hok.symm.trans herror'
  | failure hne herror _ ih =>
    cases h' with
    | done hrest => exact absurd hrest hne
    | statement _ hok' _ => cases herror.symm.trans hok'
    | failure _ herror' h' =>
      obtain ⟨rfl, rfl⟩ : _ ∧ _ := by simpa using herror.symm.trans herror'
      obtain ⟨rfl, rfl⟩ := ih h'
      exact ⟨rfl, rfl⟩

section
variable {os os' : List Outcome} (h : List.Forall₂ placeless.SameOutcome os os')
include h

theorem erase_eq_of_sameOutcome : (os.filterMap statementOf?).map Statement.erase =
    (os'.filterMap statementOf?).map Statement.erase := by
  induction h with
  | nil => rfl
  | @cons o o' os os' ho _ ih =>
    rw [List.filterMap_cons, List.filterMap_cons]
    match o, o', ho with
    | .ok st, .ok st', ho => exact List.cons_eq_cons.2 ⟨ho, ih⟩
    | .error _, .error _, _ => exact ih

theorem message_eq_of_sameOutcome : (os.filterMap errorOf?).map Diagnostic.message =
    (os'.filterMap errorOf?).map Diagnostic.message := by
  induction h with
  | nil => rfl
  | @cons o o' os os' ho _ ih =>
    rw [List.filterMap_cons, List.filterMap_cons]
    match o, o', ho with
    | .ok _, .ok _, _ => exact ih
    | .error _, .error _, ⟨fault, _, _, _, rfl, rfl⟩ => exact List.cons_eq_cons.2 ⟨rfl, ih⟩

theorem isOk_eq_of_sameOutcome : os.map Except.isOk = os'.map Except.isOk := by
  induction h with
  | nil => rfl
  | @cons o o' os os' ho _ ih =>
    match o, o', ho with
    | .ok _, .ok _, _ => exact List.cons_eq_cons.2 ⟨rfl, ih⟩
    | .error _, .error _, _ => exact List.cons_eq_cons.2 ⟨rfl, ih⟩

end

/-- Sources whose tokens agree in kind and text, comments left out, have the same trees and the same
messages; the same stretches of tokens become statements and errors. -/
theorem parse_layout {source source' : String}
    (h : (significant source).map Token.phrase = (significant source').map Token.phrase) :
    (parse source).body.map Statement.erase = (parse source').body.map Statement.erase ∧
    (parse source).errors.map Diagnostic.message = (parse source').errors.map Diagnostic.message ∧
    ∃ bounds os os', Tiles source 0 bounds os ∧ Tiles source' 0 bounds os' ∧
      (parse source).body = os.filterMap statementOf? ∧
      (parse source).errors = os.filterMap errorOf? ∧
      (parse source').body = os'.filterMap statementOf? ∧
      (parse source').errors = os'.filterMap errorOf? ∧
      os.map Except.isOk = os'.map Except.isOk := by
  obtain ⟨os, s, hruns, hparse⟩ := parseWith_runs nestingLimit source
  obtain ⟨os', s', hruns', hparse'⟩ := parseWith_runs nestingLimit source'
  have hs : placeless.Along (startOf source) (startOf source') := by
    refine ⟨aligned_of_phrases ?_, fun _ => rfl⟩
    rw [significant_eq, significant_eq, List.map_append, List.map_append] at h
    exact (List.append_inj' h rfl).1
  have hi : ∀ source, StandsAt source (startOf source) 0 :=
    fun source => ⟨Nat.zero_le _, by rw [List.drop_zero], rfl⟩
  obtain ⟨os'', s'', bounds, hruns'', hos, ht, ht'⟩ := hruns.in_step hs (hi source) (hi source')
  obtain ⟨rfl, -⟩ := hruns'.unique hruns''
  rw [parse, parse, hparse, hparse']
  exact ⟨erase_eq_of_sameOutcome hos, message_eq_of_sameOutcome hos, bounds, os, os', ht, ht', rfl,
    rfl, rfl, rfl, isOk_eq_of_sameOutcome hos⟩

/-- A stray operator in front of a statement, on one line and on two with a comment between them. -/
theorem parse_layout_comment :
    (parse "= ; x;").body.map Statement.erase =
      (parse "=/* x; */;\nx ;").body.map Statement.erase ∧
    (parse "= ; x;").errors.map Diagnostic.message =
      (parse "=/* x; */;\nx ;").errors.map Diagnostic.message :=
  have h := @parse_layout "= ; x;" "=/* x; */;\nx ;" (by decide +kernel)
  ⟨h.1, h.2.1⟩

end Parse

end JsSyntax
