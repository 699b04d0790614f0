import JsSyntax.Parse.Statement
import JsSyntax.Proofs.Sound.Expression

/-! # Soundness of statements

With the statements the circle of the routines closes: each level of nesting is sound because the
level below it is (`level_sound`).
-/

set_option autoImplicit false

namespace JsSyntax

open Grammar

namespace Parse

section
variable {d : Deeper} (hd : d.Sound)
include hd

/-! ## Declarations -/

theorem variableDeclarator_parses : Parses .declarator (variableDeclarator d) := by
  intro s x s' h
  simp only [variableDeclarator, spanFrom_bind, ite_bind, bind_eq_ok, pure_eq_ok] at h
  obtain ⟨id, s₁, hid, b, s₂, heq, init, s₃, hinit, rfl, rfl⟩ := h
  obtain ⟨t, hr, ht, rfl⟩ := identifier_reads hid
  have hcurrent : t.span = s.current.span := by
    have := hr.current (by simp)
    simp only [List.head?_cons, Option.some.injEq] at this
    rw [this]
  cases acceptOperator_accepted heq with
  | yes hp hr' =>
    simp only [if_true, map_eq_ok] at hinit
    obtain ⟨e, he, rfl⟩ := hinit
    obtain ⟨u, hu, hde⟩ := hd.assignment he
    have hr := (hr.trans hr').trans hu
    refine ⟨_, hr, .initDeclarator ht (covers_single t) hp hde ?_⟩
    show Reading.spanned.Covers _ (s₃.spanFrom t.span)
    rw [hcurrent]
    exact hr.covers (by simp)
  | no =>
    obtain ⟨rfl, rfl⟩ := pure_eq_ok.mp hinit
    refine ⟨_, hr, .bareDeclarator ht (covers_single t) ?_⟩
    show Reading.spanned.Covers _ (s₁.spanFrom t.span)
    rw [hcurrent]
    exact hr.covers (by simp)

/-- The declarators, and the span from the keyword to their end. -/
theorem variableList_reads {kind : VariableKind} {start : Span} {s s' : State}
    {x : VariableDeclaration Span} (h : variableList d kind start s = .ok x s') :
    ∃ u ds, s.Reads u s' ∧ Derives Reading.spanned .declarators u ds ∧
      x = ⟨kind, ds, s'.spanFrom start⟩ := by
  simp only [variableList, spanFrom_bind, bind_eq_ok, pure_eq_ok] at h
  obtain ⟨ds, s₁, hds, rfl, rfl⟩ := h
  have hsteps : Collects (commaItem (variableDeclarator d))
      (Derives Reading.spanned .declarators) :=
    commaItem_collects (variableDeclarator_parses hd) .oneDeclarator .moreDeclarators
  obtain ⟨u, hu, hds⟩ := collect_yields hsteps hds
  exact ⟨u, ds, hu, hds, rfl⟩

theorem variableDeclaration_reads {kind : VariableKind} {start : Span} {s s' : State}
    {x : VariableDeclaration Span} (h : variableDeclaration d kind start s = .ok x s') :
    ∃ u t ds, s.Reads (u ++ [t]) s' ∧ Derives Reading.spanned .declarators u ds ∧
      Reading.spanned.IsMark t ";" ∧ x = ⟨kind, ds, s'.spanFrom start⟩ := by
  simp only [variableDeclaration, spanFrom_bind, bind_eq_ok, pure_eq_ok] at h
  obtain ⟨x, s₁, hx, _, s₂, hstop, rfl, rfl⟩ := h
  obtain ⟨u, ds, hu, hds, rfl⟩ := variableList_reads hd hx
  obtain ⟨t, ht, hm⟩ := require_reads hstop
  exact ⟨u, t, ds, hu.trans ht, hds, hm, rfl⟩

/-! ## Classes -/

/-- The methods of a class; a semicolon between them is skipped. -/
theorem members_yields : Yields (collect (upTo "\x7d" do
    if ← acceptMark ";" then return .more none else return .more (some (← methodDefinition d))))
    (fun u xs => Derives Reading.spanned .members u (xs.filterMap id)) := by
  have key : ∀ {s x s'}, (do
      if ← acceptMark ";" then return .more none
      else return .more (some (← methodDefinition d)) :
        ParseM (Item (Option (MethodDefinition Span)))) s = .ok x s' →
      (x = .more none ∧ ∃ t, s.Reads [t] s' ∧ Reading.spanned.IsMark t ";") ∨
        ∃ m, x = .more (some m) ∧ methodDefinition d s = .ok m s' := by
    intro s x s' h
    obtain ⟨b, s₁, hsemi, h⟩ := bind_eq_ok.mp h
    cases acceptMark_accepted hsemi with
    | yes hm hr =>
      obtain ⟨rfl, rfl⟩ := pure_eq_ok.mp h
      exact .inl ⟨rfl, _, hr, hm⟩
    | no =>
      simp only [Bool.false_eq_true, if_false, bind_eq_ok, pure_eq_ok] at h
      obtain ⟨m, _, hmethod, rfl, rfl⟩ := h
      exact .inr ⟨m, rfl, hmethod⟩
  refine collect_yields (upTo_collects .noMembers ⟨?_, ?_, ?_⟩)
  · intro s s' h
    obtain ⟨hx, -⟩ | ⟨m, hx, -⟩ := key h <;> cases hx
  · intro s x s' h
    obtain ⟨hx, -⟩ | ⟨m, hx, -⟩ := key h <;> cases hx
  · intro s x s' h
    obtain ⟨hx, t, hr, ht⟩ | ⟨m, hx, hmethod⟩ := key h <;> cases hx
    · exact ⟨[t], hr, by simp, fun v xs hv => .skippedMark ht hv⟩
    · obtain ⟨u, hu, hdm⟩ := methodDefinition_parses hd hmethod
      exact ⟨u, hu, hdm.ne_nil rfl, fun v xs hv => .moreMembers hdm hv⟩

theorem classBody_parses : Parses .classBody (classBody d) := by
  intro s body s' h
  simp only [classBody, peek_bind, spanFrom_bind, bind_eq_ok, pure_eq_ok] at h
  obtain ⟨_, s₁, hstart, members, s₂, hmembers, _, s₃, hstop, rfl, rfl⟩ := h
  obtain ⟨t, hr, ht⟩ := require_reads hstart
  obtain ⟨u, hu, hms⟩ := members_yields hd hmembers
  obtain ⟨t', hr', ht'⟩ := require_reads hstop
  have hr := (hr.trans hu).trans hr'
  exact ⟨_, hr, .classBody ht hms ht' (hr.covers (by simp))⟩

theorem heritage_reads {s s₁ s' : State} {b : Bool} {x : Option (Expr Span)}
    (hword : acceptWord "extends" s = .ok b s₁)
    (h : (if b then some <$> chain d else pure none : ParseM (Option (Expr Span))) s₁ = .ok x s') :
    ∃ u, s.Reads u s' ∧ Derives Reading.spanned .heritage u x := by
  cases acceptWord_accepted hword with
  | yes hw hr =>
    simp only [if_true, map_eq_ok] at h
    obtain ⟨e, he, rfl⟩ := h
    obtain ⟨u, hu, hde⟩ := chain_parses hd he
    exact ⟨_, hr.trans hu, .heritage hw hde⟩
  | no =>
    obtain ⟨rfl, rfl⟩ := pure_eq_ok.mp h
    exact ⟨[], .refl s, .noHeritage⟩

theorem classDeclaration_parses :
    ParsesAt (fun s => Reading.spanned.IsKeyword s.current "class") .classDeclaration
      (classDeclaration d) := by
  intro s c s' hs h
  simp only [classDeclaration, peek_bind, spanFrom_bind, ite_bind, bind_eq_ok, discard_eq_ok,
    pure_eq_ok] at h
  obtain ⟨_, s₁, ⟨_, hadv⟩, id, s₂, hid, b, s₃, hword, superClass, s₄, hsuper, body, s₅, hbody,
    rfl, rfl⟩ := h
  have hr := (advance_reads_of_kind hadv hs.1 (by decide)).2
  obtain ⟨t, ht, hi, rfl⟩ := identifier_reads hid
  obtain ⟨u, hu, hheritage⟩ := heritage_reads hd hword hsuper
  obtain ⟨v, hv, hdb⟩ := classBody_parses hd hbody
  have hr := ((hr.trans ht).trans hu).trans hv
  exact ⟨_, hr, .classDeclaration hs hi (covers_single t) hheritage hdb (hr.covers (by simp))⟩

/-! ## Control flow -/

theorem ifStatement_parses :
    ParsesAt (fun s => Reading.spanned.IsKeyword s.current "if") .statement (ifStatement d) := by
  intro s st s' hs h
  simp only [ifStatement, peek_bind, spanFrom_bind, ite_bind, bind_eq_ok, discard_eq_ok,
    pure_eq_ok] at h
  obtain ⟨_, s₁, ⟨_, hadv⟩, _, s₂, hstart, test, s₃, htest, _, s₄, hstop, consequent, s₅,
    hconsequent, b, s₆, helse, alternate, s₇, halternate, rfl, rfl⟩ := h
  have hr := (advance_reads_of_kind hadv hs.1 (by decide)).2
  obtain ⟨t, ht, hm⟩ := require_reads hstart
  obtain ⟨u, hu, hdt⟩ := hd.assignment htest
  obtain ⟨t', ht', hm'⟩ := require_reads hstop
  obtain ⟨v, hv, hdc⟩ := hd.statement hconsequent
  have hr := (((hr.trans ht).trans hu).trans ht').trans hv
  cases acceptKeyword_accepted helse with
  | yes hk hr' =>
    simp only [if_true, map_eq_ok] at halternate
    obtain ⟨a, ha, rfl⟩ := halternate
    obtain ⟨w, hw, hda⟩ := hd.statement ha
    have hr := (hr.trans hr').trans hw
    exact ⟨_, hr, .ifElseStatement hs hm hdt hm' hdc hk hda (hr.covers (by simp))⟩
  | no =>
    obtain ⟨rfl, rfl⟩ := pure_eq_ok.mp halternate
    exact ⟨_, hr, .ifStatement hs hm hdt hm' hdc (hr.covers (by simp))⟩

theorem forInit_parses : Parses .forInit (forInit d) := by
  intro s x s' h
  simp only [forInit, isMarkNext_bind] at h
  split at h
  · obtain ⟨rfl, rfl⟩ := pure_eq_ok.mp h
    exact ⟨[], .refl _, .noInit⟩
  · simp only [peek_bind, bind_eq_ok] at h
    obtain ⟨y, s₁, hkind, h⟩ := h
    obtain ⟨rfl, rfl⟩ | ⟨kind, rfl, -, hr, ht⟩ := acceptOneOf_reads (by decide) hkind
    · simp only [bind_eq_ok, pure_eq_ok] at h
      obtain ⟨e, s₂, he, rfl, rfl⟩ := h
      obtain ⟨u, hu, hde⟩ := hd.assignment he
      exact ⟨u, hu, .exprInit hde⟩
    · simp only [bind_eq_ok, pure_eq_ok] at h
      obtain ⟨x, s₂, hx, rfl, rfl⟩ := h
      obtain ⟨u, ds, hu, hds, rfl⟩ := variableList_reads hd hx
      have hr := hr.trans hu
      exact ⟨_, hr, .varsInit ht hds (hr.covers (by simp))⟩

theorem optionalBefore_parses (mark : String) : Parses .clause (optionalBefore d mark) := by
  intro s x s' h
  simp only [optionalBefore, isMarkNext_bind] at h
  split at h
  · obtain ⟨rfl, rfl⟩ := pure_eq_ok.mp h
    exact ⟨[], .refl _, .noClause⟩
  · obtain ⟨e, he, rfl⟩ := map_eq_ok.mp h
    obtain ⟨u, hu, hde⟩ := hd.assignment he
    exact ⟨u, hu, .clause hde⟩

theorem forStatement_parses :
    ParsesAt (fun s => Reading.spanned.IsKeyword s.current "for") .statement (forStatement d) := by
  intro s st s' hs h
  simp only [forStatement, peek_bind, spanFrom_bind, bind_eq_ok, discard_eq_ok, pure_eq_ok] at h
  obtain ⟨_, s₁, ⟨_, hadv⟩, _, s₂, hstart, init, s₃, hinit, _, s₄, hsemi, test, s₅, htest, _, s₆,
    hsemi', update, s₇, hupdate, _, s₈, hstop, body, s₉, hbody, rfl, rfl⟩ := h
  have hr := (advance_reads_of_kind hadv hs.1 (by decide)).2
  obtain ⟨t₁, ht₁, hm₁⟩ := require_reads hstart
  obtain ⟨u, hu, hdi⟩ := forInit_parses hd hinit
  obtain ⟨t₂, ht₂, hm₂⟩ := require_reads hsemi
  obtain ⟨v, hv, hdt⟩ := optionalBefore_parses hd _ htest
  obtain ⟨t₃, ht₃, hm₃⟩ := require_reads hsemi'
  obtain ⟨w, hw, hdu⟩ := optionalBefore_parses hd _ hupdate
  obtain ⟨t₄, ht₄, hm₄⟩ := require_reads hstop
  obtain ⟨x, hx, hdb⟩ := hd.statement hbody
  have hr := (((((((hr.trans ht₁).trans hu).trans ht₂).trans hv).trans ht₃).trans hw).trans
    ht₄).trans hx
  exact ⟨_, hr, .forStatement hs hm₁ hdi hm₂ hdt hm₃ hdu hm₄ hdb (hr.covers (by simp))⟩

theorem whileStatement_parses :
    ParsesAt (fun s => Reading.spanned.IsKeyword s.current "while") .statement
      (whileStatement d) := by
  intro s st s' hs h
  simp only [whileStatement, peek_bind, spanFrom_bind, bind_eq_ok, discard_eq_ok, pure_eq_ok] at h
  obtain ⟨_, s₁, ⟨_, hadv⟩, _, s₂, hstart, test, s₃, htest, _, s₄, hstop, body, s₅, hbody,
    rfl, rfl⟩ := h
  have hr := (advance_reads_of_kind hadv hs.1 (by decide)).2
  obtain ⟨t, ht, hm⟩ := require_reads hstart
  obtain ⟨u, hu, hdt⟩ := hd.assignment htest
  obtain ⟨t', ht', hm'⟩ := require_reads hstop
  obtain ⟨v, hv, hdb⟩ := hd.statement hbody
  have hr := (((hr.trans ht).trans hu).trans ht').trans hv
  exact ⟨_, hr, .whileStatement hs hm hdt hm' hdb (hr.covers (by simp))⟩

theorem returnStatement_parses :
    ParsesAt (fun s => Reading.spanned.IsKeyword s.current "return") .statement
      (returnStatement d) := by
  intro s st s' hs h
  simp only [returnStatement, peek_bind, spanFrom_bind, bind_eq_ok, discard_eq_ok,
    pure_eq_ok] at h
  obtain ⟨_, s₁, ⟨_, hadv⟩, argument, s₂, hargument, _, s₃, hstop, rfl, rfl⟩ := h
  have hr := (advance_reads_of_kind hadv hs.1 (by decide)).2
  obtain ⟨u, hu, hda⟩ := optionalBefore_parses hd _ hargument
  obtain ⟨t, ht, hm⟩ := require_reads hstop
  have hr := (hr.trans hu).trans ht
  exact ⟨_, hr, .returnStatement hs hda hm (hr.covers (by simp))⟩

theorem expressionStatement_parses : Parses .statement (expressionStatement d) := by
  intro s st s' h
  simp only [expressionStatement, peek_bind, spanFrom_bind, bind_eq_ok, pure_eq_ok] at h
  obtain ⟨e, s₁, he, _, s₂, hstop, rfl, rfl⟩ := h
  obtain ⟨u, hu, hde⟩ := hd.assignment he
  obtain ⟨t, ht, hm⟩ := require_reads hstop
  have hr := hu.trans ht
  exact ⟨_, hr, .expressionStatement hde hm (hr.covers (by simp))⟩

/-! ## Any statement -/

theorem keywordStatement_parses :
    ParsesAt (fun s => s.current.kind = .keyword) .statement (keywordStatement d) := by
  intro s st s' hs h
  simp only [keywordStatement, peek_bind, isFunctionNext_bind] at h
  split at h
  · rename_i hf
    simp only [bind_eq_ok, pure_eq_ok] at h
    obtain ⟨f, _, hfun, rfl, rfl⟩ := h
    obtain ⟨u, hu, hdf⟩ := function_parses hd hf hfun
    exact ⟨u, hu, .functionStatement hdf⟩
  split at h
  · rename_i hv
    simp only [bind_eq_ok, pure_eq_ok] at h
    obtain ⟨c, _, hclass, rfl, rfl⟩ := h
    obtain ⟨u, hu, hdc⟩ := classDeclaration_parses hd ⟨hs, hv⟩ hclass
    exact ⟨u, hu, .classStatement hdc⟩
  split at h
  · rename_i hv
    exact ifStatement_parses hd ⟨hs, hv⟩ h
  split at h
  · rename_i hv
    exact forStatement_parses hd ⟨hs, hv⟩ h
  split at h
  · rename_i hv
    exact whileStatement_parses hd ⟨hs, hv⟩ h
  split at h
  · rename_i hv
    exact returnStatement_parses hd ⟨hs, hv⟩ h
  · exact expressionStatement_parses hd h

theorem statement_parses : Parses .statement (statement d) := by
  intro s st s' h
  simp only [statement, peek_bind, emit_bind, bind_eq_ok] at h
  obtain ⟨x, s₁, hkind, h⟩ := h
  generalize hs₀ : ({ s with events := _ } : State) = s₀ at hkind
  have hs : s.Reads [] s₀ := hs₀ ▸ ⟨rfl, rfl, rfl⟩
  have hcurrent : s₀.current = s.current := hs₀ ▸ rfl
  clear hs₀
  suffices h : ∃ u, s₀.Reads u s' ∧ Derives Reading.spanned .statement u st by
    obtain ⟨u, hu, hst⟩ := h
    exact ⟨u, hs.trans hu, hst⟩
  obtain ⟨rfl, rfl⟩ | ⟨kind, rfl, -, hr, ht⟩ := acceptOneOf_reads (by decide) hkind
  · simp only [← hcurrent] at h
    split at h
    · rename_i hk
      exact keywordStatement_parses hd hk h
    split at h
    · simp only [bind_eq_ok, pure_eq_ok] at h
      obtain ⟨b, _, hblock, rfl, rfl⟩ := h
      obtain ⟨u, hu, hdb⟩ := block_parses hd hblock
      exact ⟨u, hu, .blockStatement hdb⟩
    split at h
    · rename_i hm
      have hm := Token.is_iff.1 hm
      simp only [bind_eq_ok, discard_eq_ok, pure_eq_ok] at h
      obtain ⟨_, _, ⟨_, hadv⟩, rfl, rfl⟩ := h
      exact ⟨_, (advance_reads_of_kind hadv hm.1 (by decide)).2, .emptyStatement hm (covers_single _)⟩
    · exact expressionStatement_parses hd h
  · simp only [bind_eq_ok, pure_eq_ok] at h
    obtain ⟨x, _, hx, rfl, rfl⟩ := h
    obtain ⟨u, t, ds, hu, hds, hm, rfl⟩ := variableDeclaration_reads hd hx
    have hr := hr.trans hu
    rw [← hcurrent]
    simp only [← List.append_assoc] at hr
    exact ⟨_, hr, .varsStatement ht hds hm (hr.covers (by simp))⟩

end

/-! ## Levels -/

/-- What the parser reads, at every level of nesting, is a phrase of the grammar. -/
theorem level_sound : ∀ n, (level n).Sound
  | 0 => Deeper.exhausted_sound
  | n + 1 =>
    ⟨statement_parses (level_sound n), assignment_parses (level_sound n),
      unary_parses (level_sound n), construction_parses (level_sound n)⟩

end Parse

end JsSyntax
