import JsSyntax.Parse.Function
import JsSyntax.Proofs.Grammar.Phrases
import JsSyntax.Proofs.Parse.Loops

/-! # Soundness of blocks and functions

`Parses m n`: when the routine `m` succeeds, what it has read is a phrase of the nonterminal `n`,
and what it returns is the tree of that phrase. Here for the routines of `Parse/Function`, given
the same of the routines one level deeper (`Deeper.Sound`).
-/

set_option autoImplicit false

namespace JsSyntax

open Grammar

namespace Parse

/-- The routine reads phrases of the nonterminal and returns their trees. -/
def Parses (n : Nonterminal) (m : ParseM (n.Node Span)) : Prop :=
  Yields m (Derives Reading.spanned n)

/-- A routine that is only called in front of certain tokens. -/
def ParsesAt (P : State → Prop) (n : Nonterminal) (m : ParseM (n.Node Span)) : Prop :=
  ∀ ⦃s a s'⦄, P s → m s = .ok a s' → ∃ u, s.Reads u s' ∧ Derives Reading.spanned n u a

/-- The routines of a level of nesting are sound. -/
structure Deeper.Sound (d : Deeper) : Prop where
  statement : Parses .statement d.statement
  assignment : Parses .assignment d.assignment
  unary : Parses .unary d.unary
  construction : ParsesAt (fun s => Reading.spanned.IsKeyword s.current "new") .primary
    d.construction

theorem Deeper.exhausted_sound : Deeper.exhausted.Sound :=
  ⟨fun _ _ _ h => absurd h fail_ne_ok, fun _ _ _ h => absurd h fail_ne_ok,
    fun _ _ _ h => absurd h fail_ne_ok, fun _ _ _ _ h => absurd h fail_ne_ok⟩

/-! ## Parameters -/

theorem names_yields (place : NamePlace) :
    Yields (collect (commaItem (identifier place))) (Names Reading.spanned) := by
  apply collect_yields
  apply commaItem_collects (E := fun u id => ∃ t, u = [t] ∧ Reading.spanned.IsIdentifier t ∧
    id = Reading.spanned.ident t t.span)
  · intro s id s' h
    obtain ⟨t, hr, hi, hid⟩ := identifier_reads h
    exact ⟨[t], hr, t, rfl, hi, hid⟩
  · rintro u id ⟨t, rfl, hi, rfl⟩
    exact .one hi (covers_single t)
  · rintro u id comma v ids ⟨t, rfl, hi, rfl⟩ hc hv
    exact .more hi (covers_single t) hc hv

theorem parameters_yields : Yields parameters (Parameters Reading.spanned) := by
  intro s ps s' h
  simp only [parameters, isMarkNext_bind, ite_bind, bind_eq_ok, pure_eq_ok] at h
  obtain ⟨_, s₁, hstart, ids, s₂, hids, _, s₃, hstop, rfl, rfl⟩ := h
  obtain ⟨t, hr, ht⟩ := require_reads hstart
  obtain ⟨t', hr', ht'⟩ := require_reads hstop
  split at hids
  · obtain ⟨rfl, rfl⟩ := pure_eq_ok.mp hids
    exact ⟨_, hr.trans hr', .none ht ht'⟩
  · obtain ⟨u, hu, hn⟩ := names_yields _ hids
    exact ⟨_, (hr.trans hu).trans hr', .some ht hn ht'⟩

/-! ## The head of a function -/

/-- A function starts at the current token. -/
def AtFunction (s : State) : Prop :=
  (s.current.isKeyword "function" ||
    (s.current.isKeyword "async" && s.second.isKeyword "function")) = true

/-- The keywords that start a function, up to `function` itself. -/
theorem functionStart_reads {s s₁ s₂ : State} {async : Bool} {t : Token} (hs : AtFunction s)
    (hasync : acceptKeyword "async" s = .ok async s₁) (hadv : advance s₁ = .ok t s₂) :
    ∃ u, s.Reads (u ++ [t]) s₂ ∧ Flag (Reading.spanned.IsKeyword · "async") async u ∧
      Reading.spanned.IsKeyword t "function" := by
  unfold AtFunction at hs
  simp only [Bool.or_eq_true, Bool.and_eq_true] at hs
  have key : ∀ {u}, s.Reads u s₁ → Flag (Reading.spanned.IsKeyword · "async") async u →
      s₁.current.isKeyword "function" = true → ∃ u, s.Reads (u ++ [t]) s₂ ∧
        Flag (Reading.spanned.IsKeyword · "async") async u ∧
        Reading.spanned.IsKeyword t "function" := by
    intro u hu hf hk
    have hk := Token.is_iff.1 hk
    obtain ⟨rfl, hr⟩ := advance_reads_of_kind hadv hk.1 (by decide)
    exact ⟨u, hu.trans hr, hf, hk⟩
  cases acceptKeyword_accepted hasync with
  | yes hp hr =>
    have hne : s.current.isKeyword "function" ≠ true := by
      intro h
      have h := (Token.is_iff.1 h).2.symm.trans hp.2
      exact absurd h (by decide)
    refine key hr (.on hp) ?_
    rw [hr.second]
    exact (hs.resolve_left hne).2
  | no hp =>
    refine key (.refl s) .off (hs.resolve_right fun h => hp ?_)
    exact Token.is_iff.1 h.1

theorem functionName_reads {s s₁ : State} {id : Option (Ident Span)}
    (h : (if s.current.kind = .identifier then some <$> identifier .variable else pure none :
      ParseM (Option (Ident Span))) s = .ok id s₁) :
    ∃ u, s.Reads u s₁ ∧ FunctionName Reading.spanned u id := by
  split at h
  · simp only [map_eq_ok] at h
    obtain ⟨a, hid, rfl⟩ := h
    obtain ⟨t, hr, hi, rfl⟩ := identifier_reads hid
    exact ⟨_, hr, .some hi (covers_single t)⟩
  · rw [pure_eq_ok] at h
    obtain ⟨rfl, rfl⟩ := h
    exact ⟨[], .refl s, .none⟩

/-! ## Bodies -/

section
variable {d : Deeper} (hd : d.Sound)
include hd

theorem block_parses : Parses .block (block d) := by
  intro s b s' h
  simp only [block, peek_bind, spanFrom_bind, bind_eq_ok, pure_eq_ok] at h
  obtain ⟨_, s₁, hstart, body, s₂, hbody, _, s₃, hstop, rfl, rfl⟩ := h
  obtain ⟨t, hr, ht⟩ := require_reads hstart
  have hsteps : Collects (upTo "\x7d" do return .more (← d.statement))
      (Derives Reading.spanned .statements) := by
    refine upTo_collects .noStatements (more_collects fun s st s' h => ?_)
    obtain ⟨u, hu, hst⟩ := hd.statement h
    exact ⟨u, hu, hst.ne_nil rfl, fun v sts hv => .moreStatements hst hv⟩
  obtain ⟨u, hu, hsts⟩ := collect_yields hsteps hbody
  obtain ⟨t', hr', ht'⟩ := require_reads hstop
  have hr := (hr.trans hu).trans hr'
  exact ⟨_, hr, .block ht hsts ht' (hr.covers (by simp))⟩

theorem methodFunction_parses (async generator : Bool) :
    Parses (.method async generator) (methodFunction d async generator) := by
  intro s f s' h
  simp only [methodFunction, peek_bind, spanFrom_bind, bind_eq_ok, pure_eq_ok] at h
  obtain ⟨params, s₁, hparams, body, s₂, hbody, rfl, rfl⟩ := h
  obtain ⟨u, hu, hps⟩ := parameters_yields hparams
  obtain ⟨v, hv, hb⟩ := block_parses hd hbody
  have hr := hu.trans hv
  exact ⟨_, hr, .method hps hb (hr.covers (by simp [hps.ne_nil]))⟩

theorem function_parses : ParsesAt AtFunction .function (function d) := by
  intro s f s' hs h
  simp only [function, peek_bind, spanFrom_bind, ite_bind, bind_eq_ok, discard_eq_ok,
    pure_eq_ok] at h
  obtain ⟨async, s₁, hasync, _, s₂, ⟨t, hadv⟩, generator, s₃, hgenerator, id, s₄, hid,
    params, s₅, hparams, body, s₆, hbody, rfl, rfl⟩ := h
  obtain ⟨u, hr, hflag, ht⟩ := functionStart_reads hs hasync hadv
  obtain ⟨v, hv, hflag'⟩ := (acceptOperator_accepted hgenerator).flag
  obtain ⟨w, hw, hname⟩ := functionName_reads hid
  obtain ⟨x, hx, hps⟩ := parameters_yields hparams
  obtain ⟨y, hy, hb⟩ := block_parses hd hbody
  have hr := (((hr.trans hv).trans hw).trans hx).trans hy
  exact ⟨_, hr, .function hflag ht hflag' hname hps hb (hr.covers (by simp))⟩

end

end Parse

end JsSyntax
