import JsSyntax.Proofs.Layout
import JsSyntax.Proofs.RoundTrip.Consumes
import JsSyntax.Proofs.RoundTrip.Loops
import JsSyntax.Proofs.RoundTrip.Tree

/-! # What is read once is read everywhere

`Once m u rest P`: in some state the routine `m` reads the tokens `u` in front of `rest`, and what
it returns satisfies `P`. A block is read in front of anything when it is read once, and an
expression in front of a mark whatever follows the mark, since the mark is the last token that is
looked at (`Once.block_consumes`, `Once.before_mark`).
-/

set_option autoImplicit false

namespace JsSyntax

/-- The block without its layout. -/
def Block.erase (b : Block Span) : Block Unit := b.map fun _ => ()

namespace Parse

variable {α : Type}

def Once (m : ParseM α) (u rest : List Token) (P : α → Prop) : Prop :=
  ∃ s a s', s.rest = u ++ rest ∧ m s = .ok a s' ∧ s'.rest = rest ∧ P a

/-- Wherever tokens of these kinds and texts stand in front of `rest`, the routine reads them and no
more, and what it returns satisfies `P`. -/
def Everywhere (m : ParseM α) (u rest : List Token) (P : α → Prop) : Prop :=
  ∀ ⦃s : State⦄ ⦃u' : List Token⦄, s.rest = u' ++ rest → u'.map Token.phrase = u.map Token.phrase →
    ∃ a s', m s = .ok a s' ∧ s'.rest = rest ∧ P a

theorem Everywhere.consumes {m : ParseM α} {u rest : List Token} {P : α → Prop}
    (h : Everywhere m u rest P) : Consumes m u rest P :=
  fun _ hs => h hs rfl

theorem Consumes.once {m : ParseM α} {u rest : List Token} {P : α → Prop}
    (h : Consumes m u rest P) : Once m u rest P := by
  let s : State := ⟨none, u ++ rest, default, []⟩
  obtain ⟨a, s', hok, hs', ha⟩ := h (s := s) rfl
  exact ⟨s, a, s', rfl, hok, hs', ha⟩

/-- In front of the same tokens, what is read once is read everywhere. -/
theorem Once.everywhere {N : Type → Type} (map : {σ τ : Type} → (σ → τ) → N σ → N τ)
    {m : ParseM (N Span)} [hm : Moves m]
    (hfollows : placeless.Follows .inside .inside (fun _ _ => True) (placeless.Alike map) m m)
    {u rest : List Token} {x : N Unit} (h : Once m u rest fun a => map (fun _ => ()) a = x) :
    Everywhere m u rest fun a => map (fun _ => ()) a = x := by
  intro s' u' hs' hu
  obtain ⟨s, a, s₁, hs, hok, hs₁, rfl⟩ := h
  have halong : placeless.Along s s' := by
    refine ⟨aligned_of_phrases ?_, fun _ => rfl⟩
    rw [hs, hs', List.map_append, List.map_append, hu]
  have hagree := hfollows halong (.inl trivial) trivial
  rw [hok] at hagree
  obtain ⟨a', s₁', hok', ha, halong₁, -⟩ := hagree (.inl trivial)
  obtain ⟨v, hv⟩ := hm.ok hok'
  have hlength : s₁'.rest.length = rest.length := by rw [← length_eq_of_along halong₁, hs₁]
  obtain ⟨-, hrest⟩ := List.append_inj' (hv.rest.symm.trans hs') hlength
  exact ⟨a', s₁', hok', hrest, ha.symm⟩

/-- The same tokens in two places, with different tokens behind them. -/
def elsewhere (leftRest rightRest : List Token)
    (h : ∀ t ∈ rightRest.head?, ¬ t.isKeyword "else") : Alignment Unit :=
  .forked (fun _ => ()) (fun _ => ()) leftRest rightRest (fun _ => False) (fun _ _ => rfl) h

section
variable {leftRest rightRest : List Token} {h : ∀ t ∈ rightRest.head?, ¬ t.isKeyword "else"}

@[simp] theorem elsewhere_leftRest : (elsewhere leftRest rightRest h).leftRest = leftRest := rfl

@[simp] theorem elsewhere_rightRest : (elsewhere leftRest rightRest h).rightRest = rightRest := rfl

theorem along_elsewhere {s s' : State} {u : List Token} (hs : s.rest = u ++ leftRest)
    (hs' : s'.rest = u ++ rightRest) (hu : ∀ t ∈ u.getLast?, Alignment.Fence t) :
    (elsewhere leftRest rightRest h).Along s s' := by
  have hsame : List.Forall₂ (elsewhere leftRest rightRest h).Same u u :=
    List.forall₂_same.2 fun _ _ => ⟨rfl, rfl, rfl⟩
  refine ⟨?_, fun _ => rfl⟩
  rw [hs, hs']
  exact Alignment.Aligned.of_same hsame (.inr (.inr hu))

theorem not_inside_elsewhere {s : State} (hs : s.rest = leftRest) :
    ¬ (elsewhere leftRest rightRest h).At .inside s := by
  rintro (hj | hlt)
  · exact hj
  · rw [hs] at hlt
    exact Nat.lt_irrefl _ hlt

end

theorem fence_of_mark {t : Token} (h : t.kind = .punctuation) : Alignment.Fence t := by
  constructor <;> rw [h] <;> decide

theorem not_else_of_mark {t : Token} {rest : List Token} (h : t.kind = .punctuation) :
    ∀ x ∈ (t :: rest).head?, ¬ x.isKeyword "else" := by
  rintro x ⟨⟩
  simp [Token.isKeyword, Token.is, h]

/-! ## Expressions -/

/-- What stands behind the mark that an expression ends at has no say in what is read. -/
theorem Once.before_mark {n : Nat} {u rest : List Token} {c : Token} {e : Expr Unit}
    (h : Once (level n).assignment u [c] (·.erase = e)) (hc : c.kind = .punctuation)
    (hrest : ∀ t ∈ rest.head?, ¬ t.isKeyword "else") :
    Consumes (level n).assignment u (c :: rest) (·.erase = e) := by
  obtain ⟨s, a, s₁, hs, hok, hs₁, rfl⟩ := h
  intro s' hs'
  let A := elsewhere [] rest hrest
  have hfence : ∀ x ∈ (u ++ [c]).getLast?, Alignment.Fence x := by
    rw [List.getLast?_concat]
    rintro x ⟨⟩
    exact fence_of_mark hc
  have halong : A.Along s s' :=
    along_elsewhere (u := u ++ [c]) (by rw [hs, List.append_nil]) (by rw [hs']; simp) hfence
  have hfollows : A.Follows .inside .inside (fun _ _ => True) (A.Alike Expr.map)
      (level n).assignment (level n).assignment := (Alignment.level_deepens (.inl rfl)).assignment
  have hagree := hfollows halong (Alignment.At.inside_of_ne_nil rfl (by rw [hs]; simp)) trivial
  rw [hok] at hagree
  obtain ⟨a', s₁', hok', ha, halong₁, -⟩ :=
    hagree (Alignment.At.inside_of_ne_nil rfl (by rw [hs₁]; simp))
  have hlength : s₁'.rest.length = (c :: rest).length := by
    have hlength := halong₁.aligned.length
    rw [hs₁] at hlength
    simpa [A, Nat.add_comm] using hlength.symm
  obtain ⟨v, hv⟩ := (Deeper.Regular.assignment (d := level n)).ok hok'
  obtain ⟨-, hrest'⟩ := List.append_inj' (hv.rest.symm.trans hs') hlength
  exact ⟨a', s₁', hok', hrest', ha.symm⟩

/-! ## Blocks -/

/-- The next statement of a block. -/
def blockItem (d : Deeper) : ParseM (Item (Statement Span)) :=
  upTo "\x7d" do return .more (← d.statement)

section
variable {d : Deeper} {s s' : State}

theorem blockItem_stop (h : s.current.isPunctuation "\x7d") :
    blockItem d s = .ok .stop s := by
  rw [blockItem, upTo, isMarkNext_bind, if_pos h]
  rfl

theorem blockItem_more (h : s.current.isPunctuation "\x7d" = false) (hne : s.rest ≠ []) :
    blockItem d s = (Item.more <$> d.statement) s := by
  have hend : s.atEnd = false := by simpa [State.atEnd] using hne
  rw [blockItem, upTo, isMarkNext_bind, h, if_neg Bool.false_ne_true, atEnd_bind, hend,
    if_neg Bool.false_ne_true]
  rfl

theorem blockItem_cases {item : Item (Statement Span)} (h : blockItem d s = .ok item s') :
    (item = .stop ∧ s' = s) ∨ ∃ st, item = .more st ∧ d.statement s = .ok st s' ∧
      s.current.isPunctuation "\x7d" = false := by
  rw [blockItem, upTo, isMarkNext_bind] at h
  split at h
  · obtain ⟨rfl, rfl⟩ := pure_eq_ok.mp h
    exact .inl ⟨rfl, rfl⟩
  · next hmark =>
    rw [atEnd_bind] at h
    split at h
    · obtain ⟨rfl, rfl⟩ := pure_eq_ok.mp h
      exact .inl ⟨rfl, rfl⟩
    · simp only [bind_eq_ok, pure_eq_ok] at h
      obtain ⟨st, _, hok, rfl, rfl⟩ := h
      exact .inr ⟨st, rfl, hok, by simpa using hmark⟩

end

theorem collected_of_go {step : ParseM (Item α)} (hlt : ∀ {s a s'}, step s = .ok (.more a) s' →
    s'.rest.length < s.rest.length) : ∀ {fuel : List Token} {s s' : State} {as : List α},
    s.rest.length < fuel.length → collect.go step fuel s = .ok as s' → Collected step s as s'
  | [], _, _, _, hfuel, _ => absurd hfuel (Nat.not_lt_zero _)
  | _ :: fuel, s, s', as, hfuel, hgo => by
    simp only [collect.go, bind_eq_ok] at hgo
    obtain ⟨item, s₁, hstep, hgo⟩ := hgo
    cases item with
    | stop =>
      obtain ⟨rfl, rfl⟩ := pure_eq_ok.mp hgo
      exact .stop hstep
    | last a =>
      obtain ⟨rfl, rfl⟩ := pure_eq_ok.mp hgo
      exact .last hstep
    | more a =>
      simp only [bind_eq_ok, pure_eq_ok] at hgo
      obtain ⟨as, _, hgo, rfl, rfl⟩ := hgo
      have hless := hlt hstep
      rw [List.length_cons] at hfuel
      exact .more hstep hless (collected_of_go hlt (by omega) hgo)

section
variable {d : Deeper} [d.Regular] {s s₁ : State} {as : List (Statement Span)}

theorem collected_of_collect (h : collect (blockItem d) s = .ok as s₁) :
    Collected (blockItem d) s as s₁ := by
  refine collected_of_go (fun hmore => ?_) (by simp [State.ahead]) h
  obtain ⟨hstop, -⟩ | ⟨st, -, hok, -⟩ := blockItem_cases hmore
  · cases hstop
  · obtain ⟨u, hu, hne, -⟩ := statement_reads hok
    exact hu.lt_of_ne_nil hne

/-- The statements of a block end with a mark. -/
theorem Collected.ends_with_mark (h : Collected (blockItem d) s as s₁) :
    ∃ u, s.rest = u ++ s₁.rest ∧ ∀ t ∈ u.getLast?, t.kind = .punctuation := by
  induction h with
  | stop hstop =>
    obtain ⟨-, rfl⟩ | ⟨st, hst, -⟩ := blockItem_cases hstop
    · exact ⟨[], rfl, nofun⟩
    · cases hst
  | last hlast =>
    obtain ⟨hst, -⟩ | ⟨st, hst, -⟩ := blockItem_cases hlast <;> cases hst
  | @more s s₂ s₁ st as hmore _ _ ih =>
    obtain ⟨hst, -⟩ | ⟨st, -, hok, -⟩ := blockItem_cases hmore
    · cases hst
    obtain ⟨u, hu, -, hst⟩ := statement_reads hok
    obtain ⟨v, hv, hlast⟩ := ih
    obtain ⟨w, x, rfl, hx⟩ := hst.ends_with_mark rfl
    refine ⟨w ++ [x] ++ v, by rw [hu.rest, hv]; simp, fun t ht => ?_⟩
    rw [List.getLast?_append] at ht
    cases hv' : v.getLast? with
    | some y => exact hlast t (by rwa [hv'] at ht ⊢)
    | none =>
      obtain rfl : x = t := by simpa [hv'] using ht
      exact hx

end

/-- The statements in front of the closing brace are read one after another in both places. -/
theorem Collected.elsewhere {n : Nat} {c c' : Token} {rest : List Token}
    (hc' : c'.isPunctuation "\x7d")
    {h : ∀ t ∈ (c' :: rest).head?, ¬ t.isKeyword "else"} {s s₁ : State}
    {as : List (Statement Span)} (hcollected : Collected (blockItem (level n)) s as s₁)
    (hs₁ : s₁.rest = [c]) {s' : State} (halong : (elsewhere [c] (c' :: rest) h).Along s s') :
    ∃ as' s₁', Collected (blockItem (level n)) s' as' s₁' ∧ s₁'.rest = c' :: rest ∧
      as'.map Statement.erase = as.map Statement.erase := by
  let A := Parse.elsewhere [c] (c' :: rest) h
  have hd : A.Deepens (level n) (level n) := Alignment.level_deepens (.inl rfl)
  induction hcollected generalizing s' with
  | stop hstop =>
    obtain ⟨-, rfl⟩ | ⟨st, hst, -⟩ := blockItem_cases hstop
    · have hs' := (halong.edge (not_inside_elsewhere hs₁)).2
      have hcurrent : s'.current = c' := by simp [State.current, hs']
      exact ⟨[], s', .stop (blockItem_stop (hcurrent ▸ hc')), hs', rfl⟩
    · cases hst
  | last hlast =>
    obtain ⟨hst, -⟩ | ⟨st, hst, -⟩ := blockItem_cases hlast <;> cases hst
  | @more s s₂ s₁ st as hmore hlt hcollected ih =>
    obtain ⟨hst, -⟩ | ⟨_, ⟨⟩, hok, hopen⟩ := blockItem_cases hmore
    · cases hst
    obtain ⟨u, hu, -⟩ := hcollected.ends_with_mark
    have hwhole : A.At .whole s₂ := .inr (by rw [hu, hs₁]; simp [A])
    have hin : A.At .inside s := hwhole.inside_of_lt hlt
    have hagree := Alignment.statement_agree hd halong hin
    rw [hok] at hagree
    obtain ⟨st', s₂', hok', hst, halong₂, -⟩ := hagree hwhole
    obtain ⟨as', s₁', hcollected', hs₁', has⟩ := ih hs₁ halong₂
    have hcurrent := halong.current hin
    have hopen' : s'.current.isPunctuation "\x7d" = false := by
      rw [← hopen, Token.isPunctuation, Token.isPunctuation, Alignment.is_eq hcurrent]
    obtain ⟨v, hv, hne, -⟩ := statement_reads hok'
    have hne' : s'.rest ≠ [] := by
      rw [hv.rest]
      exact List.append_ne_nil_of_left_ne_nil hne _
    have hmore' : blockItem (level n) s' = .ok (.more st') s₂' := by
      rw [blockItem_more hopen' hne']
      exact map_eq_ok.mpr ⟨st', hok', rfl⟩
    exact ⟨st' :: as', s₁', .more hmore' (hv.lt_of_ne_nil hne) hcollected', hs₁',
      List.cons_eq_cons.2 ⟨hst.symm, has⟩⟩

/-- What stands behind the closing brace has no say in what is read in front of it. -/
theorem Once.block_consumes {n : Nat} {u : List Token} {b : Block Unit}
    (h : Once (block (level n)) u [] (·.erase = b)) (rest : List Token) :
    Consumes (block (level n)) u rest (·.erase = b) := by
  obtain ⟨s, a, s₃, hs, hok, hs₃, rfl⟩ := h
  rw [List.append_nil] at hs
  rw [block, peek_bind] at hok
  simp only [bind_eq_ok, pure_eq_ok, spanFrom_bind] at hok
  obtain ⟨_, s₁, hstart, as, s₂, hbody, _, _, hend, rfl, rfl⟩ := hok
  obtain ⟨x, hx, hopen⟩ := require_reads hstart
  obtain ⟨c, hc, hclose⟩ := require_reads hend
  have hcollected := collected_of_collect (d := level n) hbody
  obtain ⟨v, hv, hlast⟩ := hcollected.ends_with_mark
  have hs₂ : s₂.rest = [c] := by rw [hc.rest, hs₃]; rfl
  have hu : u = x :: (v ++ [c]) := by rw [← hs, hx.rest, hv, hs₂]; rfl
  intro s' hs'
  have hs' : s'.rest = x :: (v ++ c :: rest) := by rw [hs', hu]; simp
  have halong : (elsewhere [c] (c :: rest) (not_else_of_mark hclose.1)).Along s₁
      (s'.behind x (v ++ c :: rest)) :=
    along_elsewhere (hs₂ ▸ hv) rfl fun t ht => fence_of_mark (hlast t ht)
  obtain ⟨as', s₂', hcollected', hs₂', has⟩ :=
    hcollected.elsewhere (Token.is_iff.2 hclose) hs₂ halong
  have hbody' : collect (upTo "\x7d" do return .more (← (level n).statement))
      (s'.behind x (v ++ c :: rest)) = .ok as' s₂' := hcollected'.collect
  have hstart' : require .blockStart s' = .ok () _ := require_of_mark hs' (Token.is_iff.2 hopen)
  have hend' : require .blockEnd s₂' = .ok () _ := require_of_mark hs₂' (Token.is_iff.2 hclose)
  refine ⟨⟨as', (s₂'.behind c rest).spanFrom s'.current.span⟩, s₂'.behind c rest, ?_, rfl, ?_⟩
  · rw [block, peek_bind, bind_of_ok hstart', bind_of_ok hbody', bind_of_ok hend', spanFrom_bind]
    rfl
  · have hall : as'.map (Statement.map fun _ => ()) = as.map (Statement.map fun _ => ()) := has
    simp [Block.erase, Block.map, hall]

end Parse

end JsSyntax
