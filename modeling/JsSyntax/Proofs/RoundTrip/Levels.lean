import JsSyntax.Parse.Expression
import JsSyntax.Proofs.RoundTrip.Loops
import JsSyntax.Proofs.RoundTrip.Tree

/-! # The routines of the levels of precedence

What a level takes, every looser level takes too, if the token behind it continues neither
(`Grows.looser`). At a level with a loop it is enough that the token behind continues no tighter
level: then the loop has got as far, and may go on (`Grows`).
-/

set_option autoImplicit false

namespace JsSyntax

open Parse

namespace Precedence

/-! ## Where phrases end and start -/

def all : List Precedence :=
  [.assignment, .conditional, .or, .and, .equality, .comparison, .additive, .multiplicative,
   .unary, .update, .chain, .primary]

theorem mem_all (p : Precedence) : p ∈ all := by
  cases p <;> decide

/-- Does the token continue a phrase of the level? Behind a conditional, an operator of assignment
continues its last branch. -/
def continues : Precedence → Token → Bool
  | .assignment, t => (chosen .operator AssignmentOp.symbol AssignmentOp.all t).isSome
  | .conditional, t => t.isOperator "?" ||
      (chosen .operator AssignmentOp.symbol AssignmentOp.all t).isSome
  | .or, t => (chosen .operator LogicalOp.symbol [.or] t).isSome
  | .and, t => (chosen .operator LogicalOp.symbol [.and] t).isSome
  | .equality, t => (chosen .operator BinaryOp.symbol BinaryOp.equality t).isSome
  | .comparison, t => (chosen .operator BinaryOp.symbol BinaryOp.comparison t).isSome
  | .additive, t => (chosen .operator BinaryOp.symbol BinaryOp.additive t).isSome
  | .multiplicative, t => (chosen .operator BinaryOp.symbol BinaryOp.multiplicative t).isSome
  | .update, t => (chosen .operator UpdateOp.symbol UpdateOp.all t).isSome
  | .chain, t => t.isPunctuation "(" || t.isPunctuation "[" || t.isPunctuation "." ||
      t.isKeyword "new"
  | .unary, _ | .primary, _ => false

/-- The token continues neither a phrase of the level nor one of a tighter level. -/
def stops (p : Precedence) (t : Token) : Prop :=
  ∀ q ∈ all, p.rank ≤ q.rank → q.continues t = false

instance (p : Precedence) (t : Token) : Decidable (p.stops t) :=
  inferInstanceAs (Decidable (∀ q ∈ all, p.rank ≤ q.rank → q.continues t = false))

theorem stops.continues {p : Precedence} {t : Token} (h : p.stops t) : p.continues t = false :=
  h p p.mem_all (Nat.le_refl _)

theorem rank_le_tighter (p : Precedence) : p.rank ≤ p.tighter.rank := by
  cases p <;> decide

/-- What holds of a level, and of a level when it holds of the next tighter one, holds of all looser
levels. -/
theorem of_tighter {motive : Precedence → Prop} {p q : Precedence} (hle : p.rank ≤ q.rank)
    (start : motive q) (step : ∀ p, p.rank < q.rank → motive p.tighter → motive p) : motive p := by
  by_cases hlt : p.rank < q.rank
  · have hnext : p.tighter.rank = p.rank + 1 := by
      revert hlt
      cases p <;> cases q <;> decide
    exact step p hlt (of_tighter (by omega) start step)
  · obtain rfl : p = q := by
      revert hle hlt
      cases p <;> cases q <;> decide
    exact start
termination_by q.rank - p.rank

theorem stops.tighter {p : Precedence} {t : Token} (h : p.stops t) : p.tighter.stops t :=
  fun q hq hle => h q hq (Nat.le_trans p.rank_le_tighter hle)

theorem stops_primary (t : Token) : primary.stops t := by
  intro q _ hle
  cases q with
  | primary => rfl
  | _ => exact absurd hle (by decide)

/-- Nothing continues a unary expression but what continues its operand. -/
theorem stops_unary {t : Token} (h : update.stops t) : unary.stops t := by
  intro q hq hle
  by_cases hupdate : update.rank ≤ q.rank
  · exact h q hq hupdate
  · obtain rfl : q = unary := by
      revert hle hupdate
      cases q <;> decide
    rfl

/-- The tokens that start a phrase of the level, other than names and literals. -/
def starters (p : Precedence) : List Token :=
  [.keyword "this", .keyword "new", .mark "[", .mark "("] ++
    (if p.rank ≤ update.rank then UpdateOp.all.map fun op => .operator op.symbol else []) ++
    if p.rank ≤ unary.rank then
      .keyword "await" :: (UnaryOp.marks ++ UnaryOp.words).map UnaryOp.token
    else []

def starts (p : Precedence) (x : Token) : Prop :=
  x.kind ∈ [.identifier, .string, .boolean, .null] ∨ x ∈ p.starters

/-- The tokens start with one that starts a phrase of the level. -/
def Leads (p : Precedence) (u : List Token) : Prop := ∃ x v, u = x :: v ∧ p.starts x

end Precedence

namespace Parse

/-! ## Routines and loops -/

/-- The routine of a level. -/
def routineAt (d : Deeper) : Precedence → ParseM (Expr Span)
  | .assignment => assignment d
  | .conditional => conditional d
  | .or => logicalOr d
  | .and => logicalAnd d
  | .equality => equality d
  | .comparison => comparison d
  | .additive => additive d
  | .multiplicative => multiplicative d
  | .unary => unary d
  | .update => update d
  | .chain => chain d
  | .primary => primary d

/-- The loop of a level of operators that group to the left. -/
def operatorLoop {α : Type} (symbol : α → String) (ops : List α)
    (build : α → Expr Span → Expr Span → Span → Expr Span) (operand : ParseM (Expr Span)) :
    Loop where
  operand := operand
  step start left := do
    match ← acceptOneOf .operator symbol ops with
    | some op =>
      let right ← operand
      return some (build op left right (← spanFrom start))
    | none => return none

def binaryLoop (ops : List BinaryOp) (operand : ParseM (Expr Span)) : Loop :=
  operatorLoop BinaryOp.symbol ops .binary operand

def logicalLoop (op : LogicalOp) (operand : ParseM (Expr Span)) : Loop :=
  operatorLoop LogicalOp.symbol [op] .logical operand

def chainLoop (d : Deeper) : Loop := ⟨primary d, chainLink? d⟩

/-- The loop of a level, if its routine is one. -/
def loopAt? (d : Deeper) : Precedence → Option Loop
  | .or => some (logicalLoop .or (logicalAnd d))
  | .and => some (logicalLoop .and (equality d))
  | .equality => some (binaryLoop BinaryOp.equality (comparison d))
  | .comparison => some (binaryLoop BinaryOp.comparison (additive d))
  | .additive => some (binaryLoop BinaryOp.additive (multiplicative d))
  | .multiplicative => some (binaryLoop BinaryOp.multiplicative (unary d))
  | .chain => some (chainLoop d)
  | .assignment | .conditional | .unary | .update | .primary => none

variable {d : Deeper} {p : Precedence} {u v : List Token} {e : Expr Unit}

theorem loopAt?_operand {l : Loop} (h : loopAt? d p = some l) :
    l.operand = routineAt d p.tighter := by
  cases p <;> cases h <;> rfl

theorem loopAt?_run {l : Loop} (h : loopAt? d p = some l) : l.run = routineAt d p := by
  cases p <;> cases h <;> rfl

/-! ## What the levels take -/

/-- The routine takes the tokens, which make a phrase of the level, up to a token that continues
none. -/
structure Spells (m : ParseM (Expr Span)) (p : Precedence) (u : List Token) (e : Expr Unit) :
    Prop where
  leads : p.Leads u
  takes : Takes m u p.stops (·.erase = e)

/-- The routine of the level takes the tokens, or has taken them when its loop goes on. -/
structure Grows (d : Deeper) (p : Precedence) (u : List Token) (e : Expr Unit) : Prop where
  leads : p.Leads u
  climbs : ∀ l, loopAt? d p = some l → l.Climbs u p.tighter.stops e
  takes : loopAt? d p = none → Takes (routineAt d p) u p.stops (·.erase = e)

/-! ## Steps that do not follow -/

theorem memberAccess?_none {start : Span} {a : Expr Span} {stops : Token → Prop}
    (h : ∀ t, stops t → t.isPunctuation "[" = false ∧ t.isPunctuation "." = false) :
    Takes (memberAccess? d start a) [] stops (· = none) :=
  .accept_no (fun t ht => (h t ht).1) (.accept_no (fun t ht => (h t ht).2) (.pure rfl))

theorem chainLink?_none {start : Span} {a : Expr Span} :
    Takes (chainLink? d start a) [] Precedence.chain.stops (· = none) := by
  have h : ∀ t, Precedence.chain.stops t → t.isPunctuation "(" = false ∧
      t.isPunctuation "[" = false ∧ t.isPunctuation "." = false ∧ t.isKeyword "new" = false := by
    intro t ht
    simpa [Precedence.continues, and_assoc] using ht.continues
  refine .accept_no (fun t ht => (h t ht).1) (.bind_nil (memberAccess?_none fun t ht => ?_)
    (fun _ => id) fun _ heq => ?_)
  · exact ⟨(h t ht).2.1, (h t ht).2.2.1⟩
  · subst heq
    exact .accept_no (fun t ht => (h t ht).2.2.2) (.pure rfl)

theorem eq_none_of_isSome {α : Type} {x : Option α} (h : x.isSome = false) : x = none :=
  Option.isNone_iff_eq_none.1 (Option.isSome_eq_false_iff.1 h)

section
variable {α : Type} {symbol : α → String} {ops : List α}
  {build : α → Expr Span → Expr Span → Span → Expr Span} {operand : ParseM (Expr Span)}
  {start : Span} {a : Expr Span} {stops : Token → Prop}

theorem operatorLoop_none (h : ∀ t, stops t → (chosen .operator symbol ops t).isSome = false) :
    Takes ((operatorLoop symbol ops build operand).step start a) [] stops (· = none) :=
  .acceptOneOf_no (fun t ht => eq_none_of_isSome (h t ht)) (.pure rfl)

theorem operatorLoop_some {op : α} {x : Token} (hx : chosen .operator symbol ops x = some op)
    (hv : Takes operand v stops (·.erase = e)) :
    Takes ((operatorLoop symbol ops build operand).step start a) (x :: v) stops
      (fun y => ∃ right span, y = some (build op a right span) ∧ right.erase = e) := by
  refine .acceptOneOf_yes hx (.bind_nil hv (fun _ => id) fun right hright => ?_)
  exact .spanFrom fun span => .pure ⟨right, span, rfl, hright⟩

end

theorem loopAt?_none {l : Loop} (h : loopAt? d p = some l) (start : Span) (a : Expr Span) :
    Takes (l.step start a) [] p.stops (· = none) := by
  cases p <;> cases h
  case chain => exact chainLink?_none
  all_goals exact operatorLoop_none fun t ht => ht.continues

/-! ## Tokens that start a phrase -/

theorem starts_of_tighter {x : Token} (h : p.tighter.starts x) : p.starts x := by
  have hsub : ∀ y ∈ p.tighter.starters, y ∈ p.starters := by cases p <;> decide
  exact h.imp_right (hsub x)

theorem is_eq_false_of_kind {x : Token} {kind : TokenKind} {value : String} (h : x.kind ≠ kind) :
    x.is kind value = false := by
  simp [Token.is, h]

theorem chosen_eq_none_of_kind {α : Type} {kind : TokenKind} {symbol : α → String}
    {choices : List α} {x : Token} (h : x.kind ≠ kind) : chosen kind symbol choices x = none :=
  if_neg h

theorem not_mark_of_kind {x : Token} (h : x.kind ∈ [.identifier, .string, .boolean, .null]) :
    x.kind ≠ .operator ∧ x.kind ≠ .keyword ∧ x.kind ≠ .punctuation := by
  simp only [List.mem_cons, List.not_mem_nil, or_false] at h
  rcases h with h | h | h | h <;> rw [h] <;> decide

theorem chosen_of_starts_chain {x : Token} (h : Precedence.chain.starts x) :
    chosen .operator UpdateOp.symbol UpdateOp.all x = none := by
  rcases h with hk | hx
  · exact chosen_eq_none_of_kind (not_mark_of_kind hk).1
  · have hall : ∀ y ∈ Precedence.chain.starters,
        chosen .operator UpdateOp.symbol UpdateOp.all y = none := by decide
    exact hall x hx

/-- The token is neither `await` nor a unary operator. -/
structure Unsigned (x : Token) : Prop where
  await : x.isKeyword "await" = false
  mark : chosen .operator UnaryOp.symbol UnaryOp.marks x = none
  word : chosen .keyword UnaryOp.symbol UnaryOp.words x = none

theorem unsigned_of_kind {x : Token} (hoperator : x.kind ≠ .operator)
    (hkeyword : x.kind ≠ .keyword) : Unsigned x :=
  ⟨is_eq_false_of_kind hkeyword, chosen_eq_none_of_kind hoperator, chosen_eq_none_of_kind hkeyword⟩

/-- The token is no operator in front of its operand. -/
structure Unprefixed (x : Token) : Prop extends Unsigned x where
  update : chosen .operator UpdateOp.symbol UpdateOp.all x = none

theorem unprefixed_of_kind {x : Token} (hoperator : x.kind ≠ .operator)
    (hkeyword : x.kind ≠ .keyword) : Unprefixed x :=
  ⟨unsigned_of_kind hoperator hkeyword, chosen_eq_none_of_kind hoperator⟩

theorem unsigned_of_starts {x : Token} (h : Precedence.update.starts x) : Unsigned x := by
  rcases h with hk | hx
  · obtain ⟨hoperator, hkeyword, -⟩ := not_mark_of_kind hk
    exact unsigned_of_kind hoperator hkeyword
  · have hall : ∀ y ∈ Precedence.update.starters, y.isKeyword "await" = false ∧
        chosen .operator UnaryOp.symbol UnaryOp.marks y = none ∧
          chosen .keyword UnaryOp.symbol UnaryOp.words y = none := by decide
    obtain ⟨hawait, hmark, hword⟩ := hall x hx
    exact ⟨hawait, hmark, hword⟩

/-- No phrase starts with a mark that ends or divides a list. -/
theorem not_closing_of_starts {x : Token} (h : p.starts x) : x.isPunctuation "]" = false ∧
    x.isPunctuation ")" = false ∧ x.isPunctuation "," = false := by
  rcases h with hk | hx
  · have hmark := (not_mark_of_kind hk).2.2
    exact ⟨is_eq_false_of_kind hmark, is_eq_false_of_kind hmark, is_eq_false_of_kind hmark⟩
  · have hall : ∀ y ∈ p.starters, y.isPunctuation "]" = false ∧ y.isPunctuation ")" = false ∧
        y.isPunctuation "," = false := by cases p <;> decide
    exact hall x hx

/-! ## Looser levels -/

section
variable {t : Token} {rest : List Token}

theorem assignment_consumes (ht : Precedence.assignment.stops t)
    (h : Consumes (conditional d) u (t :: rest) (·.erase = e)) :
    Consumes (assignment d) u (t :: rest) (·.erase = e) := by
  refine .peek fun _ => h.bind_nil fun a ha => Takes.consumes (.acceptOneOf_no ?_ (.pure ha)) ht
  exact fun t ht => eq_none_of_isSome ht.continues

theorem conditional_consumes (ht : t.isOperator "?" = false)
    (h : Consumes (logicalOr d) u (t :: rest) (·.erase = e)) :
    Consumes (conditional d) u (t :: rest) (·.erase = e) := by
  refine .peek fun _ => h.bind_nil fun a ha => ?_
  exact Takes.consumes (.accept_no (u := []) (fun _ => id) (.pure ha)) ht

end

theorem stops_conditional {t : Token} (h : Precedence.conditional.stops t) :
    t.isOperator "?" = false ∧ Precedence.assignment.stops t := by
  have hcontinues : t.isOperator "?" = false ∧
      (chosen .operator AssignmentOp.symbol AssignmentOp.all t).isSome = false := by
    simpa [Precedence.continues] using h.continues
  refine ⟨hcontinues.1, fun q hq _ => ?_⟩
  by_cases hrank : Precedence.conditional.rank ≤ q.rank
  · exact h q hq hrank
  · have hloosest : q = .assignment := by
      revert hrank
      cases q <;> decide
    rw [hloosest]
    exact hcontinues.2

theorem acceptUnaryOp_none : Takes acceptUnaryOp [] Unsigned (· = none) := by
  refine .acceptOneOf_no (fun t ht => ht.mark) (.of_bind_pure ?_)
  exact .acceptOneOf_no (fun t ht => ht.word) (.pure rfl)

section
variable {x t : Token} {rest : List Token}

theorem unary_consumes (hx : Unsigned x)
    (h : Consumes (update d) (x :: u) (t :: rest) (·.erase = e)) :
    Consumes (unary d) (x :: u) (t :: rest) (·.erase = e) := by
  refine .peek fun _ => .accept_no hx.await ?_
  refine .bind (u := []) (acceptUnaryOp_none.consumes hx) fun _ hnone => ?_
  subst hnone
  exact h

theorem update_consumes (hx : chosen .operator UpdateOp.symbol UpdateOp.all x = none)
    (ht : Precedence.update.stops t)
    (h : Consumes (chain d) (x :: u) (t :: rest) (·.erase = e)) :
    Consumes (update d) (x :: u) (t :: rest) (·.erase = e) := by
  refine .peek fun _ => .acceptOneOf_no hx (h.bind_nil fun a ha => ?_)
  refine Takes.consumes (.nextOneOf (c := none) ?_ (.pure ha)) ht
  exact fun t ht => eq_none_of_isSome ht.continues

/-- What the next tighter level reads, a level reads, unless it starts with a prefix operator. -/
theorem looser_consumes (h : Consumes (routineAt d p.tighter) (x :: u) (t :: rest) (·.erase = e))
    (ht : p.stops t) (hunary : p = .unary → Unsigned x)
    (hupdate : p = .update → chosen .operator UpdateOp.symbol UpdateOp.all x = none) :
    Consumes (routineAt d p) (x :: u) (t :: rest) (·.erase = e) := by
  cases hl : loopAt? d p with
  | some l =>
    rw [← loopAt?_run hl]
    rw [← loopAt?_operand hl] at h
    exact Loop.run_consumes h ht (loopAt?_none hl)
  | none =>
    cases p with
    | assignment => exact assignment_consumes ht h
    | conditional => exact conditional_consumes (stops_conditional ht).1 h
    | unary => exact unary_consumes (hunary rfl) h
    | update => exact update_consumes (hupdate rfl) ht h
    | primary => exact h
    | or | and | equality | comparison | additive | multiplicative | chain => cases hl

/-- What is read as a primary and starts with no prefix operator is read at every level. -/
theorem consumes_of_primary (hhead : u.head? = some x) (hx : Unprefixed x)
    (h : Consumes (primary d) u (t :: rest) (·.erase = e)) {p : Precedence}
    (ht : p.stops t) : Consumes (routineAt d p) u (t :: rest) (·.erase = e) := by
  obtain ⟨v, rfl⟩ := List.head?_eq_some_iff.1 hhead
  have hle : p.rank ≤ Precedence.primary.rank := by cases p <;> decide
  refine Precedence.of_tighter (motive := fun p => p.stops t →
    Consumes (routineAt d p) (x :: v) (t :: rest) (·.erase = e)) hle (fun _ => h) ?_ ht
  exact fun p _ ih ht => looser_consumes (ih ht.tighter) ht (fun _ => hx.toUnsigned)
    fun _ => hx.update

end

/-- The next looser level. -/
theorem Spells.grows (h : Spells (routineAt d p.tighter) p.tighter u e) : Grows d p u e := by
  obtain ⟨x, v, rfl, hx⟩ := id h.leads
  refine ⟨⟨x, v, rfl, starts_of_tighter hx⟩, fun l hl => .of_operand ?_, fun _ => ?_⟩
  · rw [loopAt?_operand hl]
    exact h.takes
  · refine fun s t rest hs ht => looser_consumes (h.takes.consumes ht.tighter) ht ?_ ?_ hs
    · rintro rfl
      exact unsigned_of_starts hx
    · rintro rfl
      exact chosen_of_starts_chain hx

theorem Grows.spells (h : Grows d p u e) : Spells (routineAt d p) p u e := by
  refine ⟨h.leads, ?_⟩
  cases hl : loopAt? d p with
  | none => exact h.takes hl
  | some l =>
    rw [← loopAt?_run hl]
    exact (h.climbs l hl).takes (fun t ht => ht.tighter) (loopAt?_none hl)

theorem Grows.looser {p q : Precedence} (h : Grows d q u e) (hle : p.rank ≤ q.rank) :
    Grows d p u e :=
  Precedence.of_tighter (motive := fun p => Grows d p u e) hle h fun _ _ ih => ih.spells.grows

end Parse

end JsSyntax
