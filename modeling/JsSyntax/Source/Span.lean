import JsSyntax.Source.Position

/-! # Spans

A span is the stretch of source between two positions, the second one excluded.
-/

set_option autoImplicit false

namespace JsSyntax

structure Span where
  start : Position
  stop : Position
deriving DecidableEq, Repr

namespace Span

/-- The empty span at `p`. -/
def point (p : Position) : Span := ⟨p, p⟩

instance : Inhabited Span := ⟨point .first⟩

/-- The span from the start of `a` to the end of `b`; `a` itself when `b` ends before `a`. -/
def through (a b : Span) : Span :=
  if b.stop.offset < a.start.offset then a else ⟨a.start, b.stop⟩

theorem through_of_le {a b : Span} (h : a.start.offset ≤ b.stop.offset) :
    a.through b = ⟨a.start, b.stop⟩ :=
  if_neg (Nat.not_lt.2 h)

@[simp] theorem start_through (a b : Span) : (a.through b).start = a.start := by
  unfold through
  split <;> rfl

end Span

end JsSyntax
