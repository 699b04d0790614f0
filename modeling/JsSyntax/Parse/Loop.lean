import JsSyntax.Parse.State

/-! # Repetition

Loops of parsing steps. A step that goes on has read at least one token, so a loop takes at most
one step for each token ahead, and one more at the closing token to find its end. The tokens ahead
at the start of a loop are what its steps are counted by.
-/

set_option autoImplicit false

namespace JsSyntax

namespace Parse

variable {α : Type}

/-! ## Folding -/

/-- Applies `step` at most once for each of the tokens. -/
def iterate.go (step : α → ParseM (Option α)) : List Token → α → ParseM α
  | [], a => pure a
  | _ :: fuel, a => do
    match ← step a with
    | some b => iterate.go step fuel b
    | none => return a

/-- Applies `step` until it gives nothing, and returns the last value. -/
def iterate (step : α → ParseM (Option α)) (a : α) : ParseM α := do
  iterate.go step (← get).ahead a

/-! ## Collecting -/

/-- What one step of a list finds. -/
inductive Item (α : Type) where
  /-- The list is over. -/
  | stop
  /-- One more element, and the list is over. -/
  | last (a : α)
  /-- One more element. -/
  | more (a : α)

/-- Collects the elements of at most one step for each of the tokens. -/
def collect.go (step : ParseM (Item α)) : List Token → ParseM (List α)
  | [] => pure []
  | _ :: fuel => do
    match ← step with
    | .stop => return []
    | .last a => return [a]
    | .more a => return a :: (← collect.go step fuel)

/-- Collects the elements that `step` finds, in order. -/
def collect (step : ParseM (Item α)) : ParseM (List α) := do
  collect.go step (← get).ahead

/-- An element of a list with commas between the elements: without a comma it is the last. -/
def commaItem (element : ParseM α) : ParseM (Item α) := do
  let a ← element
  return if ← acceptMark "," then .more a else .last a

/-- Elements up to the closing mark, which is not read. -/
def upTo (mark : String) (item : ParseM (Item α)) : ParseM (Item α) := do
  if ← isMarkNext mark then return .stop
  else if ← atEnd then return .stop
  else item

end Parse

end JsSyntax
