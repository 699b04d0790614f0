import JsSyntax.Proofs.Counting.Script
import JsSyntax.Proofs.Parse.Moves

/-! # Routines as code with loops

A `Code` is the text of a routine with its loops and its nested calls left as they are. It can be
run by the routines that bound every loop by the tokens ahead (`Code.run`), or performed with
neither bound nor levels (`Performs`): a loop is one round and then the loop once more, for as long
as the rounds go on, and a nested routine counts the depth up when it is called and down when it
ends. The depths that the counter takes on the way are kept, in order.
-/

set_option autoImplicit false

namespace JsSyntax

namespace Parse

variable {α β : Type}

/-! ## Code -/

/-- A failure is a result as well, and what has been read and logged stays so. -/
def attempt (m : ParseM α) : ParseM (Except Diagnostic α) := fun s =>
  match m s with
  | .ok a s => .ok (.ok a) s
  | .error e s => .ok (.error e) s

inductive Code : Type → Type 1 where
  /-- A step that neither repeats nor nests anything. -/
  | step {α : Type} (m : ParseM α) : Code α
  | call {α : Type} (c : Nested α) : Code α
  | bind {α β : Type} (x : Code α) (f : α → Code β) : Code β
  | attempt {α : Type} (x : Code α) : Code (Except Diagnostic α)
  /-- Rounds that make a value from the last one, until there is none. -/
  | iterate {α : Type} (round : α → Code (Option α)) (a : α) : Code α
  /-- Rounds that give an element each, until the list is over. -/
  | collect {α : Type} (round : Code (Item α)) : Code (List α)

namespace Code

/-- The routine that the code is of. -/
def run (d : Deeper) : {α : Type} → Code α → ParseM α
  | _, .step m => m
  | _, .call c => d.call c
  | _, .bind x f => x.run d >>= fun a => (f a).run d
  | _, .attempt x => Parse.attempt (x.run d)
  | _, .iterate round a => Parse.iterate (fun a => (round a).run d) a
  | _, .collect round => Parse.collect (round.run d)

/-! ## Loops -/

/-- A round, and the loop once more if it goes on. -/
def iterateOnce (round : α → Code (Option α)) (a : α) : Code α :=
  .bind (round a) fun
    | some b => .iterate round b
    | none => .step (pure a)

/-- A round, and the loop once more if the list goes on. -/
def collectOnce (round : Code (Item α)) : Code (List α) :=
  .bind round fun
    | .stop => .step (pure [])
    | .last a => .step (pure [a])
    | .more a => .bind (.collect round) fun as => .step (pure (a :: as))

end Code

/-- Does the list go on behind the item? -/
def Item.goesOn : Item α → Bool
  | .stop | .last _ => false
  | .more _ => true

/-- However the step ends, tokens have been read one after another. -/
class Forward (m : ParseM α) : Prop where
  reads : ∀ s : State, ∃ u, s.Reads u (after (m s))

instance Forward.of_moves {m : ParseM α} [hm : Moves m] : Forward m :=
  ⟨fun s => (hm.moves s).reads⟩

/-- A round behind which the loop goes on has read a token at least. -/
class Strides (goesOn : β → Bool) (round : ParseM β) : Prop where
  lt : ∀ {s s' : State} {b : β}, goesOn b → round s = .ok b s' → s'.rest.length < s.rest.length

/-- No step goes back, and every round of every loop reads a token if the loop goes on behind it. -/
def Code.Paced : {α : Type} → Code α → Prop
  | _, .step m => Forward m
  | _, .call _ => True
  | _, .bind x f => x.Paced ∧ ∀ a, (f a).Paced
  | _, .attempt x => x.Paced
  | _, .iterate round _ => ∀ a, (round a).Paced ∧
      ∀ n, Strides Option.isSome ((round a).run (level n))
  | _, .collect round => round.Paced ∧ ∀ n, Strides Item.goesOn (round.run (level n))

/-! ## Performing -/

/-- The code of the four nested routines. -/
structure Library where
  code : {α : Type} → Nested α → Code α
  run_code : ∀ {α : Type} (c : Nested α) (d : Deeper), (code c).run d = c.routine d
  paced : ∀ {α : Type} (c : Nested α), (code c).Paced

/-- What code comes to when the depth is counted. -/
abbrev Upshot (α : Type) : Type := EStateM.Result Diagnostic Counter α

namespace Upshot

/-- The parser behind a success or a failure. -/
def counter : Upshot α → Counter
  | .ok _ k => k
  | .error _ k => k

/-- The depth is counted down, behind a success as behind a failure. -/
def leave : Upshot α → Upshot α
  | .ok a k => .ok a k.leave
  | .error e k => .error e k.leave

def attempt : Upshot α → Upshot (Except Diagnostic α)
  | .ok a k => .ok (.ok a) k
  | .error e k => .ok (.error e) k

end Upshot

/-- What the code comes to from `k` on, and the depths that the counter takes on the way. -/
inductive Performs (L : Library) : {α : Type} → Code α → Counter → List Nat → Upshot α → Prop where
  | step {α : Type} {m : ParseM α} {k : Counter} :
      Performs L (.step m) k [] (k.result (m k.state))
  | bind {α β : Type} {x : Code α} {f : α → Code β} {k k' : Counter} {depths depths' : List Nat}
      {a : α} {u : Upshot β} :
      Performs L x k depths (.ok a k') → Performs L (f a) k' depths' u →
      Performs L (.bind x f) k (depths ++ depths') u
  | bindError {α β : Type} {x : Code α} {f : α → Code β} {k k' : Counter} {depths : List Nat}
      {e : Diagnostic} :
      Performs L x k depths (.error e k') → Performs L (.bind x f) k depths (.error e k')
  | attempt {α : Type} {x : Code α} {k : Counter} {depths : List Nat} {u : Upshot α} :
      Performs L x k depths u → Performs L (.attempt x) k depths u.attempt
  | iterate {α : Type} {round : α → Code (Option α)} {a : α} {k : Counter} {depths : List Nat}
      {u : Upshot α} :
      Performs L (.iterateOnce round a) k depths u → Performs L (.iterate round a) k depths u
  | collect {α : Type} {round : Code (Item α)} {k : Counter} {depths : List Nat}
      {u : Upshot (List α)} :
      Performs L (.collectOnce round) k depths u → Performs L (.collect round) k depths u
  | limit {α : Type} {c : Nested α} {k : Counter} :
      nestingLimit ≤ k.depth → Performs L (.call c) k [] (.error k.tooDeep k)
  | call {α : Type} {c : Nested α} {k : Counter} {depths : List Nat} {u : Upshot α} :
      k.depth < nestingLimit → Performs L (L.code c) k.enter depths u →
      Performs L (.call c) k (k.enter.depth :: depths ++ [u.leave.counter.depth]) u.leave

end Parse

end JsSyntax
