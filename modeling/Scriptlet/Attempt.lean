import Scriptlet.Precedence
import Scriptlet.Problem
import Scriptlet.TokenStream

/-!
# Attempts

An attempt is what came of reading something from a token stream: the thing read, or nothing if
there was a problem; the stream that is left, never larger than the one at the start; and a log
of what was done on the way. Attempts are put together by the operations below, each of which
keeps the log in order. After a problem an attempt is over, and whoever asked for it decides
where to go on.

A parser stands on the last token of what it has read. `moving` is the only operation that takes
a step, and every step it takes is logged.
-/

namespace Scriptlet

variable {α β γ : Type}

/-- What a parser does. Every event but a report names the token at which the parser then stands. -/
inductive ParseEvent (α : Type) where
  /-- It moves on. -/
  | moved (current : Token α)
  /-- It begins to read an expression at a precedence. -/
  | entered (precedence : Precedence) (current : Token α)
  /-- It finds a problem. -/
  | reported (problem : Problem α)
  /-- It is done with a statement, which is kept or left out. -/
  | settled (kept : Bool) (current : Token α)
  /-- It begins to read a block. -/
  | opened (current : Token α)
  /-- It is done with a block, at the closing brace or the end of the text. -/
  | closed (current : Token α)
deriving DecidableEq

/-- The problem that an event reports. -/
def ParseEvent.problem? : ParseEvent α → Option (Problem α)
  | .reported problem => some problem
  | _ => none

/-- What came of reading a `β` from `stream`. -/
structure Attempt (stream : TokenStream α) (β : Type) where
  value : Option β
  rest : TokenStream α
  log : List (ParseEvent α)
  size_le : rest.size ≤ stream.size

namespace Attempt

variable {stream : TokenStream α}

/-- Nothing more is read. -/
def give (value : β) : Attempt stream β := ⟨some value, stream, [], Nat.le_refl _⟩

/-- There is a problem (`error`). -/
def refuse (problem : Problem α) : Attempt stream β :=
  ⟨none, stream, [.reported problem], Nat.le_refl _⟩

/-- An event comes before the attempt. -/
def noting (event : ParseEvent α) (attempt : Attempt stream β) : Attempt stream β :=
  ⟨attempt.value, attempt.rest, event :: attempt.log, attempt.size_le⟩

/-- The attempt begins at the next token (`next_token`). -/
def moving (attempt : Attempt stream.advance β) : Attempt stream β :=
  ⟨attempt.value, attempt.rest, .moved stream.peek :: attempt.log, by
    have shorter := attempt.size_le
    rw [TokenStream.size_advance] at shorter
    omega⟩

/-- The attempt begins at the next token, which has to be of one kind (`expect_peek`). -/
def expecting (kind : Kind) (next : stream.peek.kind = kind → Attempt stream.advance β) :
    Attempt stream β :=
  if found : stream.peek.kind = kind then moving (next found)
  else refuse (.unexpected kind stream.peek)

/-- The value read is changed. -/
def map (f : β → γ) (attempt : Attempt stream β) : Attempt stream γ :=
  ⟨attempt.value.map f, attempt.rest, attempt.log, attempt.size_le⟩

/-- Reading goes on where the attempt ended, if it succeeded. -/
def andThen (attempt : Attempt stream β)
    (next : β → (rest : TokenStream α) → rest.size ≤ stream.size → Attempt rest γ) :
    Attempt stream γ :=
  match attempt.value with
  | none => ⟨none, attempt.rest, attempt.log, attempt.size_le⟩
  | some value =>
    let following := next value attempt.rest attempt.size_le
    ⟨following.value, following.rest, attempt.log ++ following.log,
      Nat.le_trans following.size_le attempt.size_le⟩

/-- The attempt counts as done, whether it succeeded or not. -/
def settle (attempt : Attempt stream β) : Attempt stream (Option β) :=
  ⟨some attempt.value, attempt.rest,
    attempt.log ++ [.settled attempt.value.isSome attempt.rest.current], attempt.size_le⟩

/-- The problems reported on the way. -/
def problems (attempt : Attempt stream β) : List (Problem α) :=
  attempt.log.filterMap ParseEvent.problem?

end Attempt

end Scriptlet
