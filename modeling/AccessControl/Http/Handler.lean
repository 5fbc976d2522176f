import AccessControl.Http.Failure
import AccessControl.Directory.Call
import AccessControl.Run

/-!
# Handlers

A handler is what is done about a request, seen from the directory: a sequence of calls, each of
which may depend on the answers to those before, with events in between, and an outcome at the
end.  The directory is not part of a handler, so the same handler can be run alone, with
`Handler.run`, or step by step while other requests are served.

A sink may remove a user from the directory when it is given a record.  This happens at the
moment of the event.
-/

namespace AccessControl.Http

open Directory (Call)

/-- Calls and events, up to an outcome. -/
inductive Handler (α : Type) : Type
  | done (outcome : Except Failure α)
  | emit (events : List Event) (next : Handler α)
  | call (c : Call) (next : Except DirectoryFault c.Answer → Handler α)

namespace Handler

variable {α β : Type}

/-! ## 1. Building handlers -/

/-- A result without calls and events. -/
def pure (a : α) : Handler α := done (.ok a)

/-- A failure without calls and events. -/
def fail (f : Failure) : Handler α := done (.error f)

/-- Goes on with what an outcome says. -/
def settle (h : Handler α) (f : Except Failure α → Handler β) : Handler β :=
  match h with
  | done outcome => f outcome
  | emit events next => emit events (next.settle f)
  | call c next => call c fun answer => (next answer).settle f

/-- Goes on with the result; a failure ends the handler. -/
def bind (h : Handler α) (f : α → Handler β) : Handler β :=
  h.settle fun outcome =>
    match outcome with
    | .ok a => f a
    | .error e => fail e

instance : Monad Handler where
  pure := pure
  bind := bind

/-- An outcome without calls and events. -/
def ofExcept (x : Except Failure α) : Handler α := done x

/-- What the engine does, as part of a handler. -/
def ofRun (r : Run α) : Handler α :=
  emit r.events (done (r.outcome.mapError Failure.fault))

/-- A log line. -/
def log (line : LogRecord) : Handler Unit := emit [.logged line] (pure ())

/-- A call whose error is left to the caller. -/
def tryCall (c : Call) : Handler (Except DirectoryFault c.Answer) := call c pure

/-- A call whose error ends the handler. -/
def ask (c : Call) : Handler c.Answer :=
  call c fun answer => done (answer.mapError Failure.directory)

/-- One handler after the other, each for an element. -/
def each (f : α → Handler β) : List α → Handler (List β)
  | [] => pure []
  | a :: rest => do
    let b ← f a
    let bs ← each f rest
    return b :: bs

/-! ## 2. Running a handler alone -/

/-- The directory after an event. -/
def afterEvent (d : Directory) : Event → Directory
  | .evicted userId => (d.perform (.remove userId)).1
  | _ => d

/-- The directory after some events. -/
def afterEvents (d : Directory) (events : List Event) : Directory :=
  events.foldl afterEvent d

/-- What a handler leaves behind. -/
structure Result (α : Type) where
  directory : Directory
  events : List Event
  outcome : Except Failure α

/-- Runs a handler from a directory, without anything in between. -/
def run (d : Directory) : Handler α → Result α
  | done outcome => ⟨d, [], outcome⟩
  | emit events next =>
    let after := next.run (afterEvents d events)
    { after with events := events ++ after.events }
  | call c next =>
    let performed := d.perform c
    (next performed.2).run performed.1

@[simp] theorem run_done (d : Directory) (outcome : Except Failure α) :
    (done outcome).run d = ⟨d, [], outcome⟩ := rfl

@[simp] theorem settle_done (outcome : Except Failure α) (f : Except Failure α → Handler β) :
    (done outcome).settle f = f outcome := rfl

end Handler

end AccessControl.Http
