import AccessControl.Fault

/-!
# Runs

What an operation does besides giving an answer is a list of events: a line was logged, a record
was kept, a function was called, a user was removed by a sink.  A run is the list of its events
together with its outcome; events before an error are not lost.
-/

namespace AccessControl

/-- The weight of a log line. -/
inductive Level
  | debug
  | info
  | warning
  | error
  deriving DecidableEq, Repr

/-- A line of the log, with what is attached to it. -/
structure LogRecord where
  logger : String
  level : Level
  message : String
  /-- The kind of the error that is being reported. -/
  fault : Option String := none
  audit : Option Audit := none
  category : Option String := none

/-- What an operation does besides giving an answer. -/
inductive Event
  | logged (line : LogRecord)
  /-- The capturing sink received a record. -/
  | audited (record : Audit)
  /-- A function was called. -/
  | called (f : Callable)
  /-- A sink removed a user from the directory. -/
  | evicted (userId : Value)

/-- The events of an operation and its outcome. -/
structure Run (α : Type) where
  events : List Event
  outcome : Except Fault α

namespace Run

variable {α β : Type}

/-- An answer without events. -/
def pure (a : α) : Run α := ⟨[], .ok a⟩

/-- An error without events. -/
def fail (f : Fault) : Run α := ⟨[], .error f⟩

/-- Goes on with the answer; an error ends the run. -/
def bind (r : Run α) (f : α → Run β) : Run β :=
  match r.outcome with
  | .ok a => ⟨r.events ++ (f a).events, (f a).outcome⟩
  | .error e => ⟨r.events, .error e⟩

instance : Monad Run where
  pure := pure
  bind := bind

/-- One event. -/
def emit (e : Event) : Run Unit := ⟨[e], .ok ()⟩

/-- A log line. -/
def log (line : LogRecord) : Run Unit := emit (.logged line)

/-- An outcome without events. -/
def ofExcept (x : Except Fault α) : Run α := ⟨[], x⟩

@[simp] theorem events_pure (a : α) : (pure a).events = [] := rfl

@[simp] theorem outcome_pure (a : α) : (pure a).outcome = .ok a := rfl

@[simp] theorem events_fail (f : Fault) : (fail f : Run α).events = [] := rfl

@[simp] theorem outcome_fail (f : Fault) : (fail f : Run α).outcome = .error f := rfl

theorem bind_of_ok {r : Run α} {a : α} (h : r.outcome = .ok a) (f : α → Run β) :
    r.bind f = ⟨r.events ++ (f a).events, (f a).outcome⟩ := by
  simp [bind, h]

theorem bind_of_error {r : Run α} {e : Fault} (h : r.outcome = .error e) (f : α → Run β) :
    r.bind f = ⟨r.events, .error e⟩ := by
  simp [bind, h]

end Run

end AccessControl
