import AccessControl.Value.Basic

/-!
# The scope of a context

The context of a request is bound for as long as the request lasts.  Scopes nest: the innermost
one counts, and leaving it brings back the context that was bound before, however it is left.
Every thread has scopes of its own and begins without any.

All threads share one variable, which has a value of its own in each of them.  Opening a scope sets
the variable in the thread and keeps a token; leaving the scope gives the token back, and the
variable has the value again that it had when it was set.
-/

namespace AccessControl

/-- A variable that holds a context for every thread that has set it. -/
structure RequestContext where
  values : Nat → Option Value

namespace RequestContext

/-- What it takes to undo a setting: the thread, and the value that was there before. -/
structure Token where
  thread : Nat
  previous : Option Value

/-- Nothing is set in any thread. -/
def unset : RequestContext := ⟨fun _ => none⟩

/-- The context that is bound in a thread; nothing if it has not been set there. -/
def get (c : RequestContext) (thread : Nat) : Value :=
  (c.values thread).getD .null

/-- The variable with another value in one thread. -/
def put (c : RequestContext) (thread : Nat) (value : Option Value) : RequestContext :=
  ⟨fun t => if t = thread then value else c.values t⟩

/-- Sets the variable in a thread. -/
def set (c : RequestContext) (thread : Nat) (context : Value) : RequestContext × Token :=
  (c.put thread (some context), ⟨thread, c.values thread⟩)

/-- Undoes a setting. -/
def reset (c : RequestContext) (token : Token) : RequestContext :=
  c.put token.thread token.previous

variable {c : RequestContext} {thread other : Nat}

@[simp] theorem values_unset : unset.values thread = none := rfl

@[simp] theorem values_put_self (value : Option Value) :
    (c.put thread value).values thread = value := if_pos rfl

theorem values_put_of_ne (h : other ≠ thread) (value : Option Value) :
    (c.put thread value).values other = c.values other := if_neg h

/-- Undoing a setting leaves nothing of it. -/
@[simp] theorem reset_set (context : Value) :
    (c.set thread context).1.reset (c.set thread context).2 = c := by
  obtain ⟨values⟩ := c
  simp only [set, reset, put, mk.injEq]
  funext t
  by_cases h : t = thread
  · rw [if_pos h, h]
  · rw [if_neg h, if_neg h]

end RequestContext

/-- The variable as one thread uses it, with the tokens of the open scopes, the innermost first. -/
structure Scope where
  context : RequestContext
  thread : Nat
  tokens : List RequestContext.Token

namespace Scope

/-- A thread without open scopes. -/
def empty : Scope := ⟨.unset, 0, []⟩

/-- The context that counts; nothing if no scope is open. -/
def current (s : Scope) : Value :=
  s.context.get s.thread

/-- Opens a scope. -/
def enter (context : Value) (s : Scope) : Scope :=
  let done := s.context.set s.thread context
  ⟨done.1, s.thread, done.2 :: s.tokens⟩

/-- Leaves the innermost scope. -/
def leave (s : Scope) : Scope :=
  match s.tokens with
  | [] => s
  | token :: rest => ⟨s.context.reset token, s.thread, rest⟩

@[simp] theorem current_empty : empty.current = .null := rfl

@[simp] theorem current_enter (context : Value) (s : Scope) :
    (s.enter context).current = context := by
  simp [current, enter, RequestContext.set, RequestContext.get]

@[simp] theorem leave_enter (context : Value) (s : Scope) : (s.enter context).leave = s := by
  simp [leave, enter]

end Scope

end AccessControl
