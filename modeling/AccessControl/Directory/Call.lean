import AccessControl.Directory.Basic

/-!
# Calls to the directory

The directory is shared by all requests, and a request reaches it by calls only.  A call is one
step: nothing else happens to the directory between its beginning and its end.  What may happen
between two calls of a request is left open.
-/

namespace AccessControl

/-- What a request can ask of the directory in one step. -/
inductive Directory.Call
  | get (userId : Value)
  | list
  | add (u : User)
  | update (userId : Value) (changes : List (String × Value))
  | remove (userId : Value)

namespace Directory

/-- What a call is answered with. -/
abbrev Call.Answer : Call → Type
  | .get _ => Option User
  | .list => List User
  | .add _ => Unit
  | .update _ _ => Option User
  | .remove _ => Bool

/-- The directory after a call, and the answer. -/
def perform (d : Directory) : (c : Call) → Directory × Except DirectoryFault c.Answer
  | .get userId => (d, d.get userId)
  | .list => (d, d.list)
  | .add u =>
    match d.add u with
    | .ok next => (next, .ok ())
    | .error e => (d, .error e)
  | .update userId changes => d.update userId changes
  | .remove userId => d.remove userId

/-- The call can only look at the directory. -/
def Call.isRead : Call → Bool
  | .get _ => true
  | .list => true
  | _ => false

theorem perform_of_isRead {c : Call} (h : c.isRead = true) (d : Directory) :
    (d.perform c).1 = d := by
  cases c <;> first | rfl | exact Bool.noConfusion h

end Directory

end AccessControl
