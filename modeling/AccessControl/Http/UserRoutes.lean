import AccessControl.Http.Caller
import AccessControl.Http.UserBody
import AccessControl.Http.Presentation

/-!
# The users over HTTP

Every route asks two questions.  Is the caller's role granted the action at all?  This is decided
before anything is known about the target, so that a caller without the grant cannot find out
which ids exist.  And does one of the caller's levels extend to this very user?

To create a user who is assigned others, the caller must be allowed to update each of these:
otherwise a caller could hand out access to users that are out of reach.

The list shows the users to whom one of the levels of the caller extends.  It is decided by the
levels themselves and not by one decision per user, so that one request leaves one record of the
levels instead of a denial for each hidden user.
-/

namespace AccessControl.Http.UserRoutes

open Access

/-- The user with an id. -/
def find (userId : Value) : Handler User := do
  match ← Handler.ask (.get userId) with
  | some u => return u
  | none => Handler.fail (.noUser userId)

/-- The response that shows a user. -/
def shown (status : Nat) (u : User) : Handler Response := do
  let v ← Handler.ofExcept (present u)
  return Response.json status v

/-! ## 1. Reading -/

/-- Shows the caller's own record. -/
def me (a : Access) : Handler Response := do
  let context ← a.authenticated
  let userId ← Handler.ofExcept
    ((Expr.contextField context "user_id").mapError Failure.fault)
  let u ← find userId
  a.may context .read u
  shown 200 u

/-- Shows a user. -/
def read (a : Access) (userId : String) : Handler Response := do
  let context ← a.permitted .read
  let u ← find (.text userId)
  a.may context .read u
  shown 200 u

/-- The log line for a level that failed while users were listed. -/
def levelLine (level : Value) (u : User) (kind : String) : LogRecord where
  logger := "gatekeeper.api.users"
  level := .error
  message := "Access level " ++ level.plain ++ " raised while listing user " ++ u.userId.plain
  fault := some kind

/-- Whether one of the levels extends to the user, in their order.  A level that fails hides the
user. -/
def visible (i : Interpretation) (levels : List (Value × AccessLevel)) (context : Value)
    (u : User) : List Value → List Event × Bool
  | [] => ([], false)
  | name :: rest =>
    match Value.find? name levels with
    | none => ([.logged (levelLine name u "KeyError")], false)
    | some l =>
      match i.evaluate l.fn [context, u.toValue] with
      | .error e => ([.called l.fn, .logged (levelLine name u e.kind)], false)
      | .ok v =>
        if v.truthy then ([.called l.fn], true)
        else
          let after := visible i levels context u rest
          (.called l.fn :: after.1, after.2)

/-- The levels of the rulebook of users. -/
def userLevels (r : Registry) : List (Value × AccessLevel) :=
  ((r.metadata? Rulebook.userResource).map Metadata.levels).getD []

/-- The user as it is shown, if one of the levels extends to it. -/
def showVisible (a : Access) (context : Value) (granted : List Value) (u : User) :
    Handler (Option Value) := do
  let seen := visible a.interpretation (userLevels a.registry) context u granted
  .emit seen.1 <|
    if seen.2 then .done ((present u).map some) else return none

/-- Shows the users to whom one of the caller's levels extends. -/
def list (a : Access) : Handler Response := do
  let context ← a.permitted .list
  let answer ← a.decide context (.levels Rulebook.userMember UserAction.list.member)
  let granted := match answer with
    | .levels (some found) => found
    | _ => []
  let users ← Handler.ask .list
  let rows ← Handler.each (showVisible a context granted) users
  return Response.json 200 (.list (rows.filterMap id))

/-! ## 2. Writing -/

/-- Goes on only if every user to be assigned exists and may be updated by the caller. -/
def checkAssigned (a : Access) (context : Value) : List String → Handler Unit
  | [] => return ()
  | userId :: rest => do
    match ← Handler.ask (.get (.text userId)) with
    | none => Handler.fail (.noAssignee userId)
    | some u => do
      a.may context .update u
      checkAssigned a context rest

/-- Adds a user whose id must be free. -/
def add (userId : String) (u : User) : Handler Unit := do
  match ← Handler.tryCall (.add u) with
  | .ok () => return ()
  | .error (.taken _) => Handler.fail (.conflict userId)
  | .error e => Handler.fail (.directory e)

/-- Creates a user. -/
def create (a : Access) (body : Option Value) : Handler Response := do
  let context ← a.permitted .create
  let new ← Handler.ofExcept (UserBody.read UserBody.readNewUser body)
  a.may context .create new.user
  checkAssigned a context new.assignedUsers
  add new.userId new.user
  shown 201 new.user

/-- Changes a user. -/
def change (a : Access) (userId : String) (body : Option Value) : Handler Response := do
  let context ← a.permitted .update
  let changes ← Handler.ofExcept (UserBody.read UserBody.readChanges body)
  let u ← find (.text userId)
  a.may context .update u
  if changes.fields.isEmpty then shown 200 u
  else
    match ← Handler.ask (.update (.text userId) changes.fields) with
    | some changed => shown 200 changed
    | none => Handler.fail (.noUser (.text userId))

/-- Removes a user. -/
def remove (a : Access) (userId : String) : Handler Response := do
  let context ← a.permitted .delete
  let u ← find (.text userId)
  a.may context .delete u
  let _ ← Handler.ask (.remove (.text userId))
  return ⟨204, [], .empty⟩

end AccessControl.Http.UserRoutes
