import AccessControl.Directory.User
import AccessControl.Directory.Fault

/-!
# The directory

The users in the order in which they were added, no two with the same id.  A user that is read
is a copy: what is done to it does not reach the directory.  What a change sets is not checked.
-/

namespace AccessControl

/-- The users, in the order in which they were added. -/
structure Directory where
  users : List User

namespace Directory

/-- A directory without users. -/
def empty : Directory := ⟨[]⟩

/-- How many users there are. -/
def size (d : Directory) : Nat := d.users.length

/-- The user with an id, as it is stored. -/
def stored? (d : Directory) (userId : Value) : Option User :=
  d.users.find? fun u => u.userId.same userId

/-- A copy of a user. -/
def copy (u : User) : Except DirectoryFault User :=
  u.copied.mapError .misuse

/-- Adds a user whose id is not taken. -/
def add (d : Directory) (u : User) : Except DirectoryFault Directory := do
  u.userId.requireKey DirectoryFault.misuse
  if (d.stored? u.userId).isSome then throw (.taken u.userId)
  let stored ← copy u
  return ⟨d.users ++ [stored]⟩

/-- Adds users one after the other. -/
def addAll (d : Directory) : List User → Except DirectoryFault Directory
  | [] => .ok d
  | u :: rest => do
    let next ← d.add u
    addAll next rest

/-- A copy of the user with an id; nothing if there is none, or if the id counts as false. -/
def get (d : Directory) (userId : Value) : Except DirectoryFault (Option User) :=
  if !userId.truthy then .ok none
  else do
    userId.requireKey DirectoryFault.misuse
    match d.stored? userId with
    | none => return none
    | some u => return some (← copy u)

/-- Copies of all users. -/
def list (d : Directory) : Except DirectoryFault (List User) :=
  d.users.mapM copy

/-- The user with some fields changed. -/
def changed (u : User) : List (String × Value) → Except DirectoryFault User
  | [] => .ok u
  | (key, v) :: rest =>
    match u.set? key v with
    | some next => changed next rest
    | none => .error (.unknownField key)

/-- Puts a user in the place of the one with the same id. -/
def replace (d : Directory) (userId : Value) (u : User) : Directory :=
  ⟨d.users.map fun old => if old.userId.same userId then u else old⟩

/-- The arguments that every change has beside the fields. -/
def ownArguments : List String := ["self", "user_id"]

/-- The first argument that is given a second time, as the name of a field. -/
def givenTwice? (changes : List (String × Value)) : Option String :=
  (changes.map Prod.fst).find? ownArguments.contains

/-- Changes fields of the user with an id, and gives a copy of the changed user.  The change is
kept even if the copy cannot be made. -/
def update (d : Directory) (userId : Value) (changes : List (String × Value)) :
    Directory × Except DirectoryFault (Option User) :=
  match givenTwice? changes with
  | some argument => (d, .error (.givenTwice argument))
  | none =>
    match userId.requireKey DirectoryFault.misuse with
    | .error e => (d, .error e)
    | .ok () =>
      match d.stored? userId with
      | none => (d, .ok none)
      | some u =>
        match changed u changes with
        | .error e => (d, .error e)
        | .ok next => (d.replace userId next, (copy next).map some)

/-- Removes the user with an id, and says whether there was one. -/
def remove (d : Directory) (userId : Value) : Directory × Except DirectoryFault Bool :=
  match userId.requireKey DirectoryFault.misuse with
  | .error e => (d, .error e)
  | .ok () =>
    (⟨d.users.filter fun u => !u.userId.same userId⟩, .ok (d.stored? userId).isSome)

end Directory

end AccessControl
