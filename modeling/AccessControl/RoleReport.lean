import AccessControl.Registry.Basic
import AccessControl.Value.Flatten
import AccessControl.Fault

/-!
# Reports on roles

A role is reported with its definition and with everything it is granted.  A definition can be
any value; in a report it is always a map: of its fields, of its entries, or, for a value without
parts, of its text under the key `value`.  Inside, a member of an enumeration is replaced by the
value behind it.
-/

namespace AccessControl

namespace RoleReport

/-- Why a role cannot be reported. -/
inductive Flaw
  /-- Some names are not texts. -/
  | issues (found : List Issue)
  /-- The relationships have no order. -/
  | misuse (m : Misuse)

namespace Flaw

/-- The short name of the error. -/
def kind : Flaw → String
  | issues _ => "ValidationError"
  | misuse m => m.kind

end Flaw

/-! ## 1. Definitions -/

/-- A value inside a definition: what stands behind it, if it has a value behind it. -/
def behind (v : Value) : Value :=
  (v.field? "value").getD v

/-- A role definition as the entries of a map. -/
def definitionEntries (v : Value) : List (Value × Value) :=
  let entries := match v with
    | .record shape fields =>
      if shape.isDeclared then Value.flattenFields fields else [(.text "value", .text v.plain)]
    | .map es => es
    | v => [(.text "value", .text v.plain)]
  entries.map fun e => (e.1, behind e.2)

/-! ## 2. Grants -/

/-- A name in a list, which has to be a text. -/
def readName (place : List Place) (v : Value) : Checked Value :=
  match v.text? with
  | some s => .ok (.text s)
  | none => Checked.issue place .notText

/-- The names of a list. -/
def readNames (place : List Place) (names : List Value) : Checked Value :=
  (Checked.each (fun n => readName (place ++ [.index n])) 0 names).map Value.list

/-- The entries of a map from texts, each read at its place. -/
def readEntries (place : List Place) (read : List Place → α → Checked Value)
    (entries : List (Value × α)) : Checked Value :=
  let readEntry (_ : Nat) (e : Value × α) : Checked (Value × Value) :=
    Checked.also
      ((readName (place ++ [.ofKey e.1, .key "[key]"]) e.1).map Prod.mk)
      (read (place ++ [.ofKey e.1]) e.2)
  (Checked.each readEntry 0 entries).map Value.map

/-- Relationships in order. -/
def orderedNames (names : List Value) : Except Flaw (List Value) :=
  match Value.sorted? names with
  | some sorted => .ok sorted
  | none =>
    match names with
    | a :: b :: _ => .error (.misuse (.unordered "<" b.typeName a.typeName))
    | _ => .ok names

/-- A grant as a map of its actions and its relationships. -/
def ofGrant (g : Grant) : Except Flaw Value := do
  let held ← orderedNames g.relationships
  let actions := readEntries [.key "actions"] readNames g.permissions
  let relationships := readNames [.key "relationships"] held
  let pair (a r : Value) : Value :=
    .map [(.text "actions", a), (.text "relationships", r)]
  (Checked.also (actions.map pair) relationships).mapError Flaw.issues

/-! ## 3. Reports -/

/-- The definition of a role as a map from texts. -/
def readDefinition (v : Value) : Except Flaw Value :=
  let read (_ : List Place) (v : Value) : Checked Value := .ok (Value.flatten v)
  (readEntries [.key "definition"] read (definitionEntries v)).mapError Flaw.issues

/-- What the role is granted, by resource. -/
def permissionEntries : List (String × Grant) → Except Flaw (List (Value × Value))
  | [] => .ok []
  | (resource, g) :: rest => do
    let grant ← ofGrant g
    let later ← permissionEntries rest
    return (.text resource, grant) :: later

/-- The report on a role: its name, its definition and its grants. -/
def ofRoleInfo (info : RoleInfo) : Except Flaw Value := do
  let permissions ← permissionEntries info.permissions
  let definition ← readDefinition info.definition
  return .map [(.text "role", .text info.role), (.text "definition", definition),
    (.text "permissions", .map permissions)]

/-- A line in the list of all roles: name, definition, and whether it is the default. -/
def summary (r : Registry) (role : String × Value) : Except Flaw Value := do
  let definition ← readDefinition role.2
  return .map [(.text "role", .text role.1), (.text "definition", definition),
    (.text "default", .bool (r.defaultRole == some role.1))]

end RoleReport

end AccessControl
