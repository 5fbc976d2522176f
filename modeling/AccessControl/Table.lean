/-!
# Tables by name

A table is a list of names, each with what belongs to it.  A name that has an entry keeps its place
when the entry is written again, and a new name comes last.
-/

namespace AccessControl

variable {α : Type}

/-- Writes the entry of a name: from what belongs to it, or from nothing if it is new. -/
def upsert (name : String) (write : Option α → α) : List (String × α) → List (String × α)
  | [] => [(name, write none)]
  | (k, a) :: rest =>
    if k = name then (k, write (some a)) :: rest else (k, a) :: upsert name write rest

/-- Sets what belongs to a name. -/
def assign (name : String) (a : α) (table : List (String × α)) : List (String × α) :=
  upsert name (fun _ => a) table

/-- Sets what belongs to several names, one after the other. -/
def assignAll (table entries : List (String × α)) : List (String × α) :=
  entries.foldl (fun acc e => assign e.1 e.2 acc) table

end AccessControl
