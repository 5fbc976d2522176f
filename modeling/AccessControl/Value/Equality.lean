import AccessControl.Value.Basic
import AccessControl.Decimal.Binary

/-!
# When two values are the same

Declarations are matched against one another by value: an action that is granted has to be one
of the actions declared, a level one of the levels.  Numbers are the same when they are equal,
whatever their kind, so that `1`, `1.0` and the truth value agree; texts are the same when their
characters are, also as members of an enumeration; collections of one kind are the same when
their elements are, a map in any order.

A function, a class and the float that is no number are the same as nothing.  A program whose values
are objects finds such a value in a list that holds the very same object; values carry no identity,
so that two occurrences stand for two objects.

Keys have to be hashable: a value that may still change cannot be looked up, and
`Value.unhashable?` names the kind of the part that makes it so.
-/

namespace AccessControl

/-- A whole number or a float. -/
inductive Numeral
  | int (n : Int)
  | float (x : Float)

namespace Numeral

/-- Equality of numbers, exact also between a whole number and a float. -/
def same : Numeral → Numeral → Bool
  | int a, int b => a == b
  | float x, float y => x == y
  | int a, float y => match FloatValue.ofFloat y with
    | .finite b => b.compareInt a == .eq
    | _ => false
  | float x, int b => match FloatValue.ofFloat x with
    | .finite a => a.compareInt b == .eq
    | _ => false

/-- The order of numbers, exact also between a whole number and a float. -/
def le : Numeral → Numeral → Bool
  | int a, int b => a ≤ b
  | float x, float y => x ≤ y
  | int a, float y => match FloatValue.ofFloat y with
    | .finite b => b.compareInt a != .lt
    | .infinite negative => !negative
    | .undefined => false
  | float x, int b => match FloatValue.ofFloat x with
    | .finite a => a.compareInt b != .gt
    | .infinite negative => negative
    | .undefined => false

end Numeral

namespace Value

/-- The number that the value is; the truth values are one and zero. -/
def number? : Value → Option Numeral
  | bool b => some (.int (if b then 1 else 0))
  | int n => some (.int n)
  | float x => some (.float x)
  | _ => none

/-- Equality of values that are not collections. -/
def sameScalar (a b : Value) : Bool :=
  match a.text?, b.text? with
  | some s, some t => s == t
  | none, none => match a.number?, b.number? with
    | some m, some n => m.same n
    | _, _ => false
  | _, _ => false

mutual

/-- The two values are the same.  Values carry no identity: two occurrences of a function, a class
or the float that is no number stand for different objects, and are not the same. -/
def same : Value → Value → Bool
  | null, null => true
  | bytes xs, bytes ys => xs == ys
  | list xs, list ys => sameList xs ys
  | tuple xs, tuple ys => sameList xs ys
  | set xs, set ys => xs.length == ys.length && eachIn xs ys
  | map xs, map ys => xs.length == ys.length && eachEntryIn xs ys
  | view xs, view ys => xs.length == ys.length && eachEntryIn xs ys
  | map xs, view ys => xs.length == ys.length && eachEntryIn xs ys
  | view xs, map ys => xs.length == ys.length && eachEntryIn xs ys
  | record .loose xs, record .loose ys => xs.length == ys.length && eachFieldIn xs ys
  | record (.instanceOf _) _, record _ _ => false
  | record a xs, record b ys => a == b && xs.length == ys.length && eachFieldIn xs ys
  | a, b => sameScalar a b
termination_by structural a => a

/-- Elements at the same place are the same. -/
def sameList : List Value → List Value → Bool
  | [], [] => true
  | x :: xs, y :: ys => same x y && sameList xs ys
  | _, _ => false
termination_by structural xs => xs

/-- Every element of the first list is the same as one of the second. -/
def eachIn : List Value → List Value → Bool
  | [], _ => true
  | x :: xs, ys => ys.any (same x) && eachIn xs ys
termination_by structural xs => xs

/-- Every entry of the first list is the same as one of the second. -/
def eachEntryIn : List (Value × Value) → List (Value × Value) → Bool
  | [], _ => true
  | (k, v) :: xs, ys => ys.any (fun e => same k e.1 && same v e.2) && eachEntryIn xs ys
termination_by structural xs => xs

/-- Every field of the first list is the same as one of the second. -/
def eachFieldIn : List (String × Value) → List (String × Value) → Bool
  | [], _ => true
  | (k, v) :: xs, ys => ys.any (fun e => k == e.1 && same v e.2) && eachFieldIn xs ys
termination_by structural xs => xs

end

@[simp] theorem same_text (s t : String) : same (text s) (text t) = (s == t) := by
  simp [same, sameScalar]

mutual

/-- The kind of the part of the value that cannot be a key, if there is one. -/
def unhashable? : Value → Option String
  | list _ => some "list"
  | set _ => some "set"
  | map _ => some "dict"
  | view _ => some "mappingproxy"
  | tuple items => unhashableItem? items
  | record .loose _ => some "types.SimpleNamespace"
  | record .user _ => some "User"
  | record .definition _ => some "ResourceDefinition"
  | record (.instanceOf model) _ => some model
  | record _ fields => unhashableField? fields
  | _ => none
termination_by structural v => v

/-- The kind of the first element that cannot be a key. -/
def unhashableItem? : List Value → Option String
  | [] => none
  | v :: rest => match unhashable? v with
    | some kind => some kind
    | none => unhashableItem? rest
termination_by structural vs => vs

/-- The kind of the first field that cannot be a key. -/
def unhashableField? : List (String × Value) → Option String
  | [] => none
  | (_, v) :: rest => match unhashable? v with
    | some kind => some kind
    | none => unhashableField? rest
termination_by structural vs => vs

end

@[simp] theorem unhashable?_text (s : String) : unhashable? (text s) = none := by
  simp [unhashable?]

/-- The value under a key that is the same as the given one. -/
def find? (key : Value) : List (Value × α) → Option α
  | [] => none
  | (k, v) :: rest => if same k key then some v else find? key rest

/-- Sets the value under a key; a key that is present keeps its place. -/
def put (key : Value) (v : α) : List (Value × α) → List (Value × α)
  | [] => [(key, v)]
  | (k, w) :: rest => if same k key then (k, v) :: rest else (k, w) :: put key v rest

/-- Adds an element to a list without repetition. -/
def addTo (items : List Value) (v : Value) : List Value :=
  if items.any (same · v) then items else items ++ [v]

/-- The elements without repetitions, in the order of their first occurrence. -/
def distinct (items : List Value) : List Value :=
  items.foldl addTo []

mutual

/-- Whether the first value comes before or with the second; nothing if they have no order. -/
def le? : Value → Value → Option Bool
  | list xs, list ys => leList? xs ys
  | tuple xs, tuple ys => leList? xs ys
  | bytes xs, bytes ys => some (!(decide (ys < xs)))
  | set xs, set ys => some (eachIn xs ys)
  | a, b => match a.text?, b.text? with
    | some s, some t => some (!(decide (t < s)))
    | _, _ => match a.number?, b.number? with
      | some m, some n => some (m.le n)
      | _, _ => none
termination_by structural a => a

/-- Lists are ordered by their first elements that differ. -/
def leList? : List Value → List Value → Option Bool
  | [], _ => some true
  | _ :: _, [] => some false
  | x :: xs, y :: ys => if same x y then leList? xs ys else le? x y
termination_by structural xs => xs

end

/-- Whether the first value comes before the second; nothing if they have no order. -/
def lt? (a b : Value) : Option Bool :=
  (le? a b).map (· && !same a b)

/-- Inserts a value before the first one that comes after it. -/
def insertSorted (v : Value) : List Value → Option (List Value)
  | [] => some [v]
  | w :: rest => do
    if ← lt? v w then return v :: w :: rest
    return w :: (← insertSorted v rest)

/-- The values in order; nothing if two of them have no order. -/
def sorted? : List Value → Option (List Value)
  | [] => some []
  | v :: rest => do insertSorted v (← sorted? rest)

/-- The first list occurs in the second without gaps. -/
def occursIn [BEq α] (xs : List α) : List α → Bool
  | [] => xs.isEmpty
  | y :: ys => xs.isPrefixOf (y :: ys) || occursIn xs ys

/-- The elements that a collection goes through: the characters of a text, the keys of a map,
the members of an enumeration.  Nothing for a value that is not a collection. -/
def items? : Value → Option (List Value)
  | text s => some (s.toList.map fun c => text (String.singleton c))
  | member _ _ (text s) => some (s.toList.map fun c => text (String.singleton c))
  | bytes data => some (data.map fun b => int b.toNat)
  | list items => some items
  | tuple items => some items
  | set items => some items
  | map es => some (es.map Prod.fst)
  | view es => some (es.map Prod.fst)
  | callable (.enumeration e members) =>
    some ((distinctMembers same [] members).map fun m => member e m.1 m.2)
  | _ => none

/-- The names that a declaration lists: the values of an enumeration, the values of a map, a
single text, or the elements of a collection.  Nothing for a value that lists nothing. -/
def names? : Value → Option (List Value)
  | map es => some (es.map fun e => e.2.name)
  | view es => some (es.map fun e => e.2.name)
  | text s => some [text s]
  | member e n (text s) => some [member e n (text s)]
  | v => v.items?.map (List.map name)

/-- Whether a collection holds an element; nothing if the question has no answer. -/
def contains? (item : Value) : Value → Option Bool
  | list items => some (items.any (same · item))
  | tuple items => some (items.any (same · item))
  | set items => match item with
    -- a set is looked up as one that does not change
    | set _ => some (items.any (same · item))
    | _ => if item.unhashable?.isSome then none else some (items.any (same · item))
  | map es => if item.unhashable?.isSome then none else some (es.any (same ·.1 item))
  | view es => if item.unhashable?.isSome then none else some (es.any (same ·.1 item))
  | bytes data => match item with
    | bytes part => some (occursIn part data)
    | _ => match item.number? with
      | some (.int n) => some (data.any fun b => (b.toNat : Int) == n)
      | _ => none
  | callable (.enumeration e members) => match item with
    | member e' n _ => some (e == e' && members.any (·.1 == n))
    | _ => none
  | container => match container.text?, item.text? with
    | some whole, some part => some (occursIn part.toList whole.toList)
    | _, _ => none

end Value

end AccessControl
