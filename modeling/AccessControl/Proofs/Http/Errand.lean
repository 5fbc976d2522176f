import AccessControl.Proofs.Http.Plan

/-!
# Errands

The plans of the routes that write have one shape, and what differs can be put into one record, an
`Errand`.

1. The caller is looked up.
2. The gate decides about the caller: whether the role is granted the action at all, whether the
   body is acceptable, and, for a new user, whether the caller may create it.
3. The targets are looked up, one after the other.  One that is not there ends the request, and so
   does one about which the caller's levels decide against.
4. The deed is done.

Since the steps before the deed only look, whether it comes to the deed is a function of a
directory, `Errand.verdict`, and if the directory changes on the way, of two directories
(`advance_plan`).

## What is not part of the record

An errand can have any gate and any ruling.  The arguments about two errands need to know that the
decisions do not see an address or a name, and that whoever is changed or removed has been looked
up before; this is `Errand.Proper`.
-/

namespace AccessControl.Http

open Handler

variable {d d' : Directory} {c : Caller} {p : Plan}

/-! ## 1. Errands -/

/-- The caller, by the user that is found under the id of the caller. -/
def Caller.ofUser? : Option User → Caller
  | none => .resolved .null
  | some u =>
    match u.toContext with
    | .ok context => .resolved context
    | .error _ => .unresolved

/-- What a request that writes looks up and does. -/
structure Errand where
  /-- The id of the caller, if the request gives one. -/
  caller : Option String
  /-- The status with which the request ends before any target is looked up, if it does. -/
  gate : Caller → Option Nat
  targets : List String
  /-- The status with which the request ends if a target is not there. -/
  missing : Nat
  /-- The status with which the request ends at a target that is there, if it does. -/
  ruling : Caller → User → Option Nat
  deed : Deed

/-- A plan that is carried out unless the request ends before with a status. -/
def Plan.unless : Option Nat → Plan → Plan
  | some status, _ => ends status
  | none, p => p

theorem Plan.unless_or (x y : Option Nat) (p : Plan) :
    Plan.unless (x.or y) p = Plan.unless x (Plan.unless y p) := by
  cases x <;> rfl

namespace Errand

variable {e : Errand}

/-- The status with which the request ends at a target, if it does. -/
def reply (e : Errand) (c : Caller) : Option User → Option Nat
  | none => some e.missing
  | some u => e.ruling c u

/-- Looks up targets, and does the deed. -/
def lookAll (e : Errand) (c : Caller) : List String → Plan
  | [] => .act e.deed
  | id :: rest => .look id fun found => Plan.unless (e.reply c found) (e.lookAll c rest)

/-- What is left once the caller is known. -/
def planFrom (e : Errand) (c : Caller) : Plan :=
  Plan.unless (e.gate c) (e.lookAll c e.targets)

/-- The plan of the errand. -/
def plan (e : Errand) : Plan :=
  match e.caller with
  | none => e.planFrom (Caller.ofUser? none)
  | some id => .look id fun found => e.planFrom (Caller.ofUser? found)

/-- What all errands have in common: somebody unknown does not get past the gate, the decisions do
not see the address and the name, and a user that is changed or removed has been looked up. -/
structure Proper (e : Errand) : Prop where
  anonymous : e.gate (.resolved .null) ≠ none
  ruling_alike : ∀ c u v, u.Alike v → e.ruling c u = e.ruling c v
  change : ∀ userId changes, e.deed = .change userId changes →
    e.targets = [userId] ∧ e.missing = 404
  remove : ∀ userId, e.deed = .remove userId → e.targets = [userId]

/-! ## 2. Errands as functions of the directory -/

/-- The caller of the errand in a directory. -/
def callerAt (e : Errand) (d : Directory) : Caller :=
  .ofUser? (e.caller.bind d.look)

/-- The status with which the request ends at one of some targets, if it does. -/
def check (e : Errand) (c : Caller) (d : Directory) (ids : List String) : Option Nat :=
  ids.findSome? fun id => e.reply c (d.look id)

/-- The status with which the request ends before the deed, if it does. -/
def verdict (e : Errand) (d : Directory) : Option Nat :=
  (e.gate (e.callerAt d)).or (e.check (e.callerAt d) d e.targets)

/-- What the request comes to: a status, or the deed. -/
def close (e : Errand) (d : Directory) : Option Nat → Directory × Nat
  | some status => (d, status)
  | none => e.deed.perform d

theorem run_unless (x : Option Nat) {y : Option Nat} (h : p.run d = e.close d y) :
    (Plan.unless x p).run d = e.close d (x.or y) := by
  cases x with
  | none => exact h
  | some status => rfl

theorem check_append (e : Errand) (c : Caller) (d : Directory) (ids others : List String) :
    e.check c d (ids ++ others) = (e.check c d ids).or (e.check c d others) :=
  List.findSome?_append

/-- Some of the targets are looked up first, the others after them. -/
theorem check_take_drop (e : Errand) (c : Caller) (d : Directory) (ids : List String) (n : Nat) :
    e.check c d ids = (e.check c d (ids.take n)).or (e.check c d (ids.drop n)) := by
  rw [← check_append, List.take_append_drop]

theorem check_cons (e : Errand) (c : Caller) (d : Directory) (id : String) (rest : List String) :
    e.check c d (id :: rest) = (e.reply c (d.look id)).or (e.check c d rest) := by
  rw [check, List.findSome?_cons]
  cases e.reply c (d.look id) <;> rfl

theorem run_lookAll (e : Errand) (c : Caller) (d : Directory) (ids : List String) :
    (e.lookAll c ids).run d = e.close d (e.check c d ids) := by
  induction ids with
  | nil => rfl
  | cons id rest ih =>
    rw [check_cons]
    exact run_unless _ ih

theorem run_planFrom (e : Errand) (c : Caller) (d : Directory) :
    (e.planFrom c).run d = e.close d ((e.gate c).or (e.check c d e.targets)) :=
  run_unless _ (e.run_lookAll c d e.targets)

/-- **An errand in one directory.** -/
theorem run_plan (e : Errand) (d : Directory) : e.plan.run d = e.close d (e.verdict d) := by
  rw [plan, verdict, callerAt]
  cases e.caller with
  | none => exact e.run_planFrom _ d
  | some id => exact e.run_planFrom _ d

theorem run_plan_of_ends {status : Nat} (h : e.verdict d = some status) :
    e.plan.run d = (d, status) := by
  rw [run_plan, h]
  rfl

theorem run_plan_of_passes (h : e.verdict d = none) : e.plan.run d = e.deed.perform d := by
  rw [run_plan, h]
  rfl

/-- The first targets are looked up in one directory and the others in another one. -/
theorem advance_lookAll (e : Errand) (c : Caller) (d d' : Directory) (ids : List String) (n : Nat) :
    ((e.lookAll c ids).advance d n).run d' =
      e.close d' ((e.check c d (ids.take n)).or (e.check c d' (ids.drop n))) := by
  induction ids generalizing n with
  | nil => cases n <;> rfl
  | cons id rest ih =>
    cases n with
    | zero => exact e.run_lookAll c d' (id :: rest)
    | succ n =>
      rw [List.take_succ_cons, List.drop_succ_cons, check_cons, lookAll, Plan.advance]
      cases e.reply c (d.look id) with
      | none => exact ih n
      | some status =>
        rw [Plan.unless, Plan.ends, Plan.advance_act]
        rfl

theorem advance_planFrom (e : Errand) (c : Caller) (d d' : Directory) (n : Nat) :
    ((e.planFrom c).advance d n).run d' = e.close d' ((e.gate c).or
      ((e.check c d (e.targets.take n)).or (e.check c d' (e.targets.drop n)))) := by
  rw [planFrom]
  cases e.gate c with
  | none => exact e.advance_lookAll c d d' e.targets n
  | some status =>
    rw [Plan.unless, Plan.ends, Plan.advance_act]
    rfl

/-- **An errand in two directories.**  Either the second directory is there from the beginning, or
the caller and some of the targets are looked up in the first one. -/
theorem advance_plan (e : Errand) (d d' : Directory) (n : Nat) :
    (e.plan.advance d n).run d' = e.plan.run d' ∨
      ∃ k, (e.plan.advance d n).run d' = e.close d' ((e.gate (e.callerAt d)).or
        ((e.check (e.callerAt d) d (e.targets.take k)).or
          (e.check (e.callerAt d) d' (e.targets.drop k)))) := by
  rw [plan, callerAt]
  cases e.caller with
  | none => exact Or.inr ⟨n, e.advance_planFrom _ d d' n⟩
  | some id =>
    cases n with
    | zero => exact Or.inl rfl
    | succ n => exact Or.inr ⟨n, e.advance_planFrom _ d d' n⟩

end Errand

end AccessControl.Http
