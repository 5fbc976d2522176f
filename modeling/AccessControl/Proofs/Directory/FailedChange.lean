import AccessControl.Proofs.Directory.InsertionOrder

/-!
# Changes that fail

A change can fail at five places: an argument is given twice, the id cannot be a key, a field does
not exist, or --- when all this is well and the changed user is already in the directory --- the
copy for the caller cannot be made.  The first four leave the directory alone.  The last does not,
and after it neither the user nor the list of all users can be read: the change *spoils* the user
(`Spoils`).

## When it happens

A copy fails for one reason only, which is that the ids managed by the user are not a collection.
So a change spoils the user who is found under the id exactly when all of its fields exist and the
ids managed, after the change, are no collection; nothing else that it sets matters
(`failed_update_seen_iff`).

Adding a user copies before it stores.  So it refuses the user whom a change lets in, and a
directory to which users were only added can be read: what is assumed about `list` in the last part
of the theorem is lost by changes alone.
-/

namespace AccessControl.Directory

/-- Whoever reads the one directory reads the same, or fails in the same way, in the other. -/
structure ReadsAs (d d' : Directory) : Prop where
  get : ∀ id, d'.get id = d.get id
  list : d'.list = d.list

/-- The change reaches the user, and leaves ids managed that are no collection. -/
structure Spoils (d : Directory) (id : Value) (changes : List (String × Value)) (u : User) :
    Prop where
  key : id.unhashable? = none
  found : d.stored? id = some u
  fields : ∀ c ∈ changes, c.1 ∈ User.fieldNames ∧ c.1 ≠ "user_id"
  assigned : ((changes.reverse.lookup "assigned_users").getD u.assignedUsers).items? = none

variable {d : Directory} {u w : User} {id : Value} {changes : List (String × Value)}

/-! ## 1. Copies -/

/-- A copy fails exactly when the ids managed are no collection. -/
theorem copy_eq_error_iff {e : DirectoryFault} :
    copy u = .error e ↔
      u.assignedUsers.items? = none ∧ e = .misuse (.notIterable u.assignedUsers.operandName) := by
  rw [copy, User.copied]
  cases u.assignedUsers.items? with
  | none =>
    constructor
    · intro h
      cases h
      exact ⟨rfl, rfl⟩
    · rintro ⟨-, rfl⟩
      rfl
  | some items =>
    constructor
    · intro h
      cases h
    · rintro ⟨h, -⟩
      cases h

/-- One user of whom there is no copy is enough for the list to fail. -/
theorem exists_list_eq_error {e : DirectoryFault} (hu : u ∈ d.users) (hcopy : copy u = .error e) :
    ∃ e', d.list = .error e' := by
  cases hlist : d.list with
  | error e' => exact ⟨e', rfl⟩
  | ok users =>
    obtain ⟨c, hc⟩ := exists_mapM_eq_ok_iff.mp ⟨users, hlist⟩ u hu
    rw [hcopy] at hc
    cases hc

/-! ## 2. Replacements -/

theorem same_of_stored? (h : d.stored? id = some u) : u.userId.same id = true := by
  simpa using List.find?_some h

theorem mem_users_replace (h : d.stored? id = some u) (w : User) : w ∈ (d.replace id w).users :=
  List.mem_map.mpr ⟨u, List.mem_of_find?_eq_some h, if_pos (same_of_stored? h)⟩

/-- Who is put in the place of a user with the same id is found under the id. -/
theorem stored?_replace_self (h : d.stored? id = some u) (hid : w.userId = u.userId) :
    (d.replace id w).stored? id = some w := by
  have hsame : w.userId.same id = true := by
    rw [hid]
    exact same_of_stored? h
  rw [stored?] at h
  rw [stored?, replace]
  generalize d.users = users at h
  induction users with
  | nil => cases h
  | cons v rest ih =>
    rw [List.map_cons, List.find?_cons]
    cases hv : v.userId.same id with
    | true => rw [if_pos rfl, hsame]
    | false =>
      rw [List.find?_cons, hv] at h
      rw [if_neg Bool.false_ne_true, hv]
      exact ih h

/-- The user under an id that counts as true is got as a copy. -/
theorem get_of_stored? (hkey : id.requireKey DirectoryFault.misuse = .ok ())
    (htruthy : id.truthy = true)
    (h : d.stored? id = some u) : d.get id = (copy u).map some := by
  rw [get, htruthy, hkey, h]
  simp only [Bool.not_true, Bool.false_eq_true, if_false, ok_bind]
  cases copy u <;> rfl

/-! ## 3. Changes -/

theorem givenTwice?_eq_none_of_fields
    (h : ∀ c ∈ changes, c.1 ∈ User.fieldNames ∧ c.1 ≠ "user_id") :
    givenTwice? changes = none := by
  have hapart : ∀ key ∈ User.fieldNames, key ≠ "user_id" → ¬ ownArguments.contains key = true := by
    decide
  rw [givenTwice?, List.find?_eq_none]
  intro key hkey
  obtain ⟨c, hc, rfl⟩ := List.mem_map.mp hkey
  exact hapart c.1 (h c hc).1 (h c hc).2

theorem ne_user_id_of_givenTwice? (h : givenTwice? changes = none) :
    ∀ c ∈ changes, c.1 ≠ "user_id" := by
  rw [givenTwice?, List.find?_eq_none] at h
  rintro c hc hname
  refine h c.1 (List.mem_map_of_mem hc) ?_
  rw [hname]
  decide

/-- What a change does: nothing to the directory, or it puts the changed user in the place of the
one under the id, and answers with a copy. -/
theorem update_cases (d : Directory) (id : Value) (changes : List (String × Value)) :
    (d.update id changes).1 = d ∨
      ∃ u w, id.unhashable? = none ∧ d.stored? id = some u ∧ givenTwice? changes = none ∧
        changed u changes = .ok w ∧
        d.update id changes = (d.replace id w, (copy w).map some) := by
  rw [update]
  cases htwice : givenTwice? changes with
  | some argument => exact Or.inl rfl
  | none =>
    cases hkey : id.requireKey DirectoryFault.misuse with
    | error e => exact Or.inl rfl
    | ok _ =>
      cases hfound : d.stored? id with
      | none => exact Or.inl rfl
      | some u =>
        cases hchanged : changed u changes with
        | error e =>
          refine Or.inl ?_
          simp only [hchanged]
        | ok w =>
          refine Or.inr ⟨u, w, Value.requireKey_eq_ok_iff.mp hkey, rfl, rfl, hchanged, ?_⟩
          simp only [hchanged]

/-- The ids managed after a change are the last that it gives, or those of before. -/
theorem assignedUsers_changed (h : changed u changes = .ok w) :
    w.assignedUsers = (changes.reverse.lookup "assigned_users").getD u.assignedUsers := by
  have hfield := lookup_fields_changed h "assigned_users"
  have hold : u.fields.lookup "assigned_users" = some u.assignedUsers := rfl
  have hnew : w.fields.lookup "assigned_users" = some w.assignedUsers := rfl
  rw [hold, hnew] at hfield
  cases hlast : changes.reverse.lookup "assigned_users" with
  | none =>
    rw [hlast, Option.none_or] at hfield
    exact Option.some.inj hfield
  | some v =>
    rw [hlast, Option.some_or] at hfield
    exact Option.some.inj hfield

/-- **A change that fails** has done nothing, or it has spoiled the user. -/
theorem update_error_cases {e : DirectoryFault} (h : (d.update id changes).2 = .error e) :
    (d.update id changes).1 = d ∨ ∃ u, d.Spoils id changes u := by
  rcases update_cases d id changes with hsame | ⟨u, w, hkey, hfound, htwice, hchanged, hupdate⟩
  · exact Or.inl hsame
  · have hcopy : copy w = .error e := by
      rw [hupdate] at h
      exact map_eq_error_iff.mp h
    refine Or.inr ⟨u, hkey, hfound, fun c hc => ⟨?_, ne_user_id_of_givenTwice? htwice c hc⟩, ?_⟩
    · exact exists_changed_iff.mp ⟨w, hchanged⟩ c hc
    · rw [← assignedUsers_changed hchanged]
      exact (copy_eq_error_iff.mp hcopy).1

/-- **A change that spoils a user** fails, and so do the readers of the user and of the list from
then on. -/
theorem Spoils.update_eq (h : d.Spoils id changes u) :
    ∃ kind : String,
      (d.update id changes).2 = .error (.misuse (.notIterable kind)) ∧
      (id.truthy = true →
        (d.update id changes).1.get id = .error (.misuse (.notIterable kind))) ∧
      ∃ e, (d.update id changes).1.list = .error e := by
  obtain ⟨w, hchanged⟩ := (exists_changed_iff (u := u)).mpr fun c hc => (h.fields c hc).1
  have hkey : id.requireKey DirectoryFault.misuse = .ok () := Value.requireKey_eq_ok_iff.mpr h.key
  have hid : w.userId = u.userId := userId_changed hchanged fun c hc => (h.fields c hc).2
  have hcopy : copy w = .error (.misuse (.notIterable w.assignedUsers.operandName)) := by
    rw [copy_eq_error_iff, assignedUsers_changed hchanged]
    exact ⟨h.assigned, rfl⟩
  have hupdate : d.update id changes = (d.replace id w, (copy w).map some) := by
    rw [update, givenTwice?_eq_none_of_fields h.fields, hkey, h.found]
    simp only [hchanged]
  rw [hupdate]
  refine ⟨w.assignedUsers.operandName, ?_, ?_, ?_⟩
  · rw [hcopy]
    rfl
  · intro htruthy
    rw [get_of_stored? hkey htruthy (stored?_replace_self h.found hid), hcopy]
    rfl
  · exact exists_list_eq_error (mem_users_replace h.found w) hcopy

/-- **When a change that fails can be seen.**  Whatever the directory, the id and the change:

* a change that fails leaves the directory as it was, or it spoils the user under the id;
* a change that spoils a user fails, and from then on getting the user fails in the same way, unless
  the id counts as false, and so does listing;
* in a directory that could be listed, a change fails and makes a difference to readers exactly when
  it spoils a user. -/
theorem failed_update_seen_iff (d : Directory) (id : Value) (changes : List (String × Value)) :
    (∀ e, (d.update id changes).2 = .error e →
      (d.update id changes).1 = d ∨ ∃ u, d.Spoils id changes u) ∧
    (∀ u, d.Spoils id changes u → ∃ kind : String,
      (d.update id changes).2 = .error (.misuse (.notIterable kind)) ∧
      (id.truthy = true →
        (d.update id changes).1.get id = .error (.misuse (.notIterable kind))) ∧
      ∃ e, (d.update id changes).1.list = .error e) ∧
    (∀ users, d.list = .ok users →
      (((∃ e, (d.update id changes).2 = .error e) ∧ ¬ d.ReadsAs (d.update id changes).1) ↔
        ∃ u, d.Spoils id changes u)) := by
  refine ⟨fun e h => update_error_cases h, fun u h => h.update_eq, fun users hlist => ?_⟩
  constructor
  · rintro ⟨⟨e, herror⟩, hseen⟩
    rcases update_error_cases herror with hsame | hspoils
    · refine absurd ?_ hseen
      rw [hsame]
      exact ⟨fun _ => rfl, rfl⟩
    · exact hspoils
  · rintro ⟨u, hspoils⟩
    obtain ⟨kind, herror, -, e, hfails⟩ := hspoils.update_eq
    refine ⟨⟨_, herror⟩, fun hreads => ?_⟩
    have hsame := hreads.list
    rw [hfails, hlist] at hsame
    cases hsame

/-- The case of a directory with one user, whose ids managed are set to a number. -/
theorem failed_update_seen_iff_number :
    let d := empty.afterCalls [.add (newcomer "a")]
    let changes := [("rank", .int 5), ("assigned_users", Value.int 5)]
    d.list = .ok [newcomer "a"] ∧ d.Spoils (.text "a") changes (newcomer "a") ∧
      (∃ e, (d.update (.text "a") changes).2 = .error e) ∧
      (∃ e, (d.update (.text "a") changes).1.get (.text "a") = .error e) ∧
      ¬ d.ReadsAs (d.update (.text "a") changes).1 := by
  intro d changes
  have hlist : d.list = .ok [newcomer "a"] := rfl
  have hspoils : d.Spoils (.text "a") changes (newcomer "a") :=
    ⟨rfl, rfl, by decide, rfl⟩
  obtain ⟨-, hfails, hseen⟩ := failed_update_seen_iff d (.text "a") changes
  obtain ⟨kind, -, hget, -⟩ := hfails _ hspoils
  obtain ⟨herror, hdiffers⟩ := (hseen _ hlist).mpr ⟨_, hspoils⟩
  exact ⟨hlist, hspoils, herror, ⟨_, hget rfl⟩, hdiffers⟩

/-- **Failed, but stored.**  After a change that fails, the user who could be read before cannot be
read any more, and neither can the list. -/
theorem failed_but_stored :
    let d := empty.afterCalls [.add (newcomer "a")]
    let done := d.update (.text "a") [("assigned_users", .int 5)]
    let failure := DirectoryFault.misuse (.notIterable "int")
    done.2 = .error failure ∧
    d.get (.text "a") = .ok (some (newcomer "a")) ∧ done.1.get (.text "a") = .error failure ∧
    d.list = .ok [newcomer "a"] ∧ done.1.list = .error failure :=
  ⟨rfl, rfl, rfl, rfl, rfl⟩

end AccessControl.Directory
