import AccessControl.Http.UserRoutes
import AccessControl.Proofs.Http.Presentation

/-!
# What a request can do to the directory

A request writes at most once, and there are three ways to write: a user is created, the address or
the name of one is changed, or one is removed.  Such a write is a `Deed`, and each of the three is
about the user with one id, its subject.

Here a deed is a function on lists of users.  Nothing is assumed about the users except that they
can be shown, not even that their ids are distinct; `perform_add` and `perform_update` say that the
calls of the directory do what the deeds do, and a removal is the call as it stands.

## What a deed leaves as it is

Whoever is looked up under an id is found again after a deed, perhaps with another address or
another name, unless it is this user that has been removed (`stored?_perform`).  Two deeds about
different users can be done in either order; this is needed for a removal and any other deed
(`perform_without`).
-/

namespace AccessControl

/-! ## 1. Looking up -/

/-- The two users differ at most in their addresses and in their names. -/
def User.Alike (u v : User) : Prop :=
  v = { u with email := v.email, displayName := v.displayName }

theorem User.Alike.refl (u : User) : u.Alike u := rfl

namespace Value

/-- A value is the same as a text if it is this text, directly or as a member. -/
theorem same_text_eq (v : Value) (s : String) : v.same (.text s) = (v.text? == some s) := by
  rw [Bool.eq_iff_iff, same_eq_true_iff_of_isText (isText_text s), beq_iff_eq]
  rfl

end Value

namespace Directory

variable {d : Directory} {id other : String} {u v : User}

/-- The user that is got under an id: nobody is got under the empty one. -/
def look (d : Directory) (id : String) : Option User :=
  if id = "" then none else d.stored? (.text id)

theorem mem_of_stored? {key : Value} (h : d.stored? key = some u) : u ∈ d.users :=
  List.mem_of_find?_eq_some h

theorem text?_of_stored? (h : d.stored? (.text id) = some u) : u.userId.text? = some id := by
  have hsame : u.userId.same (.text id) = true := by simpa using List.find?_some h
  exact Value.text?_of_same rfl hsame

theorem mem_of_look (h : d.look id = some u) : u ∈ d.users := by
  rw [look] at h
  split at h
  · cases h
  · exact mem_of_stored? h

/-- **Getting** looks up the id. -/
theorem get_eq_look (hd : d.Presentable) (id : String) : d.get (.text id) = .ok (d.look id) := by
  rw [get, look]
  by_cases hid : id = ""
  · rw [if_pos hid, hid]
    rfl
  · have htruthy : (!(Value.text id).truthy) = false := by simpa [Value.truthy] using hid
    have hkey : Value.requireKey DirectoryFault.misuse (.text id) = .ok () := rfl
    rw [if_neg hid, htruthy, hkey]
    cases hstored : d.stored? (.text id) with
    | none => rfl
    | some u =>
      have hcopy : copy u = .ok u := (hd u (mem_of_stored? hstored)).copy_eq
      simp only [Bool.false_eq_true, if_false, ok_bind, hcopy]
      rfl

theorem perform_get (hd : d.Presentable) (id : String) :
    d.perform (.get (.text id)) = (d, .ok (d.look id)) := by
  rw [← get_eq_look hd]
  rfl

/-- The directory without the users with an id. -/
def without (d : Directory) (id : String) : Directory :=
  ⟨d.users.filter fun u => !u.userId.same (.text id)⟩

theorem stored?_without_self (d : Directory) (id : String) :
    (d.without id).stored? (.text id) = none := by
  rw [stored?, without, List.find?_eq_none]
  intro u hu
  simpa using (List.mem_filter.mp hu).2

/-- Without one user, the others are still there. -/
theorem stored?_without_of_ne (hid : id ≠ other) :
    (d.without other).stored? (.text id) = d.stored? (.text id) := by
  rw [stored?, without, stored?, List.find?_filter]
  congr 1
  funext u
  simp only [Value.same_text_eq]
  cases hu : u.userId.text? == some id with
  | false => simp
  | true =>
    rw [eq_of_beq hu]
    simpa using hid

theorem look_without_self (d : Directory) (id : String) : (d.without id).look id = none := by
  rw [look, stored?_without_self, ite_self]

theorem look_without_of_ne (hid : id ≠ other) : (d.without other).look id = d.look id := by
  rw [look, look, stored?_without_of_ne hid]

/-- Under every id is found what was found before; only where there was the user that is put in
its place is found instead. -/
theorem stored?_replace (hv : v.userId.text? = some other) :
    (d.replace (.text other) v).stored? (.text id) =
      (d.stored? (.text id)).map fun u => if u.userId.same (.text other) then v else u := by
  have hnames (u : User) : (if u.userId.same (.text other) then v else u).userId.text? =
      u.userId.text? := by
    rw [Value.same_text_eq]
    split_ifs with hu
    · rw [hv, eq_of_beq hu]
    · rfl
  rw [stored?, replace, List.find?_map, stored?]
  congr 2
  funext u
  simp only [Function.comp_apply, Value.same_text_eq] at hnames ⊢
  rw [hnames]

end Directory

/-! ## 2. Deeds -/

namespace Http

variable {d : Directory} {id other : String} {u v : User}

/-- What is done in the end: nothing, with the status of the response, or one write. -/
inductive Deed
  | idle (status : Nat)
  | create (new : NewUser)
  | change (userId : String) (changes : UserChanges)
  | remove (userId : String)

/-- The user with the changes. -/
def UserChanges.revise (changes : UserChanges) (u : User) : User :=
  { u with
    email := (changes.email.map Value.text).getD u.email
    displayName := (changes.displayName.map Value.text).getD u.displayName }

theorem UserChanges.alike_revise (changes : UserChanges) (u : User) :
    u.Alike (changes.revise u) := rfl

theorem UserChanges.userId_revise (changes : UserChanges) (u : User) :
    (changes.revise u).userId = u.userId := rfl

theorem UserChanges.changed_eq_revise (changes : UserChanges) (u : User) :
    Directory.changed u changes.fields = .ok (changes.revise u) := by
  obtain ⟨displayName, email⟩ := changes
  cases displayName <;> cases email <;> rfl

theorem UserChanges.givenTwice?_fields (changes : UserChanges) :
    Directory.givenTwice? changes.fields = none := by
  obtain ⟨displayName, email⟩ := changes
  cases displayName <;> cases email <;> rfl

theorem UserChanges.presentable_revise (changes : UserChanges) (hu : u.Presentable) :
    (changes.revise u).Presentable := by
  obtain ⟨displayName, email⟩ := changes
  refine hu.with_contact ?_ ?_
  · cases email with
    | none => exact hu.email_readable
    | some s => exact Value.isReadable_text s
  · cases displayName with
    | none => exact hu.displayName_readable
    | some s => exact Value.isReadable_text s

namespace Deed

/-- The id of the user that the deed is about. -/
def subject? : Deed → Option String
  | idle _ => none
  | create new => some new.userId
  | change userId _ => some userId
  | remove userId => some userId

/-- The directory after the deed, and the status of the response. -/
def perform (d : Directory) : Deed → Directory × Nat
  | idle status => (d, status)
  | create new =>
    if (d.stored? (.text new.userId)).isSome then (d, 409) else (⟨d.users ++ [new.user]⟩, 201)
  | change userId changes =>
    match d.stored? (.text userId) with
    | none => (d, 404)
    | some u => (d.replace (.text userId) (changes.revise u), 200)
  | remove userId => (d.without userId, 204)

/-! ## 3. Deeds and calls -/

/-- Adding a user is creating it, unless its id is taken. -/
theorem perform_add (d : Directory) (new : NewUser) :
    d.perform (.add new.user) = if (d.stored? (.text new.userId)).isSome
      then (d, .error (.taken (.text new.userId))) else (⟨d.users ++ [new.user]⟩, .ok ()) := by
  have hkey : new.user.userId.requireKey DirectoryFault.misuse = .ok () := rfl
  have hcopy : Directory.copy new.user = .ok new.user := rfl
  have hname : new.user.userId = .text new.userId := rfl
  rw [Directory.perform, Directory.add, hkey, hcopy, hname]
  cases (d.stored? (.text new.userId)).isSome with
  | true => rfl
  | false => rfl

/-- Updating is changing the user with the id, if there is one. -/
theorem perform_update (hd : d.Presentable) (userId : String) (changes : UserChanges) :
    d.perform (.update (.text userId) changes.fields) =
      match d.stored? (.text userId) with
      | none => (d, .ok none)
      | some u => (d.replace (.text userId) (changes.revise u), .ok (some (changes.revise u))) := by
  have hkey : Value.requireKey DirectoryFault.misuse (.text userId) = .ok () := rfl
  rw [Directory.perform, Directory.update, changes.givenTwice?_fields, hkey]
  cases hstored : d.stored? (.text userId) with
  | none => rfl
  | some u =>
    have hu : u.Presentable := hd u (Directory.mem_of_stored? hstored)
    have hcopy : Directory.copy (changes.revise u) = .ok (changes.revise u) :=
      (changes.presentable_revise hu).copy_eq
    simp only [changes.changed_eq_revise, hcopy]
    rfl

/-- A new user can be shown. -/
theorem presentable_user (new : NewUser) : new.user.Presentable := by
  have hassigned : ∃ ids, readTexts [.key "assigned_users"]
      (.list (new.assignedUsers.map .text)) = .ok ids := ⟨_, readTexts_texts _ _⟩
  have hstatus : ∃ s, readStatus [.key "status"] Status.active.member = .ok s := ⟨_, rfl⟩
  exact User.presentable_iff.mpr ((showUser_ok_iff_fields _).mpr
    ⟨Value.isReadable_text _, Value.isReadable_text _, Value.isReadable_text _, ⟨_, rfl⟩,
      hstatus, Value.isReadable_text _, hassigned⟩)

/-- **After a deed** every user can be shown if every user could be before. -/
theorem presentable_perform (hd : d.Presentable) (deed : Deed) :
    (deed.perform d).1.Presentable := by
  cases deed with
  | idle status => exact hd
  | create new =>
    rw [perform]
    split_ifs with htaken
    · exact hd
    · intro u hu
      rcases List.mem_append.mp hu with hu | hu
      · exact hd u hu
      · rw [List.mem_singleton.mp hu]
        exact presentable_user new
  | change userId changes =>
    rw [perform]
    cases hstored : d.stored? (.text userId) with
    | none => exact hd
    | some u =>
      intro v hv
      obtain ⟨old, hold, rfl⟩ := List.mem_map.mp hv
      show (if old.userId.same (.text userId) then changes.revise u else old).Presentable
      split_ifs with hsame
      · exact changes.presentable_revise (hd u (Directory.mem_of_stored? hstored))
      · exact hd old hold
  | remove userId =>
    intro u hu
    exact hd u (List.mem_filter.mp hu).1

/-! ## 4. What a deed leaves as it is -/

/-- **Who is looked up** is found again after a deed, unless it is this user that is removed. -/
theorem stored?_perform (deed : Deed) (hdeed : deed ≠ .remove id)
    (hu : d.stored? (.text id) = some u) :
    ∃ v, (deed.perform d).1.stored? (.text id) = some v ∧ u.Alike v := by
  cases deed with
  | idle status => exact ⟨u, hu, .refl u⟩
  | create new =>
    rw [perform]
    split_ifs with htaken
    · exact ⟨u, hu, .refl u⟩
    · refine ⟨u, ?_, .refl u⟩
      have hbefore : d.users.find? (fun v => v.userId.same (.text id)) = some u := hu
      rw [Directory.stored?, List.find?_append, hbefore]
      rfl
  | change userId changes =>
    rw [perform]
    cases hstored : d.stored? (.text userId) with
    | none => exact ⟨u, hu, .refl u⟩
    | some old =>
      have hname : (changes.revise old).userId.text? = some userId := by
        rw [changes.userId_revise, Directory.text?_of_stored? hstored]
      simp only [Directory.stored?_replace hname, hu, Option.map_some]
      by_cases hsame : u.userId.same (.text userId) = true
      · -- the user is the one that has been changed, since it has been found under this id
        rw [Value.same_text_eq, Directory.text?_of_stored? hu] at hsame
        have hid : id = userId := by simpa using hsame
        rw [hid, hstored] at hu
        cases hu
        refine ⟨_, rfl, ?_⟩
        rw [Value.same_text_eq, Directory.text?_of_stored? hstored, beq_self_eq_true, if_pos rfl]
        exact changes.alike_revise _
      · rw [if_neg hsame]
        exact ⟨u, rfl, .refl u⟩
  | remove userId =>
    have hid : id ≠ userId := fun heq => hdeed (by rw [heq])
    refine ⟨u, ?_, .refl u⟩
    rw [perform, Directory.stored?_without_of_ne hid]
    exact hu

theorem look_perform (deed : Deed) (hdeed : deed ≠ .remove id) (hu : d.look id = some u) :
    ∃ v, (deed.perform d).1.look id = some v ∧ u.Alike v := by
  rw [Directory.look] at hu ⊢
  split_ifs at hu ⊢ with hid
  exact stored?_perform deed hdeed hu

/-- **A removal and a deed** about another user can be done in either order. -/
theorem perform_without (deed : Deed) (hdeed : deed.subject? ≠ some id) (d : Directory) :
    deed.perform (d.without id) = ((deed.perform d).1.without id, (deed.perform d).2) := by
  cases deed with
  | idle status => rfl
  | create new =>
    have hid : new.userId ≠ id := fun heq => hdeed (congrArg some heq)
    have hkept : (!new.user.userId.same (.text id)) = true := by
      have hname : new.user.userId.text? = some new.userId := rfl
      rw [Value.same_text_eq, hname]
      simpa using hid
    rw [perform, perform, Directory.stored?_without_of_ne hid]
    split_ifs with htaken
    · rfl
    · simp only [Directory.without, List.filter_append, List.filter_cons, hkept, if_true,
        List.filter_nil]
  | change userId changes =>
    have hid : userId ≠ id := fun heq => hdeed (congrArg some heq)
    rw [perform, perform, Directory.stored?_without_of_ne hid]
    cases hstored : d.stored? (.text userId) with
    | none => rfl
    | some u =>
      have hname : (changes.revise u).userId.text? = some userId := by
        rw [changes.userId_revise, Directory.text?_of_stored? hstored]
      simp only [Directory.replace, Directory.without, List.filter_map]
      congr 4
      funext old
      simp only [Function.comp_apply, Value.same_text_eq]
      split_ifs with hsame
      · rw [hname, eq_of_beq hsame]
      · rfl
  | remove userId =>
    simp only [perform, Directory.without, List.filter_filter, Bool.and_comm]

end Deed

end Http

end AccessControl
