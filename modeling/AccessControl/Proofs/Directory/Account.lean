import AccessControl.Directory.Call
import AccessControl.Proofs.Value.Names
import Mathlib.Data.List.Nodup

/-!
# Accounts

The directory stores values of any kind, because it checks nothing.  Yet all users that come from a
seed have a text as their id, a known role, a whole number as their rank, a known status, and a
list of texts as the ids that they manage.  Such a user is an `Account`, and a directory *holds* a
list of accounts if these are its users and no two of them have the same id.

## What is kept

A directory without users holds no accounts (`holds_empty`), and each call is an operation on the
list of accounts:

* getting looks for the account with an id (`get_of_holds`);
* listing gives all accounts (`list_of_holds`);
* adding puts an account at the end, and its id was free (`holds_of_add`);
* changing puts an account in the place of another of the same id (`holds_of_update`);
* removing takes one account away (`holds_of_remove`).

The last two go through the whole list and compare ids; since ids are distinct, they meet one
account only.
-/

namespace AccessControl

/-- A user with fields of the kinds that they should be of. -/
structure Account where
  userId : String
  email : Value
  role : Role
  rank : Int
  status : Status
  displayName : Value
  assigned : List String

namespace Account

/-- The account as the directory stores it. -/
def user (a : Account) : User where
  userId := .text a.userId
  email := a.email
  role := .text a.role.name
  rank := .int a.rank
  status := a.status.member
  displayName := a.displayName
  assignedUsers := .list (a.assigned.map .text)

/-- The account as the context of a request. -/
def context (a : Account) : Value :=
  .record .context
    [("user_id", .text a.userId), ("role", .text a.role.name), ("rank", .int a.rank),
      ("is_active", .bool a.user.isActive), ("assigned_users", .tuple (a.assigned.map .text))]

/-- The account that a user is, if the fields are of the kinds that they should be of. -/
def ofUser? (u : User) : Option Account := do
  let userId ← u.userId.text?
  let role ← Role.ofValue? u.role
  let rank ← match u.rank with
    | .int n => some n
    | _ => none
  let status ← Status.ofValue? u.status
  let items ← u.assignedUsers.items?
  let assigned ← items.mapM Value.text?
  return ⟨userId, u.email, role, rank, status, u.displayName, assigned⟩

theorem mapM_text?_texts (ids : List String) :
    (ids.map Value.text).mapM Value.text? = some ids := by
  induction ids with
  | nil => rfl
  | cons id rest ih =>
    rw [List.map_cons, List.mapM_cons, ih]
    rfl

theorem ofUser?_user (a : Account) : ofUser? a.user = some a := by
  have hrole : Role.ofValue? a.user.role = some a.role := Role.ofName?_name a.role
  have hstatus : Status.ofValue? a.user.status = some a.status := Status.ofValue?_member a.status
  have hitems : a.user.assignedUsers.items? = some (a.assigned.map Value.text) := rfl
  rw [ofUser?, hrole, hstatus, hitems]
  simp only [user, Value.text?_text, Option.bind_eq_bind, Option.bind_some, mapM_text?_texts]
  rfl

theorem toContext_user (a : Account) : a.user.toContext = .ok a.context := rfl

theorem isActive_user_iff (a : Account) : a.user.isActive = true ↔ a.status = .active := by
  have hcases : ∀ s : Status, Value.same s.member Status.active.member = true ↔ s = .active := by
    intro s
    cases s <;> decide
  exact hcases a.status

end Account

namespace Directory

/-- The directory holds these accounts, in this order, and no two of them have the same id. -/
structure Holds (d : Directory) (accounts : List Account) : Prop where
  users : d.users = accounts.map Account.user
  nodup : (accounts.map Account.userId).Nodup

/-- The accounts that the users of the directory are. -/
def accounts (d : Directory) : List Account := d.users.filterMap Account.ofUser?

variable {d d' : Directory} {accounts before after : List Account} {a b : Account} {id : String}

/-! ## 1. Lists of accounts with distinct ids -/

theorem holds_empty : empty.Holds [] := ⟨rfl, List.nodup_nil⟩

/-- What a directory holds can be read off it. -/
theorem Holds.accounts_eq (h : d.Holds accounts) : d.accounts = accounts := by
  rw [Directory.accounts, h.users, List.filterMap_map]
  have hread : Account.ofUser? ∘ Account.user = some := funext Account.ofUser?_user
  rw [hread, List.filterMap_some]

/-- Distinct accounts have distinct ids. -/
theorem Holds.eq_of_userId_eq (h : d.Holds accounts) (ha : a ∈ accounts) (hb : b ∈ accounts)
    (hid : a.userId = b.userId) : a = b :=
  List.inj_on_of_nodup_map h.nodup ha hb hid

/-- What is found under an id is an account with this id. -/
theorem mem_of_find?_userId (h : (accounts.find? fun a => a.userId == id) = some a) :
    a ∈ accounts ∧ a.userId = id :=
  ⟨List.mem_of_find?_eq_some h, by simpa using List.find?_some h⟩

/-- An account is what is found under its id. -/
theorem Holds.find?_userId (h : d.Holds accounts) (ha : a ∈ accounts) :
    (accounts.find? fun b => b.userId == a.userId) = some a := by
  cases hfound : accounts.find? fun b => b.userId == a.userId with
  | none => exact absurd (beq_self_eq_true a.userId) (List.find?_eq_none.mp hfound a ha)
  | some b =>
    obtain ⟨hb, hsame⟩ := mem_of_find?_userId hfound
    rw [h.eq_of_userId_eq hb ha hsame]

/-- Beside an account there is no other with its id. -/
theorem Holds.userId_ne (h : d.Holds (before ++ a :: after)) :
    ∀ b ∈ before ++ after, b.userId ≠ a.userId := by
  have hmiddle := List.nodup_middle.mp (by simpa using h.nodup)
  intro b hb heq
  refine (List.nodup_cons.mp hmiddle).1 ?_
  rw [← heq, ← List.map_append]
  exact List.mem_map_of_mem hb

/-- Looking for an id among the users is looking for it among the accounts. -/
theorem stored?_of_holds (h : d.Holds accounts) :
    d.stored? (.text id) = (accounts.find? fun a => a.userId == id).map Account.user := by
  have hsame : (fun u : User => u.userId.same (.text id)) ∘ Account.user =
      fun a => a.userId == id := by
    funext a
    exact Value.same_text _ _
  rw [stored?, h.users, List.find?_map, hsame]

theorem stored?_eq_none_iff (h : d.Holds accounts) :
    d.stored? (.text id) = none ↔ ∀ a ∈ accounts, a.userId ≠ id := by
  rw [stored?_of_holds h, Option.map_eq_none_iff, List.find?_eq_none]
  simp only [beq_iff_eq, ne_eq]

/-! ## 2. Calls -/

/-- **Getting** gives the account with the id, unless the id is empty. -/
theorem get_of_holds (h : d.Holds accounts) (hid : id ≠ "") :
    d.get (.text id) = .ok ((accounts.find? fun a => a.userId == id).map Account.user) := by
  have htruthy : (Value.text id).truthy = true := by
    simpa [Value.truthy] using hid
  have hkey : Value.requireKey DirectoryFault.misuse (.text id) = .ok () := rfl
  rw [get, htruthy, hkey, stored?_of_holds h]
  cases accounts.find? fun a => a.userId == id with
  | none => rfl
  | some a => rfl

/-- **Listing** gives all accounts. -/
theorem list_of_holds (h : d.Holds accounts) : d.list = .ok (accounts.map Account.user) := by
  have hcopy : ∀ a : Account, copy a.user = .ok a.user := fun _ => rfl
  rw [list, h.users]
  generalize accounts = listed
  induction listed with
  | nil => rfl
  | cons a rest ih =>
    rw [List.map_cons, List.mapM_cons, hcopy, ih]
    rfl

/-- A user that is got is an account with the given id. -/
theorem exists_of_get (h : d.Holds accounts) {u : User} (hu : d.get (.text id) = .ok (some u)) :
    ∃ a ∈ accounts, a.userId = id ∧ u = a.user := by
  by_cases hid : id = ""
  · subst hid
    cases hu
  · rw [get_of_holds h hid] at hu
    obtain ⟨a, ha, rfl⟩ := Option.map_eq_some_iff.mp (Except.ok.inj hu)
    obtain ⟨hmem, hid⟩ := mem_of_find?_userId ha
    exact ⟨a, hmem, hid, rfl⟩

/-- **Adding** puts an account whose id is free at the end. -/
theorem holds_of_add (h : d.Holds accounts) (hadd : d.add a.user = .ok d') :
    (∀ b ∈ accounts, b.userId ≠ a.userId) ∧ d'.Holds (accounts ++ [a]) := by
  have hkey : a.user.userId.requireKey DirectoryFault.misuse = .ok () := rfl
  rw [add, hkey] at hadd
  by_cases htaken : (d.stored? a.user.userId).isSome = true
  · simp only [if_pos htaken] at hadd
    cases hadd
  · simp only [if_neg htaken] at hadd
    have hfree : ∀ b ∈ accounts, b.userId ≠ a.userId := by
      rw [Bool.not_eq_true, Option.isSome_eq_false_iff, Option.isNone_iff_eq_none] at htaken
      exact (stored?_eq_none_iff h).mp htaken
    cases hadd
    refine ⟨hfree, ?_, ?_⟩
    · rw [h.users, List.map_append]
      rfl
    · rw [List.map_append, List.nodup_append]
      refine ⟨h.nodup, List.nodup_singleton _, ?_⟩
      intro x hx y hy
      obtain ⟨b, hb, rfl⟩ := List.mem_map.mp hx
      rw [List.mem_singleton.mp hy]
      exact hfree b hb

/-- Another account in the place of one with the same id. -/
theorem holds_of_replace (h : d.Holds (before ++ a :: after)) (hid : b.userId = a.userId) :
    (d.replace (.text a.userId) b.user).Holds (before ++ b :: after) := by
  have hother : ∀ c ∈ before ++ after,
      (if c.user.userId.same (.text a.userId) then b.user else c.user) = c.user := by
    intro c hc
    have hne : c.user.userId.same (.text a.userId) = false := by
      simpa [Account.user] using h.userId_ne c hc
    rw [hne]
    rfl
  have hself : a.user.userId.same (.text a.userId) = true := by
    simp [Account.user]
  refine ⟨?_, ?_⟩
  · have hbefore : ∀ c ∈ before, _ := fun c hc => hother c (List.mem_append_left _ hc)
    have hafter : ∀ c ∈ after, _ := fun c hc => hother c (List.mem_append_right _ hc)
    simp only [replace, h.users, List.map_append, List.map_cons, List.map_map, hself, if_true]
    congr 1
    · exact List.map_congr_left hbefore
    · congr 1
      exact List.map_congr_left hafter
  · have hnodup := h.nodup
    rw [List.map_append, List.map_cons] at hnodup ⊢
    rw [hid]
    exact hnodup

/-- Changing an account puts another one in its place, which is also the answer. -/
theorem update_of_holds (h : d.Holds accounts) (ha : a ∈ accounts) {changes : List (String × Value)}
    (hchanges : givenTwice? changes = none)
    (hchanged : changed a.user changes = .ok b.user) :
    d.update (.text a.userId) changes =
      (d.replace (.text a.userId) b.user, .ok (some b.user)) := by
  have hkey : Value.requireKey DirectoryFault.misuse (.text a.userId) = .ok () := rfl
  have hcopy : copy b.user = .ok b.user := rfl
  rw [update, hchanges, hkey, stored?_of_holds h, h.find?_userId ha]
  simp only [Option.map_some, hchanged, hcopy]
  rfl

/-- Under an id that no account has there is nothing to change. -/
theorem update_of_not_mem (h : d.Holds accounts) (hfree : ∀ a ∈ accounts, a.userId ≠ id)
    {changes : List (String × Value)}
    (hchanges : givenTwice? changes = none) :
    d.update (.text id) changes = (d, .ok none) := by
  have hkey : Value.requireKey DirectoryFault.misuse (.text id) = .ok () := rfl
  rw [update, hchanges, hkey, (stored?_eq_none_iff h).mpr hfree]

/-- **Changing** puts another account with the same id in the place of an account. -/
theorem holds_of_update (h : d.Holds (before ++ a :: after)) {changes : List (String × Value)}
    (hchanges : givenTwice? changes = none)
    (hchanged : changed a.user changes = .ok b.user) (hid : b.userId = a.userId) :
    (d.update (.text a.userId) changes).1.Holds (before ++ b :: after) := by
  rw [update_of_holds h (by simp) hchanges hchanged]
  exact holds_of_replace h hid

/-- **Removing** takes one account away. -/
theorem holds_of_remove (h : d.Holds (before ++ a :: after)) :
    (d.remove (.text a.userId)).1.Holds (before ++ after) := by
  have hkey : Value.requireKey DirectoryFault.misuse (.text a.userId) = .ok () := rfl
  have hother : ∀ c ∈ before ++ after, (!c.user.userId.same (.text a.userId)) = true := by
    intro c hc
    simpa [Account.user] using h.userId_ne c hc
  have hself : (!a.user.userId.same (.text a.userId)) = false := by
    simp [Account.user]
  rw [remove, hkey]
  refine ⟨?_, ?_⟩
  · have hbefore : before.filter (fun c => !c.user.userId.same (.text a.userId)) = before :=
      List.filter_eq_self.mpr fun c hc => hother c (List.mem_append_left _ hc)
    have hafter : after.filter (fun c => !c.user.userId.same (.text a.userId)) = after :=
      List.filter_eq_self.mpr fun c hc => hother c (List.mem_append_right _ hc)
    simp only [h.users, List.filter_map, List.filter_append, List.filter_cons, Function.comp_def,
      hself, Bool.false_eq_true, if_false, hbefore, hafter]
  · have hmiddle := List.nodup_middle.mp (by simpa using h.nodup)
    rw [List.map_append]
    exact (List.nodup_cons.mp hmiddle).2

/-- Under an id that no account has there is nothing to remove. -/
theorem remove_of_not_mem (h : d.Holds accounts) (hfree : ∀ a ∈ accounts, a.userId ≠ id) :
    (d.remove (.text id)).1 = d := by
  have hkey : Value.requireKey DirectoryFault.misuse (.text id) = .ok () := rfl
  have hkept : ∀ u ∈ d.users, (!u.userId.same (.text id)) = true := by
    rw [h.users]
    intro u hu
    obtain ⟨a, ha, rfl⟩ := List.mem_map.mp hu
    simpa [Account.user] using hfree a ha
  rw [remove, hkey]
  simp only [List.filter_eq_self.mpr hkept]

end Directory

end AccessControl
