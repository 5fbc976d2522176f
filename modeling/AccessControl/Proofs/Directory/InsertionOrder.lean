import AccessControl.Directory.Call
import AccessControl.Proofs.Outcome
import AccessControl.Proofs.Registry.Table
import AccessControl.Proofs.Value.Names
import Mathlib.Data.List.Nodup

/-!
# The directory is an ordered map

The directory is a list of users, and nothing in its type keeps two users of one id apart, or a
user from being found under an id that is not its own.  What a caller sees is nevertheless a map
from ids to users that remembers the order of insertion, whatever calls have been made before:
`insertion_ordered`.

## The condition on calls

Ids are texts, and the ids that a user manages are a list; a change names neither of these two
fields.  Such calls are `Call.Plain`.  All other fields may hold values of any kind, for the
directory does not look at them.

## Why it is a map

Everything is said in terms of where a user *stands*: `Stands users id before u after` splits the
list at the one user with the id.  Each of the loops of the directory --- the search, the
replacement, the removal --- compares ids and nothing else, so on a list that is split in this way
it goes through both parts without effect and meets the user in the middle.  For a text there are
no more than two cases: it is the id of nobody, or somebody stands under it (`free_or_stands`).

What has to be kept for this is that the ids of the users are texts and that no two are the same;
that is `Tidy`.  A change cannot break it because it cannot reach the id.

## The empty id

Nothing is ever got under the empty id, although a user with this id can be added, changed and
removed.  So the answer to a change is what is got afterwards under every other id, but not under
this one: `changed_but_not_got`.
-/

namespace AccessControl

/-! ## 1. Users whose ids are texts -/

/-- The id is a text, and the ids that the user manages are a list. -/
structure User.Plain (u : User) : Prop where
  userId : u.userId.IsText
  assigned : ∃ items, u.assignedUsers = .list items

theorem User.Plain.copy_eq {u : User} (hu : u.Plain) : Directory.copy u = .ok u := by
  obtain ⟨items, hitems⟩ := hu.assigned
  obtain ⟨userId, email, role, rank, status, displayName, assigned⟩ := u
  cases hitems
  rfl

namespace Directory

/-- The fields that a change may name. -/
def Call.changeable : List String := ["email", "role", "rank", "status", "display_name"]

/-- The ids that the call gives are texts, the ids that a new user manages are a list, and a change
names other fields than these. -/
def Call.Plain : Call → Prop
  | .get id => id.IsText
  | .list => True
  | .add u => u.Plain
  | .update id changes => id.IsText ∧ ∀ c ∈ changes, c.1 ∈ changeable
  | .remove id => id.IsText

/-- The directory after some calls, whatever they are answered with. -/
def afterCalls (d : Directory) (calls : List Call) : Directory :=
  calls.foldl (fun d c => (d.perform c).1) d

/-- The texts that the ids are. -/
def ids (users : List User) : List (Option String) :=
  users.map fun u => u.userId.text?

/-- The users are plain, and no two of them have the same id. -/
structure Tidy (d : Directory) : Prop where
  plain : ∀ u ∈ d.users, u.Plain
  distinct : (ids d.users).Nodup

/-! ## 2. Where a user stands -/

/-- Nobody in the list has this id. -/
def Free (users : List User) (id : Value) : Prop :=
  ∀ u ∈ users, u.userId.same id = false

/-- The user has this id and stands between the two parts of the list, in which nobody has it. -/
structure Stands (users : List User) (id : Value) (before : List User) (u : User)
    (after : List User) : Prop where
  place : users = before ++ u :: after
  named : u.userId.same id = true
  alone : Free (before ++ after) id

variable {d : Directory} {users before after : List User} {u v : User} {id : Value}

theorem free_iff (hid : id.IsText) : Free users id ↔ id.text? ∉ ids users := by
  have hiff (w : User) : w.userId.same id = false ↔ w.userId.text? ≠ id.text? := by
    rw [← Bool.not_eq_true, Value.same_eq_true_iff_of_isText hid]
  simp only [Free, hiff, ids, List.mem_map, not_exists, not_and, ne_eq]

/-- **Two cases.**  A text is the id of nobody, or somebody stands under it. -/
theorem Tidy.free_or_stands (h : d.Tidy) (hid : id.IsText) :
    Free d.users id ∨ ∃ before u after, Stands d.users id before u after := by
  cases hfound : d.users.find? fun u => u.userId.same id with
  | none =>
    rw [List.find?_eq_none] at hfound
    exact Or.inl fun u hu => Bool.eq_false_iff.mpr (hfound u hu)
  | some u =>
    obtain ⟨hsame, before, after, hplace, -⟩ := List.find?_eq_some_iff_append.mp hfound
    refine Or.inr ⟨before, u, after, hplace, hsame, ?_⟩
    have hdistinct := h.distinct
    have htext : u.userId.text? = id.text? := (Value.same_eq_true_iff_of_isText hid).mp hsame
    rw [hplace, ids, List.map_append, List.map_cons, List.nodup_middle, List.nodup_cons,
      ← List.map_append, htext] at hdistinct
    exact (free_iff hid).mpr hdistinct.1

theorem stored?_of_free (h : Free d.users id) : d.stored? id = none := by
  rw [stored?, List.find?_eq_none]
  intro u hu
  rw [h u hu]
  exact Bool.false_ne_true

theorem stored?_of_stands (h : Stands d.users id before u after) : d.stored? id = some u := by
  have hbefore : before.find? (fun v => v.userId.same id) = none := by
    rw [List.find?_eq_none]
    intro v hv
    rw [h.alone v (List.mem_append_left _ hv)]
    exact Bool.false_ne_true
  rw [stored?, h.place, List.find?_append, hbefore, Option.none_or, List.find?_cons, h.named]

/-- The replacement changes nothing where nobody has the id. -/
theorem map_replace_of_free (h : Free users id) (w : User) :
    (users.map fun old => if old.userId.same id then w else old) = users := by
  have hkept : ∀ v ∈ users, (if v.userId.same id then w else v) = v := by
    intro v hv
    rw [h v hv]
    exact if_neg Bool.false_ne_true
  rw [List.map_congr_left hkept, List.map_id']

theorem users_replace (h : Stands d.users id before u after) (w : User) :
    (d.replace id w).users = before ++ w :: after := by
  have hbefore := map_replace_of_free (fun v hv => h.alone v (List.mem_append_left _ hv)) w
  have hafter := map_replace_of_free (fun v hv => h.alone v (List.mem_append_right _ hv)) w
  rw [replace, h.place, List.map_append, List.map_cons, hbefore, hafter, if_pos h.named]

/-- The removal takes nobody where nobody has the id. -/
theorem filter_of_free (h : Free users id) :
    (users.filter fun v => !v.userId.same id) = users := by
  rw [List.filter_eq_self]
  intro v hv
  rw [h v hv]
  rfl

/-! ## 3. Calls -/

theorem list_of_plain (h : ∀ u ∈ d.users, u.Plain) : d.list = .ok d.users := by
  rw [list]
  generalize d.users = users at h
  induction users with
  | nil => rfl
  | cons u rest ih =>
    rw [List.forall_mem_cons] at h
    rw [List.mapM_cons, h.1.copy_eq, ih h.2]
    rfl

theorem get_of_free (hid : id.IsText) (h : Free d.users id) : d.get id = .ok none := by
  rw [get, Value.requireKey_of_isText hid, stored?_of_free h]
  cases id.truthy <;> rfl

/-- **Getting** gives the user who stands under the id. -/
theorem get_of_stands (hid : id.IsText) (htruthy : id.truthy = true)
    (h : Stands d.users id before u after) (hu : u.Plain) : d.get id = .ok (some u) := by
  rw [get, Value.requireKey_of_isText hid, stored?_of_stands h, htruthy]
  simp only [Bool.not_true, Bool.false_eq_true, if_false, ok_bind, hu.copy_eq]
  rfl

/-- **Adding** under a free id puts the user at the end. -/
theorem add_of_free (hu : u.Plain) (h : Free d.users u.userId) :
    d.add u = .ok ⟨d.users ++ [u]⟩ := by
  rw [add, Value.requireKey_of_isText hu.userId, stored?_of_free h, hu.copy_eq]
  rfl

/-- **Adding** under an id that is taken fails. -/
theorem add_of_stands (hv : v.Plain) (h : Stands d.users v.userId before u after) :
    d.add v = .error (.taken v.userId) := by
  rw [add, Value.requireKey_of_isText hv.userId, stored?_of_stands h]
  rfl

theorem remove_of_free (hid : id.IsText) (h : Free d.users id) :
    d.remove id = (d, .ok false) := by
  rw [remove, Value.requireKey_of_isText hid, stored?_of_free h]
  simp only [filter_of_free h, Option.isSome_none]

/-- **Removing** takes the user who stands under the id, and leaves the rest in order. -/
theorem remove_of_stands (hid : id.IsText) (h : Stands d.users id before u after) :
    d.remove id = (⟨before ++ after⟩, .ok true) := by
  have hbefore := filter_of_free fun v hv => h.alone v (List.mem_append_left after hv)
  have hafter := filter_of_free fun v hv => h.alone v (List.mem_append_right before hv)
  rw [remove, Value.requireKey_of_isText hid, stored?_of_stands h]
  simp only [h.place, List.filter_append, List.filter_cons, h.named, Bool.not_true,
    Bool.false_eq_true, if_false, hbefore, hafter, Option.isSome_some]

/-! ## 4. Changes -/

/-- Setting a field sets this field and no other. -/
theorem lookup_fields_set? {w : User} {key : String} {value : Value}
    (h : u.set? key value = some w) (name : String) :
    w.fields.lookup name = if name = key then some value else u.fields.lookup name := by
  unfold User.set? at h
  split at h
  case h_8 => cases h
  all_goals
    cases h
    simp only [User.fields, lookup_cons_eq_ite]
    split_ifs <;> simp_all

/-- The fields that can be set are those that a user has. -/
theorem exists_set?_iff (u : User) {key : String} (value : Value) :
    (∃ w, u.set? key value = some w) ↔ key ∈ User.fieldNames := by
  simp only [User.fieldNames, List.mem_cons, List.not_mem_nil, or_false]
  constructor
  · rintro ⟨w, hset⟩
    unfold User.set? at hset
    split at hset
    case h_8 => cases hset
    all_goals simp
  · intro hkey
    rcases hkey with rfl | rfl | rfl | rfl | rfl | rfl | rfl
    all_goals exact ⟨_, rfl⟩

/-- A change can be made if users have the fields that it names. -/
theorem exists_changed_iff {changes : List (String × Value)} :
    (∃ w, changed u changes = .ok w) ↔ ∀ c ∈ changes, c.1 ∈ User.fieldNames := by
  induction changes generalizing u with
  | nil => simp [changed]
  | cons first rest ih =>
    obtain ⟨key, value⟩ := first
    rw [List.forall_mem_cons, ← exists_set?_iff u value, changed]
    cases u.set? key value with
    | none => simp
    | some next =>
      rw [ih]
      simp

/-- A change sets the fields that it names, each to the last value given for it, and leaves the
others. -/
theorem lookup_fields_changed {changes : List (String × Value)} {w : User}
    (h : changed u changes = .ok w) (name : String) :
    w.fields.lookup name = (changes.reverse.lookup name).or (u.fields.lookup name) := by
  induction changes generalizing u with
  | nil =>
    cases h
    rfl
  | cons first rest ih =>
    obtain ⟨key, value⟩ := first
    rw [changed] at h
    split at h
    · rename_i next hset
      rw [ih h, lookup_fields_set? hset, List.reverse_cons, List.lookup_append, Option.or_assoc,
        lookup_cons_eq_ite, List.lookup_nil]
      split_ifs <;> rfl
    · cases h

/-- A field that is not named is not changed. -/
theorem lookup_fields_changed_of_not_named {changes : List (String × Value)} {w : User}
    (h : changed u changes = .ok w) {name : String} (hname : ∀ c ∈ changes, c.1 ≠ name) :
    w.fields.lookup name = u.fields.lookup name := by
  have hnone : changes.reverse.lookup name = none := by
    rw [List.lookup_eq_none_iff]
    intro c hc
    simpa using (hname c (List.mem_reverse.mp hc)).symm
  rw [lookup_fields_changed h, hnone, Option.none_or]

theorem userId_changed {changes : List (String × Value)} {w : User}
    (h : changed u changes = .ok w) (hname : ∀ c ∈ changes, c.1 ≠ "user_id") :
    w.userId = u.userId :=
  Option.some.inj (lookup_fields_changed_of_not_named h hname)

/-- **A change** of fields that may be changed can be made.  It moves neither the id nor the ids
managed. -/
theorem exists_changed {changes : List (String × Value)}
    (h : ∀ c ∈ changes, c.1 ∈ Call.changeable) (u : User) :
    ∃ w, changed u changes = .ok w ∧ w.userId = u.userId ∧ w.assignedUsers = u.assignedUsers ∧
      ∀ name, w.fields.lookup name =
        (changes.reverse.lookup name).or (u.fields.lookup name) := by
  have hfields : ∀ key ∈ Call.changeable, key ∈ User.fieldNames := by decide
  have hid : ∀ key ∈ Call.changeable, key ≠ "user_id" := by decide
  have hassigned : ∀ key ∈ Call.changeable, key ≠ "assigned_users" := by decide
  obtain ⟨w, hw⟩ := exists_changed_iff.mpr fun c hc => hfields c.1 (h c hc)
  exact ⟨w, hw, userId_changed hw fun c hc => hid c.1 (h c hc),
    Option.some.inj (lookup_fields_changed_of_not_named hw fun c hc => hassigned c.1 (h c hc)),
    lookup_fields_changed hw⟩

/-- A field that may be changed is none of the other arguments. -/
theorem givenTwice?_eq_none {changes : List (String × Value)}
    (h : ∀ c ∈ changes, c.1 ∈ Call.changeable) : givenTwice? changes = none := by
  have hapart : ∀ key ∈ Call.changeable, ¬ ownArguments.contains key = true := by decide
  rw [givenTwice?, List.find?_eq_none]
  intro key hkey
  obtain ⟨c, hc, rfl⟩ := List.mem_map.mp hkey
  exact hapart c.1 (h c hc)

theorem update_of_free (hid : id.IsText) {changes : List (String × Value)}
    (hchanges : ∀ c ∈ changes, c.1 ∈ Call.changeable) (h : Free d.users id) :
    d.update id changes = (d, .ok none) := by
  rw [update, givenTwice?_eq_none hchanges, Value.requireKey_of_isText hid, stored?_of_free h]

/-- **Changing** puts another user in the place of the one who stands under the id. -/
theorem update_of_stands (hid : id.IsText) {changes : List (String × Value)}
    (hchanges : ∀ c ∈ changes, c.1 ∈ Call.changeable) (h : Stands d.users id before u after)
    (hu : u.Plain) :
    ∃ w, d.update id changes = (⟨before ++ w :: after⟩, .ok (some w)) ∧ w.Plain ∧
      w.userId = u.userId ∧
      ∀ name, w.fields.lookup name =
        (changes.reverse.lookup name).or (u.fields.lookup name) := by
  obtain ⟨w, hw, hwid, hwassigned, hfields⟩ := exists_changed hchanges u
  have hplain : w.Plain := by
    obtain ⟨items, hitems⟩ := hu.assigned
    exact ⟨by rw [hwid]; exact hu.userId, items, hwassigned.trans hitems⟩
  have hreplaced : d.replace id w = ⟨before ++ w :: after⟩ :=
    congrArg Directory.mk (users_replace h w)
  refine ⟨w, ?_, hplain, hwid, hfields⟩
  rw [update, givenTwice?_eq_none hchanges, Value.requireKey_of_isText hid, stored?_of_stands h]
  simp only [hw, hreplaced, hplain.copy_eq]
  rfl

/-! ## 5. Runs -/

theorem tidy_empty : empty.Tidy where
  plain := by
    intro u hu
    cases hu
  distinct := List.nodup_nil

/-- Another user with the same id in the place of one who is there. -/
theorem Tidy.of_replaced (h : d.Tidy) (hplace : d.users = before ++ u :: after) {w : User}
    (hw : w.Plain) (hid : w.userId = u.userId) : Tidy ⟨before ++ w :: after⟩ where
  plain := by
    have hplain := h.plain
    rw [hplace] at hplain
    simp only [List.forall_mem_append, List.forall_mem_cons] at hplain ⊢
    exact ⟨hplain.1, hw, hplain.2.2⟩
  distinct := by
    have hdistinct := h.distinct
    rw [hplace] at hdistinct
    simpa only [ids, List.map_append, List.map_cons, hid] using hdistinct

theorem Tidy.of_removed (h : d.Tidy) (hplace : d.users = before ++ u :: after) :
    Tidy ⟨before ++ after⟩ where
  plain := by
    have hplain := h.plain
    rw [hplace] at hplain
    simp only [List.forall_mem_append, List.forall_mem_cons] at hplain ⊢
    exact ⟨hplain.1, hplain.2.2⟩
  distinct := by
    have hdistinct := h.distinct
    rw [hplace, ids, List.map_append, List.map_cons, List.nodup_middle, List.nodup_cons,
      ← List.map_append] at hdistinct
    exact hdistinct.2

theorem Tidy.of_added (h : d.Tidy) (hu : u.Plain) (hfree : Free d.users u.userId) :
    Tidy ⟨d.users ++ [u]⟩ where
  plain := by
    rw [List.forall_mem_append, List.forall_mem_singleton]
    exact ⟨h.plain, hu⟩
  distinct := by
    have hnot : u.userId.text? ∉ ids d.users := (free_iff hu.userId).mp hfree
    rw [ids, List.map_append, List.map_singleton, List.nodup_append]
    refine ⟨h.distinct, List.nodup_singleton _, ?_⟩
    rintro a ha b hb rfl
    rw [List.mem_singleton.mp hb] at ha
    exact hnot ha

/-- The user who stands under an id is plain. -/
theorem Tidy.plain_of_stands (h : d.Tidy) (hstands : Stands d.users id before u after) :
    u.Plain :=
  h.plain u (by rw [hstands.place]; exact List.mem_append_right _ (List.mem_cons_self ..))

/-- **One call** leaves a tidy directory tidy. -/
theorem Tidy.perform (h : d.Tidy) {c : Call} (hc : c.Plain) : (d.perform c).1.Tidy := by
  cases c with
  | get id => exact h
  | list => exact h
  | add u =>
    rw [Directory.perform]
    rcases h.free_or_stands hc.userId with hfree | ⟨before, v, after, hstands⟩
    · rw [add_of_free hc hfree]
      exact h.of_added hc hfree
    · rw [add_of_stands hc hstands]
      exact h
  | update id changes =>
    obtain ⟨hid, hchanges⟩ := hc
    rw [Directory.perform]
    rcases h.free_or_stands hid with hfree | ⟨before, u, after, hstands⟩
    · rw [update_of_free hid hchanges hfree]
      exact h
    · obtain ⟨w, hupdate, hw, hwid, -⟩ :=
        update_of_stands hid hchanges hstands (h.plain_of_stands hstands)
      rw [hupdate]
      exact h.of_replaced hstands.place hw hwid
  | remove id =>
    rw [Directory.perform]
    rcases h.free_or_stands hc with hfree | ⟨before, u, after, hstands⟩
    · rw [remove_of_free hc hfree]
      exact h
    · rw [remove_of_stands hc hstands]
      exact h.of_removed hstands.place

/-- **Any calls** leave a tidy directory tidy. -/
theorem Tidy.afterCalls (h : d.Tidy) {calls : List Call} (hcalls : ∀ c ∈ calls, c.Plain) :
    (d.afterCalls calls).Tidy := by
  induction calls generalizing d with
  | nil => exact h
  | cons c rest ih =>
    rw [List.forall_mem_cons] at hcalls
    exact ih (h.perform hcalls.1) hcalls.2

/-! ## 6. The map -/

/-- The directory is a map from ids to these users, in this order.

* The list of its users is this one, and the ids in it are distinct.
* A text is the id of nobody in the list, or one user stands under it.  This user is what is got,
  unless the id is empty.
* Adding puts a user whose id is free at the end, and is refused otherwise.
* Changing sets the fields that are named of the user who stands under the id, who keeps the place
  and is the answer; this is also what is got afterwards, unless the id is empty.
* Removing takes away the user who stands under the id, and the others stay in order. -/
structure OrderedMap (d : Directory) (users : List User) : Prop where
  listed : d.perform .list = (d, .ok users)
  size : users.length = d.size
  distinct : users.Pairwise fun u v => u.userId.text? ≠ v.userId.text?
  cases : ∀ id : Value, id.IsText → Free users id ∨ ∃ before u after, Stands users id before u after
  get_free : ∀ id : Value, id.IsText → Free users id → d.perform (.get id) = (d, .ok none)
  get : ∀ (id : Value) before u after, id.IsText → id.truthy = true →
    Stands users id before u after → d.perform (.get id) = (d, .ok (some u))
  add_free : ∀ u : User, u.Plain → Free users u.userId → ∃ d' : Directory,
    d.perform (.add u) = (d', .ok ()) ∧ d'.list = .ok (users ++ [u])
  add : ∀ (v : User) before u after, v.Plain → Stands users v.userId before u after →
    ∃ e : DirectoryFault, e.kind = "KeyError" ∧ d.perform (.add v) = (d, .error e)
  update_free : ∀ (id : Value) changes, (Call.update id changes).Plain → Free users id →
    d.perform (.update id changes) = (d, .ok none)
  update : ∀ (id : Value) changes before u after, (Call.update id changes).Plain →
    Stands users id before u after → ∃ (d' : Directory) (w : User),
      d.perform (.update id changes) = (d', .ok (some w)) ∧
      d'.list = .ok (before ++ w :: after) ∧
      (∀ name, w.fields.lookup name =
        (changes.reverse.lookup name).or (u.fields.lookup name)) ∧
      (id.truthy = true → d'.perform (.get id) = (d', .ok (some w)))
  remove_free : ∀ id : Value, id.IsText → Free users id →
    d.perform (.remove id) = (d, .ok false)
  remove : ∀ (id : Value) before u after, id.IsText → Stands users id before u after →
    ∃ d' : Directory, d.perform (.remove id) = (d', .ok true) ∧ d'.list = .ok (before ++ after)

/-- A tidy directory is an ordered map. -/
theorem Tidy.orderedMap (h : d.Tidy) : d.OrderedMap d.users where
  listed := by rw [Directory.perform, list_of_plain h.plain]
  size := rfl
  distinct := List.pairwise_map.mp h.distinct
  cases := fun id hid => h.free_or_stands hid
  get_free := by
    intro id hid hfree
    rw [Directory.perform, get_of_free hid hfree]
  get := by
    intro id before u after hid htruthy hstands
    rw [Directory.perform, get_of_stands hid htruthy hstands (h.plain_of_stands hstands)]
  add_free := by
    intro u hu hfree
    refine ⟨⟨d.users ++ [u]⟩, ?_, list_of_plain (h.of_added hu hfree).plain⟩
    rw [Directory.perform, add_of_free hu hfree]
  add := by
    intro v before u after hv hstands
    refine ⟨.taken v.userId, rfl, ?_⟩
    rw [Directory.perform, add_of_stands hv hstands]
  update_free := by
    rintro id changes ⟨hid, hchanges⟩ hfree
    rw [Directory.perform, update_of_free hid hchanges hfree]
  update := by
    rintro id changes before u after ⟨hid, hchanges⟩ hstands
    obtain ⟨w, hupdate, hw, hwid, hfields⟩ :=
      update_of_stands hid hchanges hstands (h.plain_of_stands hstands)
    have htidy : Tidy ⟨before ++ w :: after⟩ := h.of_replaced hstands.place hw hwid
    refine ⟨⟨before ++ w :: after⟩, w, hupdate, list_of_plain htidy.plain, hfields, ?_⟩
    intro htruthy
    have hplace : Stands (before ++ w :: after) id before w after :=
      ⟨rfl, by rw [hwid]; exact hstands.named, hstands.alone⟩
    rw [Directory.perform, get_of_stands hid htruthy hplace hw]
  remove_free := by
    intro id hid hfree
    rw [Directory.perform, remove_of_free hid hfree]
  remove := by
    intro id before u after hid hstands
    refine ⟨⟨before ++ after⟩, ?_, list_of_plain (h.of_removed hstands.place).plain⟩
    rw [Directory.perform, remove_of_stands hid hstands]

/-- **The directory is an ordered map**, whatever plain calls have been made since it was
empty. -/
theorem insertion_ordered (calls : List Call) (hcalls : ∀ c ∈ calls, c.Plain) :
    ∃ users, (empty.afterCalls calls).OrderedMap users :=
  ⟨_, (tidy_empty.afterCalls hcalls).orderedMap⟩

/-- A user of whom little is known. -/
def newcomer (id : String) : User where
  userId := .text id
  email := .null
  role := .text "AGENT"
  rank := .int 3
  status := Status.active.member
  displayName := .text ""
  assignedUsers := .list []

/-- The case of a user who is changed, who is removed and added again, and who is then the last of
two; the id of the new user may be given as a member of an enumeration. -/
theorem insertion_ordered_readmitted :
    (∀ c ∈ [Call.add (newcomer "a"), .add (newcomer "b"), .update (.text "a") [("rank", .null)],
      .remove (.member "E" "M" (.text "a")), .get (.text "a"), .add (newcomer "a"),
      .add (newcomer "b"), .list], c.Plain) ∧
    (empty.afterCalls [.add (newcomer "a"), .add (newcomer "b"),
      .update (.text "a") [("rank", .null)], .remove (.member "E" "M" (.text "a")),
      .get (.text "a"), .add (newcomer "a"), .add (newcomer "b"), .list]).OrderedMap
        [newcomer "b", newcomer "a"] := by
  have hplain : ∀ c ∈ [Call.add (newcomer "a"), .add (newcomer "b"),
      .update (.text "a") [("rank", .null)], .remove (.member "E" "M" (.text "a")),
      .get (.text "a"), .add (newcomer "a"), .add (newcomer "b"), .list], c.Plain := by
    simp only [List.forall_mem_cons]
    have ha : (newcomer "a").Plain := ⟨⟨_, rfl⟩, _, rfl⟩
    have hb : (newcomer "b").Plain := ⟨⟨_, rfl⟩, _, rfl⟩
    refine ⟨ha, hb, ⟨⟨_, rfl⟩, ?_⟩, ⟨_, rfl⟩, ⟨_, rfl⟩, ha, hb, trivial, by simp⟩
    simp [Call.changeable]
  refine ⟨hplain, ?_⟩
  obtain ⟨users, h⟩ := insertion_ordered _ hplain
  have hlisted := congrArg Prod.snd h.listed
  cases hlisted
  exact h

/-- **Changed, but not got.**  A user with the empty id can be added and changed.  The answer to the
change is the changed user, and yet nobody is got under the id. -/
theorem changed_but_not_got :
    let d := empty.afterCalls [.add (newcomer "")]
    let changes := [("email", Value.text "new@localhost")]
    let done := d.perform (.update (.text "") changes)
    (∀ c ∈ [Call.add (newcomer ""), .update (.text "") changes, .get (.text "")], c.Plain) ∧
    Stands d.users (.text "") [] (newcomer "") [] ∧
    done.2 = .ok (some { newcomer "" with email := .text "new@localhost" }) ∧
    done.1.list = .ok [{ newcomer "" with email := .text "new@localhost" }] ∧
    (done.1.perform (.get (.text ""))).2 = .ok none := by
  refine ⟨?_, ⟨rfl, rfl, by simp [Free]⟩, rfl, rfl, rfl⟩
  simp only [List.forall_mem_cons]
  refine ⟨⟨⟨_, rfl⟩, _, rfl⟩, ⟨⟨_, rfl⟩, ?_⟩, ⟨_, rfl⟩, by simp⟩
  simp [Call.changeable]

end Directory

end AccessControl
