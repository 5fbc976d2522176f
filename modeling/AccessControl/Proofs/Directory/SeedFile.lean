import AccessControl.Directory.Seed
import AccessControl.Proofs.Directory.Account
import AccessControl.Proofs.Outcome
import Mathlib.Data.List.Forall2

/-!
# How a seed file is taken

A seed file is a JSON list of records, and a record `Describes` one account or none.  If every
record describes an account and the ids are distinct, the directory holds these accounts, in the
order of the file.  Otherwise there is no directory.

## The errors

Nearly every error is reported as a `ValueError`: what is wrong with the file, and what is wrong
with a record, which is reported under the name of the file.  Two errors pass by
(`load_ends`):

* the conversion of an infinite float to a whole number has an error of its own, which is not among
  those that are reported under the name of the file (`Overflows`);
* the users are added when all records have been read, so that an id that is given twice is reported
  as adding reports it.

## Why there are no others

`readUser_eq_ok_iff` and `readUser_error_cases` go through the conversions of a record once, and
everything about a list of records follows from them by induction: the first record that is refused
decides.  That the records before this one describe accounts is what tells the two kinds of refusal
apart.

## What is assumed of the texts

Whether two ids are the same is a question about texts, and a text that is not whole is not the one
that the file gives: ids that are two different halves of surrogate pairs are both read as the
replacement character.  So what is said about the accounts and about their ids is said of contents
that are whole (`isWhole`).  What is said about the kinds of errors is not in need of it.
-/

namespace AccessControl

/-- The error is a `ValueError`, or of the one kind of these that has a name of its own. -/
def DirectoryFault.IsValueError (e : DirectoryFault) : Prop :=
  e.kind = "ValueError" ∨ e.kind = "UnicodeDecodeError"

namespace Seed

/-! ## 1. What a seed says -/

/-- What a record has under a key. -/
def given? (record : Value) (key : String) : Option Value :=
  record.entries?.bind fun es => Value.find? (.text key) es

/-- The record describes the account. -/
structure Describes (record : Value) (a : Account) : Prop where
  userId : ∃ v, given? record "user_id" = some v ∧ v.plain = a.userId
  email : (given? record "email").getD (.text "") = a.email
  role : ∃ v, given? record "role" = some v ∧ Role.ofValue? v = some a.role
  rank : toInt ((given? record "rank").getD (.int a.role.rank)) = .ok a.rank
  status : Status.ofValue? ((given? record "status").getD (.text "ACTIVE")) = some a.status
  displayName : (given? record "display_name").getD (.text "") = a.displayName
  assigned : ∃ items, ((given? record "assigned_users").getD (.list [])).items? = some items ∧
    items.map Value.plain = a.assigned

/-- The record has a role and a user id, and its rank is infinite. -/
structure Overflows (record : Value) : Prop where
  role : ∃ v r, given? record "role" = some v ∧ Role.ofValue? v = some r
  userId : ∃ v, given? record "user_id" = some v
  rank : ∃ x negative, given? record "rank" = some (.float x) ∧
    FloatValue.ofFloat x = .infinite negative

/-- The contents of the file are the text of a JSON list of these records. -/
def Lists (contents : Option (List UInt8)) (records : List Value) : Prop :=
  ∃ data raw, contents = some data ∧ Text.utf8Text data = .ok raw ∧
    Json.read (String.ofList (Text.plainLines raw.toList)) = .ok (.list records)

/-- If the contents of the file are a JSON text, no half of a surrogate pair stands alone in it. -/
def isWhole (contents : Option (List UInt8)) : Bool :=
  match contents with
  | none => true
  | some data =>
    match Text.utf8Text data with
    | .error _ => true
    | .ok raw => Json.isWhole (String.ofList (Text.plainLines raw.toList))

variable {record v : Value} {records : List Value} {a : Account} {accounts added : List Account}
  {u : User} {users : List User} {e : DirectoryFault} {key path location : String}
  {contents : Option (List UInt8)}

/-! ## 2. Conversions -/

theorem required_eq_ok_iff : required record key = .ok v ↔ given? record key = some v := by
  rw [required, given?]
  cases record.entries? with
  | none =>
    constructor
    · intro h
      cases h
    · intro h
      cases h
  | some es =>
    simp only [Option.bind_some]
    cases Value.find? (.text key) es <;> simp

theorem belongsToRecord_of_required (h : required record key = .error e) :
    belongsToRecord e = true := by
  rw [required] at h
  split at h
  · split at h
    · cases h
    · cases h
      rfl
  · cases h
    unfold notIndexable
    split
    · rfl
    · rfl
    · rfl
    · split <;> rfl

theorem toRole_eq_ok_iff {r : Role} : toRole v = .ok r ↔ Role.ofValue? v = some r := by
  rw [toRole]
  cases Role.ofValue? v <;> simp

theorem belongsToRecord_of_toRole (h : toRole v = .error e) : belongsToRecord e = true := by
  rw [toRole] at h
  split at h
  · cases h
  · cases h
    rfl

theorem toStatus_eq_ok_iff {s : Status} : toStatus v = .ok s ↔ Status.ofValue? v = some s := by
  rw [toStatus]
  cases Status.ofValue? v <;> simp

theorem belongsToRecord_of_toStatus (h : toStatus v = .error e) : belongsToRecord e = true := by
  rw [toStatus] at h
  split at h
  · cases h
  · cases h
    rfl

theorem toIds_eq_ok_iff {w : Value} :
    toIds v = .ok w ↔ ∃ items, v.items? = some items ∧
      w = .list ((items.map Value.plain).map .text) := by
  rw [toIds]
  cases v.items? with
  | none => simp
  | some items =>
    simp only [List.map_map, Except.ok.injEq, Option.some.injEq, exists_eq_left']
    exact eq_comm

theorem belongsToRecord_of_toIds (h : toIds v = .error e) : belongsToRecord e = true := by
  rw [toIds] at h
  split at h
  · cases h
  · cases h
    rfl

theorem belongsToRecord_of_readInt {s : String} (h : readInt v s = .error e) :
    belongsToRecord e = true := by
  rw [readInt] at h
  split at h
  · split at h
    · cases h
      rfl
    · cases h
  · cases h
    rfl

/-- The conversion to a whole number fails for an infinite float, or with an error that is reported
under the name of the file. -/
theorem toInt_error_cases (h : toInt v = .error e) :
    belongsToRecord e = true ∨
      e = .infiniteNumber ∧ ∃ x negative, v = .float x ∧
        FloatValue.ofFloat x = .infinite negative := by
  unfold toInt at h
  split at h
  · cases h
  · cases h
  · rename_i x
    split at h
    · cases h
    · rename_i negative hx
      cases h
      exact Or.inr ⟨rfl, x, negative, rfl, hx⟩
    · cases h
      exact Or.inl rfl
  · split at h
    · exact Or.inl (belongsToRecord_of_readInt h)
    · cases h
      exact Or.inl rfl
  · split at h
    · exact Or.inl (belongsToRecord_of_readInt h)
    · cases h
      exact Or.inl rfl

/-! ## 3. Records -/

/-- **A record is read** as the account that it describes. -/
theorem readUser_eq_ok_iff : readUser record = .ok u ↔ ∃ a, Describes record a ∧ u = a.user := by
  rw [readUser]
  constructor
  · intro h
    obtain ⟨named, hnamed, h⟩ := bind_eq_ok_iff.mp h
    obtain ⟨role, hrole, h⟩ := bind_eq_ok_iff.mp h
    obtain ⟨userId, huserId, h⟩ := bind_eq_ok_iff.mp h
    obtain ⟨rank, hrank, h⟩ := bind_eq_ok_iff.mp h
    obtain ⟨status, hstatus, h⟩ := bind_eq_ok_iff.mp h
    obtain ⟨assigned, hassigned, h⟩ := bind_eq_ok_iff.mp h
    obtain ⟨items, hitems, rfl⟩ := toIds_eq_ok_iff.mp hassigned
    cases h
    exact ⟨⟨userId.plain, optional record "email" (.text ""), role, rank, status,
      optional record "display_name" (.text ""), items.map Value.plain⟩,
      ⟨⟨userId, required_eq_ok_iff.mp huserId, rfl⟩, rfl,
        ⟨named, required_eq_ok_iff.mp hnamed, toRole_eq_ok_iff.mp hrole⟩, hrank,
        toStatus_eq_ok_iff.mp hstatus, rfl, ⟨items, hitems, rfl⟩⟩, rfl⟩
  · rintro ⟨a, h, rfl⟩
    obtain ⟨userId, huserId, hplain⟩ := h.userId
    obtain ⟨named, hnamed, hrole⟩ := h.role
    obtain ⟨items, hitems, hassigned⟩ := h.assigned
    have hstatus : toStatus (optional record "status" (.text Status.active.name)) = .ok a.status :=
      toStatus_eq_ok_iff.mpr h.status
    have hrank : toInt (optional record "rank" (.int a.role.rank)) = .ok a.rank := h.rank
    have hids : toIds (optional record "assigned_users" (.list [])) =
        .ok (.list (a.assigned.map .text)) :=
      toIds_eq_ok_iff.mpr ⟨items, hitems, by rw [hassigned]⟩
    rw [required_eq_ok_iff.mpr hnamed, ok_bind, toRole_eq_ok_iff.mpr hrole, ok_bind,
      required_eq_ok_iff.mpr huserId, ok_bind, hrank, ok_bind, hstatus, ok_bind, hids, ok_bind,
      Account.user, ← hplain, ← h.email, ← h.displayName]
    rfl

/-- **A record is refused** with an error that is reported under the name of the file, or because
its rank is infinite. -/
theorem readUser_error_cases (h : readUser record = .error e) :
    belongsToRecord e = true ∨ e = .infiniteNumber ∧ Overflows record := by
  rw [readUser] at h
  rcases bind_eq_error_iff.mp h with h | ⟨named, hnamed, h⟩
  · exact Or.inl (belongsToRecord_of_required h)
  rcases bind_eq_error_iff.mp h with h | ⟨role, hrole, h⟩
  · exact Or.inl (belongsToRecord_of_toRole h)
  rcases bind_eq_error_iff.mp h with h | ⟨userId, huserId, h⟩
  · exact Or.inl (belongsToRecord_of_required h)
  rcases bind_eq_error_iff.mp h with h | ⟨rank, -, h⟩
  · rcases toInt_error_cases h with hbelongs | ⟨rfl, x, negative, hrank, hx⟩
    · exact Or.inl hbelongs
    · have hentry : given? record "rank" = some (.float x) := by
        rw [optional, ← given?] at hrank
        cases hfound : given? record "rank" with
        | none =>
          rw [hfound] at hrank
          cases hrank
        | some w =>
          rw [hfound] at hrank
          exact congrArg some hrank
      exact Or.inr ⟨rfl, ⟨named, role, required_eq_ok_iff.mp hnamed, toRole_eq_ok_iff.mp hrole⟩,
        ⟨userId, required_eq_ok_iff.mp huserId⟩, ⟨x, negative, hentry, hx⟩⟩
  rcases bind_eq_error_iff.mp h with h | ⟨status, -, h⟩
  · exact Or.inl (belongsToRecord_of_toStatus h)
  rcases bind_eq_error_iff.mp h with h | ⟨assigned, -, h⟩
  · exact Or.inl (belongsToRecord_of_toIds h)
  · cases h

theorem readUser_of_overflows (h : Overflows record) :
    readUser record = .error .infiniteNumber := by
  obtain ⟨named, role, hnamed, hrole⟩ := h.role
  obtain ⟨userId, huserId⟩ := h.userId
  obtain ⟨x, negative, hentry, hx⟩ := h.rank
  have hrank : optional record "rank" (.int role.rank) = .float x := by
    rw [optional, ← given?, hentry]
    rfl
  have hfails : toInt (.float x) = .error .infiniteNumber := by
    simp only [toInt, hx]
  rw [readUser, required_eq_ok_iff.mpr hnamed, ok_bind, toRole_eq_ok_iff.mpr hrole, ok_bind,
    required_eq_ok_iff.mpr huserId, ok_bind, hrank, hfails, error_bind]

/-! ## 4. Lists of records -/

theorem readUsers_eq_ok_iff :
    readUsers path records = .ok users ↔
      ∃ accounts, List.Forall₂ Describes records accounts ∧ users = accounts.map Account.user := by
  induction records generalizing users with
  | nil =>
    constructor
    · intro h
      cases h
      exact ⟨[], .nil, rfl⟩
    · rintro ⟨accounts, h, rfl⟩
      cases h
      rfl
  | cons record rest ih =>
    rw [readUsers]
    constructor
    · intro h
      split at h
      · rename_i u hu
        obtain ⟨a, ha, rfl⟩ := readUser_eq_ok_iff.mp hu
        obtain ⟨later, hlater, rfl⟩ := map_eq_ok_iff.mp h
        obtain ⟨accounts, haccounts, rfl⟩ := ih.mp hlater
        exact ⟨a :: accounts, .cons ha haccounts, rfl⟩
      · cases h
    · rintro ⟨accounts, h, rfl⟩
      cases h with
      | cons ha haccounts =>
        rw [readUser_eq_ok_iff.mpr ⟨_, ha, rfl⟩]
        exact map_eq_ok_iff.mpr ⟨_, ih.mpr ⟨_, haccounts, rfl⟩, rfl⟩

/-- The first record that is refused decides how the records are refused. -/
theorem readUsers_error_cases (h : readUsers path records = .error e) :
    (∃ why, e = .badRecord path why) ∨
      e = .infiniteNumber ∧ ∃ before record after, records = before ++ record :: after ∧
        (∀ r ∈ before, ∃ a, Describes r a) ∧ Overflows record := by
  induction records with
  | nil => cases h
  | cons record rest ih =>
    rw [readUsers] at h
    split at h
    · rename_i u hu
      obtain ⟨a, ha, -⟩ := readUser_eq_ok_iff.mp hu
      rcases ih (map_eq_error_iff.mp h) with hbad | ⟨he, before, r, after, hplace, hbefore, hr⟩
      · exact Or.inl hbad
      · refine Or.inr ⟨he, record :: before, r, after, by rw [hplace]; rfl, ?_, hr⟩
        rw [List.forall_mem_cons]
        exact ⟨⟨a, ha⟩, hbefore⟩
    · rename_i why hwhy
      rcases readUser_error_cases hwhy with hbelongs | ⟨rfl, hoverflows⟩
      · rw [if_pos hbelongs] at h
        exact Or.inl ⟨why, (Except.error.inj h).symm⟩
      · cases h
        exact Or.inr ⟨rfl, [], record, rest, rfl, by simp, hoverflows⟩

theorem readUsers_of_overflows {before after : List Value}
    (hbefore : ∀ r ∈ before, ∃ a, Describes r a) (h : Overflows record) :
    readUsers path (before ++ record :: after) = .error .infiniteNumber := by
  induction before with
  | nil =>
    rw [List.nil_append, readUsers, readUser_of_overflows h]
    rfl
  | cons r rest ih =>
    rw [List.forall_mem_cons] at hbefore
    obtain ⟨⟨a, ha⟩, hrest⟩ := hbefore
    rw [List.cons_append, readUsers, readUser_eq_ok_iff.mpr ⟨a, ha, rfl⟩]
    exact map_eq_error_iff.mpr (ih hrest)

/-! ## 5. Files -/

theorem readFile_of_lists (path location : String) (h : Lists contents records) :
    readFile path location contents = readUsers path records := by
  obtain ⟨data, raw, rfl, hraw, hread⟩ := h
  simp only [readFile, hraw, hread]

/-- A file that is no list of records is refused. -/
theorem readFile_cases (path location : String) (contents : Option (List UInt8)) :
    (∃ records, Lists contents records) ∨
      ∃ e, readFile path location contents = .error e ∧ e.IsValueError := by
  cases contents with
  | none => exact Or.inr ⟨_, rfl, Or.inl rfl⟩
  | some data =>
    cases hraw : Text.utf8Text data with
    | error flaw => exact Or.inr ⟨.notText flaw, by simp only [readFile, hraw], Or.inr rfl⟩
    | ok raw =>
      simp only [readFile, hraw]
      cases hread : Json.read (String.ofList (Text.plainLines raw.toList)) with
      | error flaw => exact Or.inr ⟨_, rfl, Or.inl rfl⟩
      | ok v =>
        cases v with
        | list records => exact Or.inl ⟨records, data, raw, rfl, hraw, hread⟩
        | _ => exact Or.inr ⟨_, rfl, Or.inl rfl⟩

theorem load_of_users (h : readFile path location contents = .ok users) :
    (load path location contents).2 = Directory.empty.addAll users := by
  rw [load, h]

theorem load_of_error (h : readFile path location contents = .error e) :
    (load path location contents).2 = .error e := by
  rw [load, h]

end Seed

namespace Directory

open Seed

variable {d d' : Directory} {a : Account} {accounts added : List Account} {path location : String}
  {contents : Option (List UInt8)}

/-! ## 6. Adding the users -/

theorem exists_holds_add (h : d.Holds accounts) (hfree : ∀ b ∈ accounts, b.userId ≠ a.userId) :
    ∃ d', d.add a.user = .ok d' ∧ d'.Holds (accounts ++ [a]) := by
  have hadd : d.add a.user = .ok ⟨d.users ++ [a.user]⟩ := by
    have hnone : d.stored? a.user.userId = none := (stored?_eq_none_iff h).mpr hfree
    rw [add, hnone]
    rfl
  exact ⟨_, hadd, (holds_of_add h hadd).2⟩

theorem add_of_mem (h : d.Holds accounts) {b : Account} (hb : b ∈ accounts)
    (hid : b.userId = a.userId) : d.add a.user = .error (.taken (.text a.userId)) := by
  have hsome : d.stored? a.user.userId = some b.user := by
    have hstored : d.stored? (.text b.userId) = some b.user := by
      rw [stored?_of_holds h, h.find?_userId hb]
      rfl
    rw [hid] at hstored
    exact hstored
  rw [add, hsome]
  rfl

/-- **Adding accounts** leads to a directory that holds them, unless two have the same id. -/
theorem addAll_cases (h : d.Holds accounts) (added : List Account) :
    (((accounts ++ added).map Account.userId).Nodup ∧
      ∃ d', d.addAll (added.map Account.user) = .ok d' ∧ d'.Holds (accounts ++ added)) ∨
    (¬ ((accounts ++ added).map Account.userId).Nodup ∧
      ∃ a ∈ added, d.addAll (added.map Account.user) = .error (.taken (.text a.userId))) := by
  induction added generalizing d accounts with
  | nil =>
    rw [List.append_nil]
    exact Or.inl ⟨h.nodup, d, rfl, h⟩
  | cons a rest ih =>
    rw [List.map_cons, addAll]
    by_cases hfree : ∀ b ∈ accounts, b.userId ≠ a.userId
    · obtain ⟨next, hnext, hholds⟩ := exists_holds_add h hfree
      have hrest := ih hholds
      rw [List.append_assoc] at hrest
      rw [hnext, ok_bind]
      rcases hrest with hdone | ⟨hrepeats, b, hb, hfails⟩
      · exact Or.inl hdone
      · exact Or.inr ⟨hrepeats, b, List.mem_cons_of_mem _ hb, hfails⟩
    · simp only [not_forall, ne_eq, not_not] at hfree
      obtain ⟨b, hb, hid⟩ := hfree
      refine Or.inr ⟨?_, a, List.mem_cons_self .., ?_⟩
      · intro hnodup
        rw [List.map_append, List.map_cons, List.nodup_append] at hnodup
        exact hnodup.2.2 _ (List.mem_map_of_mem hb) _ (List.mem_cons_self ..) hid
      · rw [add_of_mem h hb hid, error_bind]

/-! ## 7. Seeds -/

/-- The records of a file describe these accounts, in this order. -/
def Seeded (contents : Option (List UInt8)) (accounts : List Account) : Prop :=
  ∃ records, Lists contents records ∧ List.Forall₂ Describes records accounts

theorem load_of_seeded (h : Seeded contents accounts) :
    (load path location contents).2 = empty.addAll (accounts.map Account.user) := by
  obtain ⟨records, hlists, hdescribes⟩ := h
  refine load_of_users ?_
  rw [readFile_of_lists path location hlists]
  exact readUsers_eq_ok_iff.mpr ⟨accounts, hdescribes, rfl⟩

/-- The accounts tell what the directory is. -/
theorem Holds.eq (h : d.Holds accounts) (h' : d'.Holds accounts) : d = d' := by
  obtain ⟨users⟩ := d
  obtain ⟨users'⟩ := d'
  exact congrArg Directory.mk (h.users.trans h'.users.symm)

/-- Records that describe accounts with distinct ids lead to a directory that holds them. -/
theorem exists_load_of_seeded (h : Seeded contents accounts)
    (hnodup : (accounts.map Account.userId).Nodup) :
    ∃ d, (load path location contents).2 = .ok d ∧ d.Holds accounts := by
  rw [load_of_seeded h]
  rcases addAll_cases holds_empty accounts with ⟨-, hdone⟩ | ⟨hrepeats, -⟩
  · exact hdone
  · exact absurd hnodup hrepeats

/-- If two of the accounts that the records describe have the same id, adding them fails. -/
theorem exists_taken_of_seeded (h : Seeded contents accounts)
    (hrepeats : ¬ (accounts.map Account.userId).Nodup) :
    ∃ id, (load path location contents).2 = .error (.taken id) := by
  rw [load_of_seeded h]
  rcases addAll_cases holds_empty accounts with ⟨hnodup, -⟩ | ⟨-, a, -, hfails⟩
  · exact absurd hnodup hrepeats
  · exact ⟨_, hfails⟩

/-- How a seed ends, with the reason for it. -/
inductive Ending (contents : Option (List UInt8)) : Except DirectoryFault Directory → Prop
  /-- The accounts that the records describe are held. -/
  | held (accounts : List Account) (d : Directory) (hseeded : Seeded contents accounts)
      (hholds : d.Holds accounts) : Ending contents (.ok d)
  /-- Two of the accounts that the records describe have the same id. -/
  | repeated (accounts : List Account) (id : Value) (hseeded : Seeded contents accounts)
      (hrepeats : ¬ (accounts.map Account.userId).Nodup) : Ending contents (.error (.taken id))
  /-- The first record that is refused has an infinite rank. -/
  | overflowed (before : List Value) (record : Value) (after : List Value)
      (hlists : Lists contents (before ++ record :: after))
      (hbefore : ∀ r ∈ before, ∃ a, Describes r a) (hrecord : Overflows record) :
      Ending contents (.error .infiniteNumber)
  /-- The file or the first record that is refused is bad for any other reason. -/
  | refused (e : DirectoryFault) (hvalue : e.IsValueError) : Ending contents (.error e)

/-- **Every seed** ends in one of the four ways. -/
theorem ending_load (path location : String) (contents : Option (List UInt8)) :
    Ending contents (load path location contents).2 := by
  rcases readFile_cases path location contents with ⟨records, hlists⟩ | ⟨e, he, hvalue⟩
  · have hfile := readFile_of_lists path location hlists
    cases hread : readUsers path records with
    | ok users =>
      obtain ⟨accounts, hdescribes, -⟩ := readUsers_eq_ok_iff.mp hread
      have hseeded : Seeded contents accounts := ⟨records, hlists, hdescribes⟩
      by_cases hnodup : (accounts.map Account.userId).Nodup
      · obtain ⟨d, hd, hholds⟩ := exists_load_of_seeded hseeded hnodup
        rw [hd]
        exact .held accounts d hseeded hholds
      · obtain ⟨id, hid⟩ := exists_taken_of_seeded hseeded hnodup
        rw [hid]
        exact .repeated accounts id hseeded hnodup
    | error e =>
      rw [load_of_error (hfile.trans hread)]
      rcases readUsers_error_cases hread with ⟨why, rfl⟩ | ⟨rfl, before, r, after, rfl, hbefore, hr⟩
      · exact .refused _ (Or.inl rfl)
      · exact .overflowed before r after hlists hbefore hr
  · rw [load_of_error he]
    exact .refused e hvalue

/-- **A seed that is accepted** leads to a directory that holds the accounts described. -/
theorem exists_seeded_of_load {d : Directory} (h : (load path location contents).2 = .ok d) :
    ∃ accounts, Seeded contents accounts ∧ d.Holds accounts := by
  have hending := ending_load path location contents
  rw [h] at hending
  cases hending with
  | held accounts d hseeded hholds => exact ⟨accounts, hseeded, hholds⟩

theorem load_of_overflows {before after : List Value} {record : Value}
    (hlists : Lists contents (before ++ record :: after))
    (hbefore : ∀ r ∈ before, ∃ a, Describes r a) (hrecord : Overflows record) :
    (load path location contents).2 = .error .infiniteNumber := by
  refine load_of_error ?_
  rw [readFile_of_lists path location hlists]
  exact readUsers_of_overflows hbefore hrecord

/-- **How a seed ends**, whatever the contents of the file.

* Every error is a `ValueError`, or a `KeyError`, or an `OverflowError`.
* It is an `OverflowError` exactly when a record has a role, a user id and an infinite rank, and all
  records before it describe accounts.

If no half of a surrogate pair stands alone in the file, moreover:

* There is a directory exactly when the file lists records that describe accounts, no two with the
  same id; the directory then holds these accounts, in the order of the file.
* The error is a `KeyError` exactly when all records describe accounts, and two of these have the
  same id. -/
theorem load_ends (path location : String) (contents : Option (List UInt8)) :
    (∀ e, (load path location contents).2 = .error e →
      e.IsValueError ∨ e.kind = "KeyError" ∨ e.kind = "OverflowError") ∧
    ((∃ e, (load path location contents).2 = .error e ∧ e.kind = "OverflowError") ↔
      ∃ before record after, Lists contents (before ++ record :: after) ∧
        (∀ r ∈ before, ∃ a, Describes r a) ∧ Overflows record) ∧
    (isWhole contents = true →
      (∀ d, (load path location contents).2 = .ok d ↔
        ∃ accounts, Seeded contents accounts ∧ d.Holds accounts) ∧
      ((∃ e, (load path location contents).2 = .error e ∧ e.kind = "KeyError") ↔
        ∃ accounts, Seeded contents accounts ∧ ¬ (accounts.map Account.userId).Nodup)) := by
  have hending := ending_load path location contents
  refine ⟨fun e h => ?_, ⟨?_, ?_⟩, fun _ => ⟨fun d => ⟨exists_seeded_of_load, ?_⟩, ⟨?_, ?_⟩⟩⟩
  · rw [h] at hending
    cases hending with
    | repeated accounts id hseeded hrepeats => exact Or.inr (Or.inl rfl)
    | overflowed before record after hlists hbefore hrecord => exact Or.inr (Or.inr rfl)
    | refused e hvalue => exact Or.inl hvalue
  · rintro ⟨e, h, hkind⟩
    rw [h] at hending
    cases hending with
    | repeated accounts id hseeded hrepeats =>
      have hother : (DirectoryFault.taken id).kind = "KeyError" := rfl
      rw [hother] at hkind
      exact absurd hkind (by decide)
    | overflowed before record after hlists hbefore hrecord =>
      exact ⟨before, record, after, hlists, hbefore, hrecord⟩
    | refused e hvalue => exact absurd hvalue (by rw [DirectoryFault.IsValueError, hkind]; decide)
  · rintro ⟨before, record, after, hlists, hbefore, hrecord⟩
    exact ⟨_, load_of_overflows hlists hbefore hrecord, rfl⟩
  · rintro ⟨accounts, hseeded, hholds⟩
    obtain ⟨d', hd', hholds'⟩ := exists_load_of_seeded hseeded hholds.nodup
    rw [hd', hholds.eq hholds']
  · rintro ⟨e, h, hkind⟩
    rw [h] at hending
    cases hending with
    | repeated accounts id hseeded hrepeats => exact ⟨accounts, hseeded, hrepeats⟩
    | overflowed before record after hlists hbefore hrecord => exact absurd hkind (by decide)
    | refused e hvalue => exact absurd hvalue (by rw [DirectoryFault.IsValueError, hkind]; decide)
  · rintro ⟨accounts, hseeded, hrepeats⟩
    obtain ⟨id, hid⟩ := exists_taken_of_seeded hseeded hrepeats
    exact ⟨_, hid, rfl⟩

/-- A seed whose second record has an infinite rank. -/
def boundlessSeed : List UInt8 :=
  ("[\x7b\"user_id\":\"a\",\"role\":\"AGENT\"\x7d,"
    ++ "\x7b\"user_id\":\"b\",\"role\":\"AGENT\",\"rank\":1e999\x7d]").toUTF8.toList

/-- A seed in which an id is given twice. -/
def twiceSeed : List UInt8 :=
  ("[\x7b\"user_id\":\"a\",\"role\":\"AGENT\"\x7d,"
    ++ "\x7b\"user_id\":\"a\",\"role\":\"SELLER\"\x7d]").toUTF8.toList

theorem exists_error_boundless :
    ∃ e, (load "users.json" "users.json" (some boundlessSeed)).2 = .error e ∧
      e.kind = "OverflowError" := by
  have hfails : failsBy (fun e => e.kind == "OverflowError")
      (load "users.json" "users.json" (some boundlessSeed)).2 = true := by
    decide +kernel
  obtain ⟨e, he, hkind⟩ := exists_error_of_failsBy hfails
  exact ⟨e, he, eq_of_beq hkind⟩

theorem exists_error_twice :
    ∃ e, (load "users.json" "users.json" (some twiceSeed)).2 = .error e ∧ e.kind = "KeyError" := by
  have hfails : failsBy (fun e => e.kind == "KeyError")
      (load "users.json" "users.json" (some twiceSeed)).2 = true := by
    decide +kernel
  obtain ⟨e, he, hkind⟩ := exists_error_of_failsBy hfails
  exact ⟨e, he, eq_of_beq hkind⟩

/-- The case of two seeds that end in the two ways that are no `ValueError`. -/
theorem load_ends_otherwise :
    (∃ before record after, Lists (some boundlessSeed) (before ++ record :: after) ∧
      (∀ r ∈ before, ∃ a, Describes r a) ∧ Overflows record) ∧
    isWhole (some twiceSeed) = true ∧
    ∃ accounts, Seeded (some twiceSeed) accounts ∧ ¬ (accounts.map Account.userId).Nodup := by
  have hwhole : isWhole (some twiceSeed) = true := by decide +kernel
  obtain ⟨-, hoverflow, -⟩ := load_ends "users.json" "users.json" (some boundlessSeed)
  obtain ⟨-, -, hids⟩ := load_ends "users.json" "users.json" (some twiceSeed)
  obtain ⟨-, htaken⟩ := hids hwhole
  exact ⟨hoverflow.mp exists_error_boundless, hwhole, htaken.mp exists_error_twice⟩

/-- **Neither is a `ValueError`.**  An infinite rank and an id that is given twice are reported in
ways of their own. -/
theorem seeds_refused_otherwise :
    (∃ e, (load "users.json" "users.json" (some boundlessSeed)).2 = .error e ∧
      ¬ e.IsValueError) ∧
    ∃ e, (load "users.json" "users.json" (some twiceSeed)).2 = .error e ∧ ¬ e.IsValueError := by
  obtain ⟨e, he, hkind⟩ := exists_error_boundless
  obtain ⟨e', he', hkind'⟩ := exists_error_twice
  refine ⟨⟨e, he, ?_⟩, ⟨e', he', ?_⟩⟩
  · rw [DirectoryFault.IsValueError, hkind]
    decide
  · rw [DirectoryFault.IsValueError, hkind']
    decide

end Directory

end AccessControl
