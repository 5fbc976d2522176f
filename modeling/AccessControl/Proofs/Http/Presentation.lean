import AccessControl.Http.Presentation
import AccessControl.Proofs.Directory.Account
import AccessControl.Proofs.Outcome

/-!
# Which accounts can be shown

The directory keeps what it is given, while a response has a shape: a record with a field of the
wrong kind has no place in it.  Of the seven fields of an account five are of the right kind by
what an account is.  The other two are taken from the seed as they are, so it is they that decide
whether the account can be shown: `present_of_presentable`, `present_of_not_presentable`.

Readings of fields are put together with all their issues, and the whole is read exactly if every
part is (`all_ok_iff`).

The last section is about users of any kind, accounts or not: what follows for a user from the
fact that it can be shown.
-/

namespace AccessControl

/-! ## 1. Readings -/

namespace Checked

variable {α β : Type}

theorem also_eq_ok_iff {f : Checked (α → β)} {x : Checked α} {b : β} :
    also f x = .ok b ↔ ∃ g a, f = .ok g ∧ x = .ok a ∧ g a = b := by
  cases f <;> cases x <;> simp [also]

/-- Two readings are one if both are. -/
theorem also_ok_iff {f : Checked (α → β)} {x : Checked α} :
    (∃ b, also f x = .ok b) ↔ (∃ g, f = .ok g) ∧ ∃ a, x = .ok a := by
  cases f <;> cases x <;> simp [also]

theorem map_ok_iff {f : α → β} {x : Checked α} :
    (∃ b, Except.map f x = .ok b) ↔ ∃ a, x = .ok a := by
  cases x <;> simp [Except.map]

/-- Readings are one if each of them is. -/
theorem all_ok_iff {readings : List (Checked α)} :
    (∃ l, all readings = .ok l) ↔ ∀ x ∈ readings, ∃ a, x = .ok a := by
  induction readings with
  | nil => simp [all]
  | cons x rest ih => rw [all, also_ok_iff, map_ok_iff, ih, List.forall_mem_cons]

/-- Readings that give this give all of this. -/
theorem all_of_ok {read : α → Checked β} {g : α → β} {items : List α}
    (h : ∀ a ∈ items, read a = .ok (g a)) : all (items.map read) = .ok (items.map g) := by
  induction items with
  | nil => rfl
  | cons a rest ih =>
    rw [List.forall_mem_cons] at h
    rw [List.map_cons, all, h.1, ih h.2]
    rfl

/-- What does not depend on the place is read wherever it stands. -/
theorem each_of_ok {read : Nat → α → Checked β} {g : α → β} {items : List α}
    (h : ∀ a ∈ items, ∀ n, read n a = .ok (g a)) (start : Nat) :
    each read start items = .ok (items.map g) := by
  induction items generalizing start with
  | nil => rfl
  | cons a rest ih =>
    rw [List.forall_mem_cons] at h
    rw [each, h.1, ih h.2]
    rfl

end Checked

/-- The value can be read as a text: it is one, or it is the bytes of one. -/
def Value.IsReadable (v : Value) : Prop :=
  v.IsText ∨ ∃ data s, v = .bytes data ∧ Text.decodeUtf8 data = some s

theorem Value.isReadable_text (s : String) : (Value.text s).IsReadable :=
  Or.inl (Value.isText_text s)

/-- A text field takes the values that can be read as texts, wherever it stands. -/
theorem Field.text_ok_iff {place : List Place} {v : Value} :
    (∃ s, Field.text place v = .ok s) ↔ v.IsReadable := by
  by_cases hbytes : ∃ data, v = .bytes data
  · obtain ⟨data, rfl⟩ := hbytes
    have hnotText : ¬ (Value.bytes data).IsText := by
      rintro ⟨s, hs⟩
      cases hs
    rw [Field.text, Value.IsReadable]
    cases hdecoded : Text.decodeUtf8 data with
    | none => simp [Checked.issue, hnotText, hdecoded]
    | some s => simp [hdecoded]
  · have hread : Field.text place v = v.text?.elim (Checked.issue place .notText) .ok := by
      rw [Field.text]
      · cases v.text? with
        | none => rfl
        | some s => rfl
      · exact fun data h => hbytes ⟨data, h⟩
    have hreadable : v.IsReadable ↔ v.IsText := by
      refine or_iff_left ?_
      rintro ⟨data, -, hdata, -⟩
      exact hbytes ⟨data, hdata⟩
    rw [hread, hreadable, Value.IsText]
    cases v.text? with
    | none => simp [Checked.issue]
    | some s => simp

/-! ## 2. Accounts -/

/-- The address and the name of the account can be read as texts. -/
structure Account.Presentable (a : Account) : Prop where
  email : a.email.IsReadable
  displayName : a.displayName.IsReadable

namespace Http

theorem readText_ok_iff {place : List Place} {v : Value} :
    (∃ shown, readText place v = .ok shown) ↔ v.IsReadable := by
  rw [readText, Checked.map_ok_iff, Field.text_ok_iff]

theorem readStatus_member (place : List Place) (status : Status) :
    readStatus place status.member = .ok (.text status.name) := by
  rw [readStatus, Status.ofValue?_member]

/-- The ids that an account lists are shown as they are. -/
theorem readTexts_texts (place : List Place) (ids : List String) :
    readTexts place (.list (ids.map .text)) = .ok (.list (ids.map .text)) := by
  have hread : ∀ v ∈ ids.map Value.text, ∀ n : Nat,
      readText (place ++ [.index n]) v = .ok v := by
    intro v hv n
    obtain ⟨id, -, rfl⟩ := List.mem_map.mp hv
    rfl
  rw [readTexts, Checked.each_of_ok (g := id) hread, List.map_id]
  rfl

/-- **A user can be shown** exactly if every field can be read as what it is shown as. -/
theorem showUser_ok_iff_fields (u : User) :
    (∃ shown, showUser u = .ok shown) ↔ u.userId.IsReadable ∧ u.email.IsReadable ∧
      u.role.IsReadable ∧ (∃ n, readNumber [.key "rank"] u.rank = .ok n) ∧
      (∃ s, readStatus [.key "status"] u.status = .ok s) ∧ u.displayName.IsReadable ∧
      ∃ ids, readTexts [.key "assigned_users"] u.assignedUsers = .ok ids := by
  rw [showUser, Checked.map_ok_iff, Checked.all_ok_iff]
  simp only [List.forall_mem_cons, Checked.map_ok_iff, readText_ok_iff, and_true, List.not_mem_nil,
    false_imp_iff, implies_true]

/-- **An account can be shown** exactly if its address and its name can be read as texts. -/
theorem showUser_ok_iff (a : Account) : (∃ shown, showUser a.user = .ok shown) ↔ a.Presentable := by
  have hid : a.user.userId.IsReadable := Value.isReadable_text a.userId
  have hrole : a.user.role.IsReadable := Value.isReadable_text a.role.name
  have hrank : ∃ shown, readNumber [.key "rank"] a.user.rank = .ok shown := ⟨_, rfl⟩
  have hstatus : ∃ shown, readStatus [.key "status"] a.user.status = .ok shown :=
    ⟨_, readStatus_member _ a.status⟩
  have hassigned : ∃ shown, readTexts [.key "assigned_users"] a.user.assignedUsers = .ok shown :=
    ⟨_, readTexts_texts _ a.assigned⟩
  rw [showUser_ok_iff_fields]
  simp only [hid, hrole, hrank, hstatus, hassigned, true_and, and_true]
  exact ⟨fun h => ⟨h.1, h.2⟩, fun h => ⟨h.email, h.displayName⟩⟩

theorem present_of_presentable {a : Account} (h : a.Presentable) :
    ∃ shown, present a.user = .ok shown := by
  obtain ⟨shown, hshown⟩ := (showUser_ok_iff a).mpr h
  exact ⟨shown, by rw [present, hshown]; rfl⟩

theorem present_of_not_presentable {a : Account} (h : ¬ a.Presentable) :
    ∃ found, present a.user = .error (.unpresentable found) := by
  rw [present]
  cases hshown : showUser a.user with
  | ok shown => exact absurd ((showUser_ok_iff a).mp ⟨shown, hshown⟩) h
  | error found => exact ⟨found, rfl⟩

end Http

/-! ## 3. Users of any kind -/

/-- The user can be shown. -/
def User.Presentable (u : User) : Prop :=
  ∃ shown, Http.present u = .ok shown

/-- Every user of the directory can be shown. -/
def Directory.Presentable (d : Directory) : Prop :=
  ∀ u ∈ d.users, u.Presentable

theorem User.presentable_iff {u : User} :
    u.Presentable ↔ ∃ shown, Http.showUser u = .ok shown := by
  simp only [Presentable, Http.present, mapError_eq_ok_iff]

theorem Account.presentable_user_iff {a : Account} : a.user.Presentable ↔ a.Presentable :=
  User.presentable_iff.trans (Http.showUser_ok_iff a)

/-- Every user of a directory that holds accounts can be shown if every account can. -/
theorem Directory.Holds.presentable_iff {d : Directory} {accounts : List Account}
    (h : d.Holds accounts) : d.Presentable ↔ ∀ a ∈ accounts, a.Presentable := by
  rw [Presentable, h.users, List.forall_mem_map]
  simp only [Account.presentable_user_iff]

/-- The ids that a user manages are a list if the user can be shown, so a copy of the user is the
user. -/
theorem User.Presentable.copy_eq {u : User} (h : u.Presentable) : Directory.copy u = .ok u := by
  obtain ⟨-, -, -, -, -, -, ids, hids⟩ := (Http.showUser_ok_iff_fields u).mp (presentable_iff.mp h)
  obtain ⟨userId, email, role, rank, status, displayName, assigned⟩ := u
  cases assigned with
  | list items => rfl
  | _ => cases hids

/-- A user that can be shown can still be shown with another address and another name. -/
theorem User.Presentable.with_contact {u : User} (h : u.Presentable) {email displayName : Value}
    (hemail : email.IsReadable) (hname : displayName.IsReadable) :
    { u with email := email, displayName := displayName : User }.Presentable := by
  obtain ⟨hid, -, hrole, hrank, hstatus, -, hassigned⟩ :=
    (Http.showUser_ok_iff_fields u).mp (presentable_iff.mp h)
  exact presentable_iff.mpr ((Http.showUser_ok_iff_fields _).mpr
    ⟨hid, hemail, hrole, hrank, hstatus, hname, hassigned⟩)

theorem User.Presentable.email_readable {u : User} (h : u.Presentable) : u.email.IsReadable :=
  ((Http.showUser_ok_iff_fields u).mp (presentable_iff.mp h)).2.1

theorem User.Presentable.displayName_readable {u : User} (h : u.Presentable) :
    u.displayName.IsReadable :=
  ((Http.showUser_ok_iff_fields u).mp (presentable_iff.mp h)).2.2.2.2.2.1

end AccessControl
