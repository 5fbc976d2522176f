import AccessControl.Proofs.Directory.SeedRank
import AccessControl.Proofs.Http.Atomicity
import AccessControl.Proofs.Http.FullList
import AccessControl.Proofs.Json.RoundTrip
import AccessControl.Proofs.Text.Utf8

/-!
# The list as a seed

The list that a super admin is shown has the form of a seed, so it can be written to a file and a
server can be started with it.  `load_listed` says that this server has the directory that has been
listed.  Two converters have to cancel for this, and they have nothing in common but the names of
the seven fields: one that shows users, and one that reads records.

## From accounts to rows

An account is shown as its `row`, and the row describes the account (`Seed.describes_row`): nothing
is left to a default, and what the loader converts is given as what it converts to.  The rank is
written out, so it does not matter whether it is that of the role.

## From rows to the file

The rows are written in the compact layout and as UTF-8, and both are undone by the loader
(`Json.read_compact`, `Text.utf8Text_toUTF8`).  In between the loader makes one line end of all
kinds of them; there are none, since no control character is written as it is.

A whole number that is too long would be written and not read.  No account has such a rank: it comes
from a seed or is that of a role (`Seed.toInt_lt`), and no request changes it.  Likewise an address
or a name that can be shown is a text, because there is nothing else that JSON has for it; this is
what `Account.Documented` is for, which holds of all accounts of a server at all times
(`Server.documented`).
-/

namespace AccessControl

variable {a : Account} {accounts : List Account}

/-! ## 1. Rows -/

/-- What comes out of a seed: the rank, the address and the name are what a JSON text can give. -/
structure Account.Documented (a : Account) : Prop where
  rank : a.rank.natAbs < 10 ^ Json.mostDigits
  email : Json.Document a.email
  displayName : Json.Document a.displayName

namespace Account

/-- The entries of the row of the account. -/
def rowEntries (a : Account) : List (Value × Value) :=
  [(.text "user_id", .text a.userId), (.text "email", a.email), (.text "role", .text a.role.name),
    (.text "rank", .int a.rank), (.text "status", .text a.status.name),
    (.text "display_name", a.displayName), (.text "assigned_users", .list (a.assigned.map .text))]

/-- The account as a row of the list. -/
def row (a : Account) : Value :=
  .map a.rowEntries

/-- The address and the name of an account that can be shown are texts. -/
theorem Documented.texts (h : a.Documented) (hshown : a.Presentable) :
    (∃ s, a.email = .text s) ∧ ∃ s, a.displayName = .text s :=
  ⟨(Seed.isReadable_iff_of_document h.email).mp hshown.email,
    (Seed.isReadable_iff_of_document h.displayName).mp hshown.displayName⟩

/-- A row is written and read back. -/
theorem storable_row (h : a.Documented) (hshown : a.Presentable) : Json.Storable a.row := by
  obtain ⟨⟨email, hemail⟩, name, hname⟩ := h.texts hshown
  have hkeys : ∀ e ∈ a.rowEntries, ∃ s, e.1 = .text s := by simp [rowEntries]
  have hdistinct : Json.Distinct a.rowEntries := by simp [rowEntries, Json.Distinct]
  have hids : Json.Storable (.list (a.assigned.map .text)) := by
    refine .list _ fun v hv => ?_
    obtain ⟨id, -, rfl⟩ := List.mem_map.mp hv
    exact .text id
  refine .map _ hkeys hdistinct ?_
  simp only [rowEntries, hemail, hname, List.forall_mem_cons, List.not_mem_nil, false_imp_iff,
    implies_true, and_true]
  exact ⟨.text _, .text _, .text _, .int _ h.rank, .text _, .text _, hids⟩

end Account

namespace Http

/-- An account that can be shown is shown as its row. -/
theorem present_eq_row (h : a.Documented) (hshown : a.Presentable) :
    present a.user = .ok a.row := by
  obtain ⟨⟨email, hemail⟩, name, hname⟩ := h.texts hshown
  have huser : a.user.email = .text email ∧ a.user.displayName = .text name := ⟨hemail, hname⟩
  have hstatus := readStatus_member [.key "status"] a.status
  have hids := readTexts_texts [.key "assigned_users"] a.assigned
  rw [present, showUser, huser.1, huser.2, Account.row, Account.rowEntries, hemail, hname]
  simp only [Account.user, hstatus, hids]
  rfl

end Http

namespace Seed

/-- A row describes the account that it shows. -/
theorem describes_row (a : Account) : Describes a.row a where
  userId := ⟨_, rfl, rfl⟩
  email := rfl
  role := ⟨_, rfl, Role.ofName?_name a.role⟩
  rank := rfl
  status := Status.ofValue?_member a.status
  displayName := rfl
  assigned := by
    refine ⟨_, rfl, ?_⟩
    rw [List.map_map]
    exact List.map_id _

/-- The bytes of a list of storable values list these values. -/
theorem lists_compact {rows : List Value} (h : ∀ row ∈ rows, Json.Storable row) :
    Lists (some (Json.compact (.list rows)).toUTF8.toList) rows := by
  have hlist : Json.Storable (.list rows) := .list rows h
  have hplain : '\r' ∉ (Json.compact (.list rows)).toList := by
    intro hmem
    have hprinted := (Json.carries_compact hlist).printed _ hmem
    exact absurd hprinted (by decide)
  refine ⟨_, _, rfl, Text.utf8Text_toUTF8 _, ?_⟩
  rw [Text.plainLines_of_not_mem hplain, String.ofList_toList]
  exact Json.read_compact hlist

/-- **The rows of accounts** are a seed of these accounts. -/
theorem seeded_rows (h : ∀ a ∈ accounts, a.Documented) (hshown : ∀ a ∈ accounts, a.Presentable) :
    Directory.Seeded (some (Json.compact (.list (accounts.map Account.row))).toUTF8.toList)
      accounts := by
  refine ⟨accounts.map Account.row, lists_compact ?_, ?_⟩
  · intro row hrow
    obtain ⟨a, ha, rfl⟩ := List.mem_map.mp hrow
    exact Account.storable_row (h a ha) (hshown a ha)
  · exact List.forall₂_map_left_iff.mpr (List.forall₂_same.mpr fun a _ => describes_row a)

/-! ## 2. What all accounts have -/

/-- What a record describes comes out of a seed. -/
theorem documented_of_describes {record : Value} (hrecord : Json.Document record)
    (h : Describes record a) : a.Documented := by
  have hentry (key : String) {default : Value} (hdefault : Json.Document default) :
      Json.Document ((given? record key).getD default) := by
    cases hv : given? record key with
    | none => exact hdefault
    | some v => exact document_of_given? hrecord hv
  refine ⟨toInt_lt (hentry "rank" (.int _ (natAbs_rank_lt a.role))) h.rank, ?_, ?_⟩
  · rw [← h.email]
    exact hentry "email" (.text "")
  · rw [← h.displayName]
    exact hentry "display_name" (.text "")

/-- All accounts of a seed come out of it. -/
theorem documented_of_seeded {contents : Option (List UInt8)}
    (h : Directory.Seeded contents accounts) : ∀ a ∈ accounts, a.Documented := by
  obtain ⟨records, hlists, hdescribes⟩ := h
  have hrecords := document_of_lists hlists
  clear hlists
  induction hdescribes with
  | nil => simp
  | cons hfirst _ ih =>
    rw [List.forall_mem_cons] at hrecords ⊢
    exact ⟨documented_of_describes hrecords.1 hfirst, ih hrecords.2⟩

end Seed

namespace Http

variable {s : Server} {settings : Settings} {location : String} {contents : Option (List UInt8)}

theorem NewUser.documented (new : NewUser) : new.account.Documented :=
  ⟨Seed.natAbs_rank_lt new.role, .text _, .text _⟩

theorem UserChanges.documented_applyTo (changes : UserChanges) (t : Account)
    (ht : t.Documented) : (changes.applyTo t).Documented := by
  have hchanged (change : Option String) {v : Value} (hv : Json.Document v) :
      Json.Document ((change.map Value.text).getD v) := by
    cases change with
    | none => exact hv
    | some s => exact .text s
  exact ⟨ht.rank, hchanged _ ht.email, hchanged _ ht.displayName⟩

/-- Whatever a server is asked, its accounts have what can come out of a seed. -/
theorem Server.documented (hstart : (start settings location contents).2 = .ok s)
    (requests : List Request) : ∀ a ∈ s.accountsAfter requests, a.Documented := by
  have hseed : ∃ accounts, s.Running settings accounts ∧ ∀ a ∈ accounts, a.Documented := by
    cases hfile : settings.usersFile.isEmpty with
    | true =>
      obtain ⟨accounts, hs⟩ := exists_running_of_start hstart
      obtain ⟨hempty, -⟩ := of_start hstart
      rw [startDirectory, if_pos hfile] at hempty
      have hnobody : s.directory.Holds [] := by
        rw [← Except.ok.inj hempty]
        exact Directory.holds_empty
      rw [← hs.holds.accounts_eq, hnobody.accounts_eq] at hs
      exact ⟨[], hs, by simp⟩
    | false =>
      obtain ⟨accounts, hseeded, hs⟩ := exists_seeded_of_start hstart hfile
      exact ⟨accounts, hs, Seed.documented_of_seeded hseeded⟩
  obtain ⟨accounts, hs, hall⟩ := hseed
  exact hs.forall_mem NewUser.documented UserChanges.documented_applyTo hall requests

/-! ## 3. Listing and loading -/

/-- The body of a response, as it is sent or written to a file. -/
def Response.bytes (response : Response) : List UInt8 :=
  response.content.body.toUTF8.toList

/-- Accounts that can be shown are shown as their rows. -/
theorem mapM_present_eq (h : ∀ a ∈ accounts, a.Documented)
    (hshown : ∀ a ∈ accounts, a.Presentable) :
    (accounts.map Account.user).mapM present = .ok (accounts.map Account.row) := by
  rw [mapM_eq_ok_iff, List.forall₂_map_left_iff, List.forall₂_map_right_iff]
  exact List.forall₂_same.mpr fun a ha => present_eq_row (h a ha) (hshown a ha)

/-- **Listing and seeding are inverse.**  Let a server be started, let it serve any requests, and
let every user that it has then be one that can be shown.  The answer to a super admin who asks for
the list, taken as the contents of a seed file, seeds the directory that has been listed: the same
users, with the same ids, addresses, roles, ranks, statuses, names and ids managed, in the same
order. -/
theorem load_listed (hstart : (Server.start settings location contents).2 = .ok s)
    (requests : List Request) (hshown : (s.serveAll .standard requests).directory.Presentable)
    {r : Request} {c : Account} (hr : r.MadeBy "GET" settings (s.accountsAfter requests) c)
    (hrole : c.role = .superAdmin) (hpath : r.path = "/api/v1/users") (path location' : String) :
    ((s.serveAll .standard requests).serve .standard r).2.response.status = 200 ∧
      (Seed.load path location'
          (some ((s.serveAll .standard requests).serve .standard r).2.response.bytes)).2 =
        .ok (s.serveAll .standard requests).directory ∧
      (s.serveAll .standard requests).directory.list =
        .ok ((s.accountsAfter requests).map Account.user) := by
  obtain ⟨seeded, hseeded⟩ := Server.exists_running_of_start hstart
  have hs := hseeded.serveAll requests
  have hdocumented := Server.documented hstart requests
  have hpresentable := hs.holds.presentable_iff.mp hshown
  obtain ⟨-, hstatus, hcontent⟩ := hs.listed hr hrole hpath
  have hrows := mapM_present_eq hdocumented hpresentable
  rw [hrows] at hstatus
  refine ⟨hstatus, ?_, Directory.list_of_holds hs.holds⟩
  rw [Response.bytes, hcontent _ hrows]
  obtain ⟨d, hd, hholds⟩ := Directory.exists_load_of_seeded
    (Seed.seeded_rows hdocumented hpresentable) hs.holds.nodup
  rw [← hholds.eq hs.holds]
  exact hd

/-- The super admin of a seed takes an address. -/
def correcting : Request :=
  requestBy "s1" "PATCH" "/api/v1/users/s1" "\x7b\"email\":\"s1@localhost\"\x7d"

/-- The case of a super admin whose address is a number in the seed, and who has corrected it. -/
theorem load_listed_corrected :
    ∃ s c, (Server.start seededSettings "users.json" (some numberedSeed)).2 = .ok s ∧
      (s.serveAll .standard [correcting]).directory.Presentable ∧
      surveying.MadeBy "GET" seededSettings (s.accountsAfter [correcting]) c ∧
      c.role = .superAdmin ∧
      (Seed.load "list.json" "list.json"
          (some ((s.serveAll .standard [correcting]).serve .standard surveying).2.response.bytes)).2
        = .ok (s.serveAll .standard [correcting]).directory := by
  have htested : (Server.start seededSettings "users.json" (some numberedSeed)).2.toOption.any
      (fun s =>
        ((s.accountsAfter [correcting]).map fun a => (a.userId, a.role, a.status)) ==
          [("s1", .superAdmin, .active)] &&
        (s.accountsAfter [correcting]).all fun a =>
          a.email.text?.isSome && a.displayName.text?.isSome) = true := by
    decide +kernel
  obtain ⟨s, hstart, htested⟩ := exists_ok_of_any htested
  simp only [Bool.and_eq_true, beq_iff_eq, List.all_eq_true, Option.isSome_iff_exists] at htested
  obtain ⟨hids, htexts⟩ := htested
  obtain ⟨seeded, hseeded⟩ := Server.exists_running_of_start hstart
  have hs := hseeded.serveAll [correcting]
  have hshown : (s.serveAll .standard [correcting]).directory.Presentable := by
    refine hs.holds.presentable_iff.mpr fun a ha => ?_
    obtain ⟨hemail, hname⟩ := htexts a ha
    exact ⟨Or.inl hemail, Or.inl hname⟩
  obtain ⟨c, haccounts, hr, hrole⟩ := madeBy_surveying hids
  obtain ⟨-, hload, -⟩ :=
    load_listed hstart [correcting] hshown hr hrole rfl "list.json" "list.json"
  exact ⟨s, c, hstart, hshown, hr, hrole, hload⟩

end Http

end AccessControl
