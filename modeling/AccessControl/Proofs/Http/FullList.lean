import AccessControl.Proofs.Directory.SeedFile
import AccessControl.Proofs.Http.Authentication
import AccessControl.Proofs.Http.Entitlement
import AccessControl.Proofs.Http.Paths
import AccessControl.Proofs.Json.Document

/-!
# Seeds that can be listed

A super admin is shown all users, so that one of them who cannot be shown is enough for the whole
list to fail.  Which users cannot be shown is a matter of the seed: the loader converts the id, the
role, the rank, the status and the ids managed to what a response has in their places, but it takes
the address and the name as they are.

## What the seed has to say

A record is `Showable` if its address and its name are texts as far as they are given.  For accounts
at large there would be more values to consider, for bytes and members of enumerations can be read
as texts too; but no JSON text stands for any of these (`Json.document_of_read`), so that for what
comes out of a seed there are only the texts (`presentable_iff_showable`).

## How the list ends

Every user is visible through the level of all, so the rows are all accounts, shown one by one
(`Server.Running.listed`).  If each can be shown, there is one row for each record of the seed; if
one cannot, there is none, and the status is 500: `seed_listed_iff`.

This is said of seeds in which no half of a surrogate pair stands alone (`Seed.isWhole`).  A text
with such a half is a text, but no row with it can be encoded; the reader puts a character in its
place, and so cannot tell.
-/

namespace AccessControl

/-! ## 1. Records -/

namespace Seed

/-- The address and the name that the record gives, if it gives them, are texts. -/
def Showable (record : Value) : Prop :=
  ∀ key ∈ ["email", "display_name"], ∀ v, given? record key = some v → ∃ s, v = .text s

variable {record v : Value} {key : String} {a : Account}

/-- What a record has under a key is a document if the record is one. -/
theorem document_of_given? (hrecord : Json.Document record) (h : given? record key = some v) :
    Json.Document v := by
  obtain ⟨es, hes, hv⟩ := Option.bind_eq_some_iff.mp h
  cases hrecord with
  | map _ hkeys hvalues =>
    cases hes
    exact (Json.Document.map _ hkeys hvalues).find? hv
  | _ => cases hes

/-- The records of a list are documents. -/
theorem document_of_lists {contents : Option (List UInt8)} {records : List Value}
    (h : Lists contents records) : ∀ record ∈ records, Json.Document record := by
  obtain ⟨data, raw, -, -, hread⟩ := h
  cases Json.document_of_read hread with
  | list _ hitems => exact hitems

/-- A document can be read as a text if it is one. -/
theorem isReadable_iff_of_document (hv : Json.Document v) : v.IsReadable ↔ ∃ s, v = .text s := by
  constructor
  · rintro (⟨s, hs⟩ | ⟨data, s, rfl, -⟩)
    · exact ⟨s, hv.eq_text hs⟩
    · cases hv
  · rintro ⟨s, rfl⟩
    exact Value.isReadable_text s

/-- What a record gives under a key, or else the empty text, can be read as a text if it is one. -/
theorem isReadable_getD_iff (hrecord : Json.Document record) (key : String) :
    ((given? record key).getD (.text "")).IsReadable ↔
      ∀ v, given? record key = some v → ∃ s, v = .text s := by
  cases hentry : given? record key with
  | none =>
    simp only [Option.getD_none, reduceCtorEq, false_imp_iff, implies_true, iff_true]
    exact Value.isReadable_text ""
  | some v =>
    simp only [Option.getD_some]
    rw [isReadable_iff_of_document (document_of_given? hrecord hentry)]
    constructor
    · intro h w hw
      cases hw
      exact h
    · exact fun h => h v rfl

/-- **An account of a seed can be shown** exactly if its record gives texts. -/
theorem presentable_iff_showable (hrecord : Json.Document record) (h : Describes record a) :
    a.Presentable ↔ Showable record := by
  have hemail := isReadable_getD_iff hrecord "email"
  have hname := isReadable_getD_iff hrecord "display_name"
  rw [h.email] at hemail
  rw [h.displayName] at hname
  simp only [Showable, List.forall_mem_cons, List.not_mem_nil, false_imp_iff, implies_true,
    and_true, ← hemail, ← hname]
  exact ⟨fun h => ⟨h.email, h.displayName⟩, fun h => ⟨h.1, h.2⟩⟩

/-- Of records and the accounts described it can be said in pairs which can be shown. -/
theorem forall₂_showable {records : List Value} {accounts : List Account}
    (hrecords : ∀ record ∈ records, Json.Document record)
    (h : List.Forall₂ Describes records accounts) :
    List.Forall₂ (fun record a => a.Presentable ↔ Showable record) records accounts := by
  induction h with
  | nil => exact .nil
  | cons hdescribes _ ih =>
    rw [List.forall_mem_cons] at hrecords
    exact .cons (presentable_iff_showable hrecords.1 hdescribes) (ih hrecords.2)

/-- All accounts can be shown if all records are showable. -/
theorem forall_presentable_iff {records : List Value} {accounts : List Account}
    (h : List.Forall₂ (fun record a => a.Presentable ↔ Showable record) records accounts) :
    (∀ a ∈ accounts, a.Presentable) ↔ ∀ record ∈ records, Showable record := by
  induction h with
  | nil => simp
  | cons hfirst _ ih => rw [List.forall_mem_cons, List.forall_mem_cons, ih, hfirst]

end Seed

namespace Http

open Handler

variable {settings : Settings} {accounts : List Account} {c t : Account} {s : Server} {r : Request}
  {d : Directory} {logging : Bool}

/-! ## 2. The list -/

namespace UserRoutes

/-- The levels through which an account may list users. -/
def levelsToList (c : Account) : List Value :=
  (Rulebook.levelsOf c.role .list).map Rulebook.levelName

/-- **Through the levels of the caller** those accounts are visible that the caller may list. -/
theorem visible_iff_may :
    (visible .standard (userLevels (Rulebook.registry logging)) c.context t.user
      (levelsToList c)).2 = true ↔ c.May .list t := by
  have hentries : ∀ level ∈ levelsToList c,
      ∃ l, Value.find? level Rulebook.metadata.levels = some l := by
    intro level hlevel
    obtain ⟨l, -, rfl⟩ := List.mem_map.mp hlevel
    exact ⟨_, Rulebook.find?_levelName l⟩
  have hlevels : userLevels (Rulebook.registry logging) = Rulebook.metadata.levels := rfl
  have haccepted := @Rulebook.accepted_iff_extends c t Rulebook.userMember
    (Rulebook.levelsOf c.role .list)
  rw [hlevels, visible_iff_accepted hentries]
  exact haccepted

/-- The questions that are asked before the users are listed leave the directory as it is. -/
theorem afterEvents_listQuestions (d : Directory) :
    afterEvents d (listQuestions .standard (Rulebook.registry logging) c.context) = d := by
  have ha : (Rulebook.registry logging).SinkHarmless .standard :=
    harmless_access logging (.resolved c.context)
  refine afterEvents_of_harmless fun e he => ?_
  rw [listQuestions, List.mem_append, List.mem_append] at he
  rcases he with (he | he) | he
  · exact harmless_of_mem_authenticate ha e he
  · exact harmless_of_mem_decide ha e he
  · exact harmless_of_mem_decide ha e he

/-- The list of a super admin has a row for every account. -/
theorem outcome_list_superAdmin (hactive : c.status = .active) (hrole : c.role = .superAdmin)
    (hd : d.Holds accounts) :
    ((list (access logging (.resolved c.context))).run d).outcome =
      ((accounts.map Account.user).mapM present).map fun rows =>
        Response.json 200 (.list rows) := by
  have hc : (Rulebook.registry logging).Accepts .standard c.context :=
    Rulebook.accepts_context_iff.mpr hactive
  have hne : Rulebook.levelsOf c.role .list ≠ [] := by
    rw [hrole, Rulebook.levelsOf_superAdmin]
    exact List.cons_ne_nil _ _
  have hlevels : (listLevels.decide .standard (Rulebook.registry logging) c.context).outcome =
      .ok (.levels (some (levelsToList c))) :=
    (levels_iff (Rulebook.listsTexts_registry logging) (sinkWorks_registry logging) hc).mpr
      ⟨Rulebook.contextLevels_registry logging c .list, by simpa [levelsToList] using hne⟩
  have hlisted : (afterEvents d (listQuestions .standard (Rulebook.registry logging)
      c.context)).list = .ok (accounts.map Account.user) := by
    rw [afterEvents_listQuestions]
    exact Directory.list_of_holds hd
  have hall : (accounts.map Account.user).filter (fun u =>
      (visible .standard (userLevels (Rulebook.registry logging)) c.context u
        (levelsToList c)).2) = accounts.map Account.user := by
    rw [List.filter_eq_self]
    intro u hu
    obtain ⟨t, -, rfl⟩ := List.mem_map.mp hu
    exact visible_iff_may.mpr (Rulebook.may_superAdmin hrole .list t)
  have houtcome := outcome_list (a := access logging (.resolved c.context)) rfl hc
    (Rulebook.granted_of_levels hactive hne) hlevels hlisted
  rw [houtcome]
  exact congrArg (fun shown => (shown.mapM present).map fun rows => Response.json 200 (.list rows))
    hall

end UserRoutes

theorem exists_present_iff {a : Account} :
    (∃ shown, present a.user = .ok shown) ↔ a.Presentable :=
  Account.presentable_user_iff

/-- **A request of a super admin for the list** leaves the server as it is, and is answered with all
accounts, shown one by one. -/
theorem Server.Running.listed (hs : s.Running settings accounts)
    (hr : r.MadeBy "GET" settings accounts c) (hrole : c.role = .superAdmin)
    (hpath : r.path = "/api/v1/users") :
    (s.serve .standard r).1 = s ∧
      (s.serve .standard r).2.response.status =
        statusOf (((accounts.map Account.user).mapM present).map fun rows =>
          Response.json 200 (.list rows)) ∧
      ∀ rows, (accounts.map Account.user).mapM present = .ok rows →
        (s.serve .standard r).2.response.content = .json (.list rows) := by
  obtain ⟨result, hresult, hserver, hstatus, hcontent⟩ :=
    hs.answers hr (by decide) (Endpoint.route_listUsers hr.method hpath)
  have hquiet := UserRoutes.quiet_list (harmless_access settings.authzLogging
    (.resolved c.context)) s.directory
  have hhandle : result = (UserRoutes.list (access settings.authzLogging
      (.resolved c.context))).run s.directory := hresult
  have houtcome : ((UserRoutes.list (access settings.authzLogging
      (.resolved c.context))).run s.directory).outcome = _ :=
    UserRoutes.outcome_list_superAdmin hr.active hrole hs.holds
  rw [hhandle] at hserver hstatus hcontent
  rw [hquiet] at hserver
  rw [houtcome] at hstatus hcontent
  refine ⟨hserver, hstatus, fun rows hrows => ?_⟩
  rw [hrows] at hcontent
  exact hcontent _ rfl

/-- **The list of a super admin** has a row for every account if each of them can be shown, and
otherwise the server fails. -/
theorem Server.Running.listed_iff (hs : s.Running settings accounts)
    (hr : r.MadeBy "GET" settings accounts c) (hrole : c.role = .superAdmin)
    (hpath : r.path = "/api/v1/users") :
    ((∀ a ∈ accounts, a.Presentable) → (s.serve .standard r).2.response.status = 200 ∧
      ∃ rows, (s.serve .standard r).2.response.content = .json (.list rows) ∧
        List.Forall₂ (fun a row => present a.user = .ok row) accounts rows) ∧
    (¬ (∀ a ∈ accounts, a.Presentable) → (s.serve .standard r).2.response.status = 500) := by
  obtain ⟨-, hstatus, hcontent⟩ := hs.listed hr hrole hpath
  have hshown : (∃ rows, (accounts.map Account.user).mapM present = .ok rows) ↔
      ∀ a ∈ accounts, a.Presentable := by
    rw [exists_mapM_eq_ok_iff, List.forall_mem_map]
    simp only [exists_present_iff]
  rw [← hshown]
  constructor
  · rintro ⟨rows, hrows⟩
    rw [hrows] at hstatus
    refine ⟨hstatus, rows, hcontent rows hrows, ?_⟩
    exact List.forall₂_map_left_iff.mp (mapM_eq_ok_iff.mp hrows)
  · intro hfails
    have hunpresentable (u : User) : FailsWith (fun f => f.status = 500) (present u) :=
      failsWith_mapError fun _ _ => rfl
    cases hrows : (accounts.map Account.user).mapM present with
    | ok rows => exact absurd ⟨rows, hrows⟩ hfails
    | error f =>
      rw [hrows] at hstatus
      rw [hstatus]
      exact failsWith_mapM hunpresentable _ f hrows

/-! ## 3. Seeds -/

/-- A server with a seed file holds the accounts that the records of this file describe. -/
theorem Server.exists_seeded_of_start {location : String} {contents : Option (List UInt8)}
    (hstart : (start settings location contents).2 = .ok s)
    (hfile : settings.usersFile.isEmpty = false) :
    ∃ accounts, Directory.Seeded contents accounts ∧ s.Running settings accounts := by
  obtain ⟨hseed, -⟩ := of_start hstart
  obtain ⟨accounts, hs⟩ := exists_running_of_start hstart
  rw [startDirectory, if_neg (by rw [hfile]; exact Bool.false_ne_true)] at hseed
  obtain ⟨seeded, hseeded, hholds⟩ := Directory.exists_seeded_of_load hseed
  rw [← hholds.accounts_eq, hs.holds.accounts_eq] at hseeded
  exact ⟨accounts, hseeded, hs⟩

/-- **Which seeds can be listed.**  Take a seed file that a server can be started with.  It lists
records, and the directory holds one account for each of them, in their order.  If no half of a
surrogate pair stands alone in the file, moreover:

* An account can be shown exactly if its record is showable.
* If all records are showable, a request of an active super admin for the list is answered with
  200 and with one row for each record.
* If one is not, the status is 500. -/
theorem seed_listed_iff {location : String} {contents : Option (List UInt8)}
    (hstart : (Server.start settings location contents).2 = .ok s)
    (hfile : settings.usersFile.isEmpty = false) :
    ∃ records accounts, Seed.Lists contents records ∧ s.directory.Holds accounts ∧
      List.Forall₂ Seed.Describes records accounts ∧
      (Seed.isWhole contents = true →
        List.Forall₂ (fun record a => (∃ shown, present a.user = .ok shown) ↔ Seed.Showable record)
          records accounts ∧
        ∀ (r : Request) (c : Account), r.MadeBy "GET" settings accounts c →
          c.role = .superAdmin → r.path = "/api/v1/users" →
          ((∀ record ∈ records, Seed.Showable record) →
            (s.serve .standard r).2.response.status = 200 ∧
            ∃ rows, (s.serve .standard r).2.response.content = .json (.list rows) ∧
              List.Forall₂ (fun a row => present a.user = .ok row) accounts rows) ∧
          ((∃ record ∈ records, ¬ Seed.Showable record) →
            (s.serve .standard r).2.response.status = 500)) := by
  obtain ⟨accounts, ⟨records, hlists, hdescribes⟩, hs⟩ :=
    Server.exists_seeded_of_start hstart hfile
  have hpairs := Seed.forall₂_showable (Seed.document_of_lists hlists) hdescribes
  have hall := Seed.forall_presentable_iff hpairs
  refine ⟨records, accounts, hlists, hs.holds, hdescribes, fun _ => ⟨?_, ?_⟩⟩
  · simp only [exists_present_iff]
    exact hpairs
  · intro r c hr hrole hpath
    obtain ⟨hlisted, hfails⟩ := hs.listed_iff hr hrole hpath
    refine ⟨fun hshowable => hlisted (hall.mpr hshowable), ?_⟩
    rintro ⟨record, hrecord, hnot⟩
    exact hfails fun hshown => hnot (hall.mp hshown record hrecord)

/-- A seed with a super admin who has a name. -/
def namedSeed : List UInt8 :=
  "[\x7b\"user_id\":\"s1\",\"role\":\"SUPER_ADMIN\",\"display_name\":\"Ada\"\x7d]".toUTF8.toList

/-- A seed with a super admin whose address is a number. -/
def numberedSeed : List UInt8 :=
  "[\x7b\"user_id\":\"s1\",\"role\":\"SUPER_ADMIN\",\"email\":5\x7d]".toUTF8.toList

/-- The super admin asks for the list of users. -/
def surveying : Request := requestBy "s1" "GET" "/api/v1/users" ""

/-- The super admin of a directory with nobody else asks for the list. -/
theorem madeBy_surveying (hids : accounts.map (fun a => (a.userId, a.role, a.status)) =
    [("s1", .superAdmin, .active)]) :
    ∃ c, accounts = [c] ∧ surveying.MadeBy "GET" seededSettings accounts c ∧
      c.role = .superAdmin := by
  obtain ⟨c, rfl, hfields⟩ := List.map_eq_singleton_iff.mp hids
  simp only [Prod.mk.injEq] at hfields
  obtain ⟨hid, hrole, hactive⟩ := hfields
  have hcaller : c ∈ [c] ∧ c.userId ≠ "" ∧
      surveying.header? (Text.small seededSettings.identityHeader) = some c.userId := by
    rw [hid]
    exact ⟨List.mem_singleton_self _, by decide, by decide +kernel⟩
  exact ⟨c, rfl, ⟨rfl, by decide +kernel, hcaller, hactive⟩, hrole⟩

/-- The case of a super admin who has a name. -/
theorem seed_listed_iff_named :
    Seed.isWhole (some namedSeed) = true ∧
    ∃ s, (Server.start seededSettings "users.json" (some namedSeed)).2 = .ok s ∧
      seededSettings.usersFile.isEmpty = false ∧
      (∃ c, surveying.MadeBy "GET" seededSettings s.directory.accounts c ∧
        c.role = .superAdmin) ∧
      (s.serve .standard surveying).2.response.status = 200 ∧
      ∃ row, (s.serve .standard surveying).2.response.content = .json (.list [row]) := by
  have hwhole : Seed.isWhole (some namedSeed) = true := by decide +kernel
  have htested : (Server.start seededSettings "users.json" (some namedSeed)).2.toOption.any
      (fun s =>
        (s.directory.accounts.map fun a => (a.userId, a.role, a.status)) ==
          [("s1", .superAdmin, .active)] &&
        s.directory.accounts.all fun a => a.email.text?.isSome && a.displayName.text?.isSome) =
          true := by
    decide +kernel
  obtain ⟨s, hstart, htested⟩ := exists_ok_of_any htested
  simp only [Bool.and_eq_true, beq_iff_eq, List.all_eq_true, Option.isSome_iff_exists] at htested
  obtain ⟨hids, htexts⟩ := htested
  have hfile : seededSettings.usersFile.isEmpty = false := by decide
  obtain ⟨records, accounts, -, hholds, -, hshown⟩ := seed_listed_iff hstart hfile
  obtain ⟨hpairs, hlisted⟩ := hshown hwhole
  rw [hholds.accounts_eq] at hids htexts
  obtain ⟨c, rfl, hr, hrole⟩ := madeBy_surveying hids
  have hshowable : ∀ record ∈ records, Seed.Showable record := by
    simp only [exists_present_iff] at hpairs
    refine (Seed.forall_presentable_iff hpairs).mp fun a ha => ?_
    obtain ⟨hemail, hname⟩ := htexts a ha
    exact ⟨Or.inl hemail, Or.inl hname⟩
  obtain ⟨hstatus, rows, hcontent, hrows⟩ := (hlisted surveying c hr hrole rfl).1 hshowable
  refine ⟨hwhole, s, hstart, hfile, ⟨c, by rw [hholds.accounts_eq]; exact hr, hrole⟩, hstatus, ?_⟩
  cases hrows with
  | cons _ hnone =>
    cases hnone
    exact ⟨_, hcontent⟩

/-- **A seed that cannot be listed.**  The seed is accepted, and the super admin, whose address is a
number, is told that the server has failed. -/
theorem accepted_but_not_listed :
    ∃ s c, (Server.start seededSettings "users.json" (some numberedSeed)).2 = .ok s ∧
      s.directory.accounts = [c] ∧ surveying.MadeBy "GET" seededSettings [c] c ∧
      c.role = .superAdmin ∧ c.email.plain = "5" ∧ ¬ (∃ shown, present c.user = .ok shown) ∧
      (s.serve .standard surveying).2.response.status = 500 := by
  have htested : (Server.start seededSettings "users.json" (some numberedSeed)).2.toOption.any
      (fun s =>
        (s.directory.accounts.map fun a => (a.userId, a.role, a.status)) ==
          [("s1", .superAdmin, .active)] &&
        (s.directory.accounts.all fun a =>
          a.email.plain == "5" && !(present a.user).toOption.isSome) &&
        (s.serve .standard surveying).2.response.status == 500) = true := by
    decide +kernel
  obtain ⟨s, hstart, htested⟩ := exists_ok_of_any htested
  simp only [Bool.and_eq_true, beq_iff_eq, List.all_eq_true, Bool.not_eq_true'] at htested
  obtain ⟨⟨hids, hemails⟩, hstatus⟩ := htested
  obtain ⟨c, haccounts, hr, hrole⟩ := madeBy_surveying hids
  rw [haccounts] at hr hemails
  obtain ⟨hemail, hshown⟩ := hemails c (List.mem_singleton_self c)
  refine ⟨s, c, hstart, haccounts, hr, hrole, hemail, ?_, hstatus⟩
  rintro ⟨shown, hok⟩
  rw [hok] at hshown
  cases hshown

end Http

end AccessControl
