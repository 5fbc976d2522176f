import AccessControl.Proofs.Http.Presentation
import AccessControl.Proofs.Http.Transition
import Mathlib.Data.List.Induction

/-!
# Failed requests that have changed something

A request that is refused should have changed nothing.  For most refusals this is so because they
come before the one call that writes.  What comes after this call can still fail: the response to
a change shows the record as it is stored now, and a record may not have the shape of a response.

## How a write ends

`Written` says, for each of the three calls that write, how the accounts have changed and what the
outcome is.  An endpoint that changes the directory ends like this (`commits_handleWith`), because
all that comes before the call is quiet, and what comes after it is one step.

## When a change fails

A new account can be shown, since its address and its name have been read as texts; a removed one
need not be.  So what is left is an account of the seed with an address or a name that is no text:
if the other one of the two is changed, the change is kept, and the client is told that the server
has failed.  `failed_and_changed_iff` says that this is the only way, and that it cannot happen if
every account of the seed can be shown; `renamed_and_failed` is a case where it does.

A text of the seed with half of a surrogate pair cannot be shown either, since it cannot be encoded.
Such a text is not kept by the reader, so which accounts can be shown is told only for a seed in
which no half stands alone (`Seed.isWhole`).  The bodies of the requests can be any: a service that
keeps halves lets none in through a body, since it refuses a request with one and changes nothing.
-/

namespace AccessControl.Http

open Handler

variable {d : Directory} {accounts accounts' : List Account} {a : Access}
  {outcome : Except Failure Response} {t t' : Account}

/-! ## 1. How a write ends -/

/-- How the accounts have changed, and the outcome that goes with it. -/
inductive Written (accounts accounts' : List Account) : Except Failure Response → Prop
  /-- A new account is at the end. -/
  | created (new : NewUser) (response : Response) (hstatus : response.status = 201)
      (hadded : accounts' = accounts ++ [new.account]) : Written accounts accounts' (.ok response)
  /-- An account has been changed, and is shown as it is now. -/
  | changed (before after : List Account) (t : Account) (changes : UserChanges)
      (hbefore : accounts = before ++ t :: after)
      (hafter : accounts' = before ++ changes.applyTo t :: after) :
      Written accounts accounts'
        ((present (changes.applyTo t).user).map (Response.json 200))
  /-- An account is gone. -/
  | removed (before after : List Account) (t : Account)
      (hbefore : accounts = before ++ t :: after) (hafter : accounts' = before ++ after) :
      Written accounts accounts' (.ok ⟨204, [], .empty⟩)

/-- If the handler changes a directory that holds accounts, this is a write, and the outcome goes
with it. -/
def Handler.Commits (h : Handler Response) : Prop :=
  ∀ d accounts, d.Holds accounts → (h.run d).directory ≠ d →
    ∃ accounts', (h.run d).directory.Holds accounts' ∧ Written accounts accounts' (h.run d).outcome

/-- A quiet handler does not change anything. -/
theorem Handler.Quiet.commits {h : Handler Response} (hh : h.Quiet) : h.Commits :=
  fun d _ _ hchanged => absurd (hh d) hchanged

/-- What is quiet does not matter for what comes after it. -/
theorem Handler.commits_bind {α : Type} {h : Handler α} {f : α → Handler Response} (hh : h.Quiet)
    (hf : ∀ b, (f b).Commits) : (h >>= f).Commits := by
  intro d accounts hd hchanged
  cases houtcome : (h.run d).outcome with
  | error e =>
    rw [run_bind_of_error houtcome, hh d] at hchanged
    exact absurd rfl hchanged
  | ok b =>
    rw [run_bind_of_ok houtcome, hh d] at hchanged ⊢
    exact hf b d accounts hd hchanged

/-! ## 2. The three calls -/

/-- A new account can be shown. -/
theorem NewUser.presentable (new : NewUser) : new.account.Presentable :=
  Account.presentable_user_iff.mp (Deed.presentable_user new)

/-- An account that can be shown can still be shown when it has been changed. -/
theorem UserChanges.presentable_applyTo (changes : UserChanges) (ht : t.Presentable) :
    (changes.applyTo t).Presentable :=
  Account.presentable_user_iff.mp
    (changes.presentable_revise (Account.presentable_user_iff.mpr ht))

namespace UserRoutes

theorem commits_add (new : NewUser) :
    (add new.userId new.user >>= fun _ => shown 201 new.user).Commits := by
  intro d accounts hd hchanged
  rw [directory_bind_of_quiet _ fun _ => quiet_shown _ _] at hchanged ⊢
  have hadd := add_of_changed hchanged
  have hholds := (Directory.holds_of_add (a := new.account) hd hadd).2
  refine ⟨accounts ++ [new.account], hholds, ?_⟩
  have hperform : d.perform (.add new.user) =
      (((add new.userId new.user).run d).directory, .ok ()) := by
    rw [Directory.perform, hadd]
  have hdone : ((add new.userId new.user).run d).outcome = .ok () := by
    have htried : ((tryCall (.add new.user)).run d).outcome = .ok (.ok ()) := by
      rw [run_tryCall, hperform]
    rw [add, outcome_bind_of_ok htried]
    rfl
  obtain ⟨v, hv⟩ := present_of_presentable new.presentable
  have hshown : present new.user = .ok v := hv
  rw [outcome_bind_of_ok hdone, outcome_shown, hshown]
  exact .created new _ rfl rfl

theorem commits_askUpdate (userId : String) (changes : UserChanges) :
    (ask (.update (.text userId) changes.fields) >>= fun answer =>
      match answer with
      | some changed => shown 200 changed
      | none => Handler.fail (.noUser (.text userId))).Commits := by
  intro d accounts hd hchanged
  have hperform : d.perform (.update (.text userId) changes.fields) =
      d.update (.text userId) changes.fields := rfl
  by_cases hthere : ∃ t ∈ accounts, t.userId = userId
  · obtain ⟨t, ht, rfl⟩ := hthere
    have hupdate := Directory.update_of_holds hd ht changes.givenTwice?_fields
      (changes.changed_fields t)
    have hanswer : ((ask (.update (.text t.userId) changes.fields)).run d).outcome =
        .ok (some (changes.applyTo t).user) := by
      rw [run_ask, hperform, hupdate]
      rfl
    obtain ⟨before, after, rfl⟩ := List.append_of_mem ht
    refine ⟨before ++ changes.applyTo t :: after, ?_, ?_⟩
    · rw [directory_bind_of_ok hanswer, quiet_shown, run_ask, hperform]
      exact Directory.holds_of_update hd changes.givenTwice?_fields (changes.changed_fields t) rfl
    · rw [outcome_bind_of_ok hanswer, outcome_shown]
      exact .changed before after t changes rfl rfl
  · have hfree : ∀ t ∈ accounts, t.userId ≠ userId := fun t ht hid => hthere ⟨t, ht, hid⟩
    have hupdate := Directory.update_of_not_mem hd hfree changes.givenTwice?_fields
    have hanswer : ((ask (.update (.text userId) changes.fields)).run d).outcome = .ok none := by
      rw [run_ask, hperform, hupdate]
      rfl
    rw [directory_bind_of_ok hanswer, run_ask, hperform, hupdate] at hchanged
    exact absurd rfl hchanged

theorem commits_askRemove (userId : String) :
    (ask (.remove (.text userId)) >>= fun _ =>
      (return ⟨204, [], .empty⟩ : Handler Response)).Commits := by
  intro d accounts hd hchanged
  have hanswer : ((ask (.remove (.text userId))).run d).outcome =
      .ok (d.stored? (.text userId)).isSome := rfl
  have hdirectory : ((ask (.remove (.text userId))).run d).directory =
      (d.remove (.text userId)).1 := rfl
  rw [directory_bind_of_ok hanswer, quiet_pure, hdirectory] at hchanged
  by_cases hthere : ∃ t ∈ accounts, t.userId = userId
  · obtain ⟨t, ht, rfl⟩ := hthere
    obtain ⟨before, after, rfl⟩ := List.append_of_mem ht
    refine ⟨before ++ after, ?_, ?_⟩
    · rw [directory_bind_of_ok hanswer, quiet_pure, hdirectory]
      exact Directory.holds_of_remove hd
    · rw [outcome_bind_of_ok hanswer]
      exact .removed before after t rfl rfl
  · have hfree : ∀ t ∈ accounts, t.userId ≠ userId := fun t ht hid => hthere ⟨t, ht, hid⟩
    exact absurd (Directory.remove_of_not_mem hd hfree) hchanged

theorem commits_create (ha : a.Harmless) (body : Option Value) : (create a body).Commits :=
  commits_bind (Access.quiet_permitted ha _) fun _ =>
    commits_bind (quiet_ofExcept _) fun new =>
      commits_bind (Access.quiet_may ha _ _ _) fun _ =>
        commits_bind (quiet_checkAssigned ha _ _) fun _ => commits_add new

theorem commits_change (ha : a.Harmless) (userId : String) (body : Option Value) :
    (change a userId body).Commits := by
  refine commits_bind (Access.quiet_permitted ha _) fun _ => ?_
  refine commits_bind (quiet_ofExcept _) fun changes => ?_
  refine commits_bind (quiet_find _) fun u => ?_
  refine commits_bind (Access.quiet_may ha _ _ _) fun _ => ?_
  by_cases hempty : changes.fields.isEmpty = true
  · rw [if_pos hempty]
    exact (quiet_shown _ _).commits
  · rw [if_neg hempty]
    exact commits_askUpdate userId changes

theorem commits_remove (ha : a.Harmless) (userId : String) : (remove a userId).Commits :=
  commits_bind (Access.quiet_permitted ha _) fun _ =>
    commits_bind (quiet_find _) fun _ =>
      commits_bind (Access.quiet_may ha _ _ _) fun _ => commits_askRemove userId

end UserRoutes

/-- **Every endpoint** that changes the directory does it by a write, and ends with its outcome. -/
theorem Endpoint.commits_handleWith (ha : a.Harmless) (published : Option Registry) (r : Request)
    (body : Option Value) (e : Endpoint) : (e.handleWith published a r body).Commits := by
  cases hwrites : e.writes with
  | false => exact (Endpoint.quiet_handleWith ha published r body hwrites).commits
  | true =>
    cases e with
    | createUser => exact UserRoutes.commits_create ha body
    | changeUser userId => exact UserRoutes.commits_change ha userId body
    | removeUser userId => exact UserRoutes.commits_remove ha userId
    | _ => cases hwrites

/-! ## 3. When a write fails -/

/-- What a revision makes of an account was not there before. -/
theorem Revision.not_mem {c : Account} (hd : d.Holds accounts)
    (h : Revision c accounts accounts' t t') : t' ∉ accounts := by
  obtain ⟨before, after, rfl, -⟩ := h.place
  have hid : t'.userId = t.userId := by rw [h.fields]
  intro hmem
  exact h.changed (hd.eq_of_userId_eq hmem (by simp) hid)

/-- What a revision makes of an account is there afterwards. -/
theorem Revision.mem {c : Account} (h : Revision c accounts accounts' t t') : t' ∈ accounts' := by
  obtain ⟨before, after, -, rfl⟩ := h.place
  simp

/-- **A write that fails** is a change of an account which cannot be shown afterwards. -/
theorem Written.exists_of_failed (h : Written accounts accounts' outcome)
    (hfailed : 400 ≤ statusOf outcome) :
    statusOf outcome = 500 ∧ ∃ before t t' after, accounts = before ++ t :: after ∧
      accounts' = before ++ t' :: after ∧ ¬ t'.Presentable := by
  cases h with
  | created new response hstatus hadded =>
    rw [statusOf, hstatus] at hfailed
    omega
  | changed before after t changes hbefore hafter =>
    by_cases hshown : (changes.applyTo t).Presentable
    · obtain ⟨v, hv⟩ := present_of_presentable hshown
      rw [hv] at hfailed
      have hok : (400 : Nat) ≤ 200 := hfailed
      omega
    · obtain ⟨found, hfound⟩ := present_of_not_presentable hshown
      rw [hfound]
      exact ⟨rfl, before, t, changes.applyTo t, after, hbefore, hafter, hshown⟩
  | removed before after t hbefore hafter =>
    have hok : (400 : Nat) ≤ 204 := hfailed
    omega

/-- A write that brings an account which cannot be shown fails. -/
theorem Written.failed_of_not_presentable (h : Written accounts accounts' outcome)
    (hmem : t' ∈ accounts') (hnew : t' ∉ accounts) (hshown : ¬ t'.Presentable) :
    statusOf outcome = 500 := by
  cases h with
  | created new response hstatus hadded =>
    rw [hadded, List.mem_append, List.mem_singleton] at hmem
    rcases hmem with hold | rfl
    · exact absurd hold hnew
    · exact absurd new.presentable hshown
  | changed before after t changes hbefore hafter =>
    rw [hbefore, List.mem_append, List.mem_cons, not_or, not_or] at hnew
    rw [hafter, List.mem_append, List.mem_cons] at hmem
    rcases hmem with hold | rfl | hold
    · exact absurd hold hnew.1
    · obtain ⟨found, hfound⟩ := present_of_not_presentable hshown
      rw [hfound]
      rfl
    · exact absurd hold hnew.2.2
  | removed before after t hbefore hafter =>
    rw [hbefore, List.mem_append, List.mem_cons, not_or, not_or] at hnew
    rw [hafter, List.mem_append] at hmem
    rcases hmem with hold | hold
    · exact absurd hold hnew.1
    · exact absurd hold hnew.2.2

/-- What new accounts have, and what changes do not take away, all accounts have after a write if
all have it before. -/
theorem Written.forall_mem {P : Account → Prop} (hnew : ∀ new : NewUser, P new.account)
    (hchange : ∀ (changes : UserChanges) t, P t → P (changes.applyTo t))
    (h : Written accounts accounts' outcome) (hall : ∀ b ∈ accounts, P b) :
    ∀ b ∈ accounts', P b := by
  cases h with
  | created new response hstatus hadded =>
    rw [hadded, List.forall_mem_append, List.forall_mem_singleton]
    exact ⟨hall, hnew new⟩
  | changed before after t changes hbefore hafter =>
    rw [hbefore, List.forall_mem_append, List.forall_mem_cons] at hall
    rw [hafter, List.forall_mem_append, List.forall_mem_cons]
    exact ⟨hall.1, hchange changes t hall.2.1, hall.2.2⟩
  | removed before after t hbefore hafter =>
    rw [hbefore, List.forall_mem_append, List.forall_mem_cons] at hall
    rw [hafter, List.forall_mem_append]
    exact ⟨hall.1, hall.2.2⟩

/-! ## 4. Runs -/

namespace Server

variable {s : Server} {settings : Settings} {r : Request}

/-- A request that changes the directory is a write, and is answered with its outcome. -/
theorem Running.exists_written (hs : s.Running settings accounts)
    (hholds : (s.serve .standard r).1.directory.Holds accounts')
    (hchanged : (s.serve .standard r).1.directory ≠ s.directory) :
    ∃ outcome, Written accounts accounts' outcome ∧
      (s.serve .standard r).2.response.status = statusOf outcome := by
  obtain ⟨e, body, result, line, rfl, -, hdirectory, hstatus, -⟩ :=
    hs.exists_handled_of_changed hchanged
  rw [hdirectory] at hchanged hholds
  obtain ⟨written, hwritten, houtcome⟩ := Endpoint.commits_handleWith
    (harmless_access settings.authzLogging _) s.publishedRegistry r body e _ _ hs.holds hchanged
  rw [← hwritten.accounts_eq, hholds.accounts_eq] at houtcome
  exact ⟨_, houtcome, hstatus⟩

/-- A request fails and has changed the directory exactly if it has revised an account which cannot
be shown afterwards. -/
theorem Running.failed_iff (hs : s.Running settings accounts)
    (hholds : (s.serve .standard r).1.directory.Holds accounts') :
    400 ≤ (s.serve .standard r).2.response.status ∧
        (s.serve .standard r).1.directory ≠ s.directory ↔
      ∃ c t t', Revision c accounts accounts' t t' ∧ ¬ t'.Presentable := by
  constructor
  · rintro ⟨hfailed, hchanged⟩
    obtain ⟨outcome, hwritten, hstatus⟩ := hs.exists_written hholds hchanged
    rw [hstatus] at hfailed
    obtain ⟨-, before, t, t', after, hbefore, hafter, hshown⟩ := hwritten.exists_of_failed hfailed
    obtain ⟨next, hnext, ⟨hsame, -⟩ | ⟨c, -, -, -, htransition⟩⟩ := hs.step r
    · exact absurd hsame hchanged
    · rw [← hnext.holds.accounts_eq, hholds.accounts_eq] at htransition
      -- the number of accounts tells that the transition is a revision
      have hlength : accounts'.length = accounts.length := by simp [hbefore, hafter]
      cases htransition with
      | creation u h =>
        have := h.length
        omega
      | revision u u' h =>
        have hnew := h.not_mem hs.holds
        rw [hbefore, List.mem_append, List.mem_cons, not_or, not_or] at hnew
        have hmem := h.mem
        rw [hafter, List.mem_append, List.mem_cons] at hmem
        have hsame : u' = t' := (hmem.resolve_left hnew.1).resolve_right hnew.2.2
        rw [← hsame] at hshown
        exact ⟨c, u, u', h, hshown⟩
      | deletion u h =>
        have := h.length
        omega
  · rintro ⟨c, t, t', hrevision, hshown⟩
    have hnew := hrevision.not_mem hs.holds
    have hchanged : (s.serve .standard r).1.directory ≠ s.directory := by
      intro hsame
      rw [hsame] at hholds
      rw [← hs.holds.accounts_eq, hholds.accounts_eq] at hnew
      exact hnew hrevision.mem
    obtain ⟨outcome, hwritten, hstatus⟩ := hs.exists_written hholds hchanged
    rw [hstatus, hwritten.failed_of_not_presentable hrevision.mem hnew hshown]
    exact ⟨by decide, hchanged⟩

/-- What new accounts have, and what changes do not take away, all accounts ever have if all
accounts of the seed have it. -/
theorem Running.forall_mem {P : Account → Prop} (hnew : ∀ new : NewUser, P new.account)
    (hchange : ∀ (changes : UserChanges) t, P t → P (changes.applyTo t))
    (hs : s.Running settings accounts) (hall : ∀ b ∈ accounts, P b) (requests : List Request) :
    ∀ b ∈ s.accountsAfter requests, P b := by
  induction requests using List.reverseRecOn with
  | nil =>
    rw [accountsAfter, (show s.serveAll .standard [] = s from rfl), hs.holds.accounts_eq]
    exact hall
  | append_singleton served r ih =>
    have hserved := hs.serveAll served
    have hnext := (hs.serveAll (served ++ [r])).holds
    rw [serveAll_concat] at hnext
    by_cases hchanged : ((s.serveAll .standard served).serve .standard r).1.directory =
        (s.serveAll .standard served).directory
    · rw [accountsAfter, serveAll_concat, hchanged]
      exact ih
    · obtain ⟨outcome, hwritten, -⟩ := hserved.exists_written hnext hchanged
      exact hwritten.forall_mem hnew hchange ih

/-- If all accounts of the seed can be shown, all accounts can ever be shown. -/
theorem Running.presentable (hs : s.Running settings accounts)
    (hall : ∀ b ∈ accounts, b.Presentable) (requests : List Request) :
    ∀ b ∈ s.accountsAfter requests, b.Presentable :=
  hs.forall_mem NewUser.presentable (fun changes _ => changes.presentable_applyTo) hall requests

end Server

/-- **Failed requests that have changed something.**  Let a server be started, and let it serve
any requests, and then one more.  If this request fails and has changed the directory, its status is
500.  If no half of a surrogate pair stands alone in the seed, moreover:

* The request fails and has changed the directory exactly if it has revised an account which cannot
  be shown afterwards.
* If all accounts of the seed can be shown, a request that fails has changed nothing. -/
theorem failed_and_changed_iff {settings : Settings} {location : String}
    {contents : Option (List UInt8)} {s : Server}
    (hstart : (Server.start settings location contents).2 = .ok s) (requests : List Request)
    (r : Request) :
    (s.serveAll .standard requests).directory.Holds (s.accountsAfter requests) ∧
    ((s.serveAll .standard requests).serve .standard r).1.directory.Holds
      (s.accountsAfter (requests ++ [r])) ∧
    (400 ≤ ((s.serveAll .standard requests).serve .standard r).2.response.status →
      ((s.serveAll .standard requests).serve .standard r).1.directory ≠
        (s.serveAll .standard requests).directory →
      ((s.serveAll .standard requests).serve .standard r).2.response.status = 500) ∧
    (Seed.isWhole contents = true →
      (400 ≤ ((s.serveAll .standard requests).serve .standard r).2.response.status ∧
          ((s.serveAll .standard requests).serve .standard r).1.directory ≠
            (s.serveAll .standard requests).directory ↔
        ∃ c t t', Revision c (s.accountsAfter requests) (s.accountsAfter (requests ++ [r])) t t' ∧
          ¬ t'.Presentable) ∧
      ((∀ a ∈ s.directory.accounts, a.Presentable) →
        400 ≤ ((s.serveAll .standard requests).serve .standard r).2.response.status →
        ((s.serveAll .standard requests).serve .standard r).1.directory =
          (s.serveAll .standard requests).directory)) := by
  obtain ⟨accounts, hs⟩ := Server.exists_running_of_start hstart
  have hbefore := hs.serveAll requests
  have hafter := (hs.serveAll (requests ++ [r])).holds
  rw [Server.serveAll_concat] at hafter
  have hiff := hbefore.failed_iff hafter
  refine ⟨hbefore.holds, hafter, ?_, fun _ => ⟨hiff, ?_⟩⟩
  · intro hfailed hchanged
    obtain ⟨outcome, hwritten, hstatus⟩ := hbefore.exists_written hafter hchanged
    rw [hstatus] at hfailed ⊢
    exact (hwritten.exists_of_failed hfailed).1
  · intro hall hfailed
    rw [hs.holds.accounts_eq] at hall
    by_contra hchanged
    obtain ⟨c, t, t', hrevision, hshown⟩ := hiff.mp ⟨hfailed, hchanged⟩
    exact hshown (hs.presentable hall (requests ++ [r]) t' hrevision.mem)

/-- The case of a request in the name of a manager who has not been created: it is refused, and the
accounts of the seed can all be shown, so it has changed nothing. -/
theorem failed_and_changed_iff_nobody :
    Seed.isWhole (some staffSeed) = true ∧
    ∃ s, (Server.start seededSettings "users.json" (some staffSeed)).2 = .ok s ∧
      (∀ a ∈ s.directory.accounts, a.Presentable) ∧
      (s.serve .standard naming).2.response.status = 401 ∧
      (s.serve .standard naming).1.directory = s.directory := by
  have hwhole : Seed.isWhole (some staffSeed) = true := by decide +kernel
  have htested : (Server.start seededSettings "users.json" (some staffSeed)).2.toOption.any
      (fun s =>
        (s.directory.accounts.all fun a =>
          a.email.text?.isSome && a.displayName.text?.isSome) &&
        (s.serve .standard naming).2.response.status == 401) = true := by
    decide +kernel
  obtain ⟨s, hstart, htested⟩ := exists_ok_of_any htested
  obtain ⟨htexts, hstatus⟩ := Bool.and_eq_true_iff.mp htested
  have hstatus := eq_of_beq hstatus
  have hall : ∀ a ∈ s.directory.accounts, a.Presentable := by
    intro a ha
    obtain ⟨hemail, hname⟩ := Bool.and_eq_true_iff.mp (List.all_eq_true.mp htexts a ha)
    exact ⟨Or.inl (Option.isSome_iff_exists.mp hemail), Or.inl (Option.isSome_iff_exists.mp hname)⟩
  obtain ⟨-, -, -, hshown⟩ := failed_and_changed_iff hstart [] naming
  obtain ⟨-, hunchanged⟩ := hshown hwhole
  have hfailed : 400 ≤ (s.serve .standard naming).2.response.status := by
    rw [hstatus]
    decide
  exact ⟨hwhole, s, hstart, hall, hstatus, hunchanged hall hfailed⟩

/-- A seed with an administrator whose address is a number. -/
def numberSeed : List UInt8 :=
  "[\x7b\"user_id\":\"a1\",\"role\":\"ADMIN\",\"email\":5\x7d]".toUTF8.toList

/-- The administrator takes a name. -/
def ownNaming : Request :=
  requestBy "a1" "PATCH" "/api/v1/users/a1" "\x7b\"display_name\":\"Ada\"\x7d"

/-- **A change that fails.**  The seed is accepted, although the address of the administrator is a
number.  The change of the name is answered with the status 500, and the name has been changed. -/
theorem renamed_and_failed :
    ∃ s, (Server.start seededSettings "users.json" (some numberSeed)).2 = .ok s ∧
      (s.serve .standard ownNaming).2.response.status = 500 ∧
      (s.serve .standard ownNaming).1.directory ≠ s.directory ∧
      s.directory.accounts.map (fun a => a.displayName.plain) = [""] ∧
      (s.accountsAfter [ownNaming]).map (fun a => a.displayName.plain) = ["Ada"] := by
  have htested : (Server.start seededSettings "users.json" (some numberSeed)).2.toOption.any
      (fun s =>
        (s.serve .standard ownNaming).2.response.status == 500 &&
        (s.directory.accounts.map fun a => a.displayName.plain) == [""] &&
        ((s.accountsAfter [ownNaming]).map fun a => a.displayName.plain) == ["Ada"]) = true := by
    decide +kernel
  obtain ⟨s, hstart, htested⟩ := exists_ok_of_any htested
  simp only [Bool.and_eq_true, beq_iff_eq] at htested
  obtain ⟨⟨hstatus, hbefore⟩, hafter⟩ := htested
  refine ⟨s, hstart, hstatus, fun hsame => ?_, hbefore, hafter⟩
  have hunchanged : s.accountsAfter [ownNaming] = s.directory.accounts :=
    congrArg Directory.accounts hsame
  rw [hunchanged, hbefore] at hafter
  exact absurd hafter (by decide)

end AccessControl.Http
