import AccessControl.Http.Routing
import AccessControl.Proofs.Http.Access

/-!
# What the routes do to the directory

Of the thirteen endpoints ten only look: they are quiet (`quiet_handleWith`).  The other three
create, change and remove a user, and each of them consists of quiet steps, one call that writes,
and quiet steps again.  So a change of the directory can be traced back through all that came
before the call.

* `changed_by_create`: the caller may create this user, every user to be assigned is there and may
  be updated by the caller, and the user has been added.
* `changed_by_change`: the caller may update this user, and its fields have been changed.
* `changed_by_remove`: the caller may delete this user, and it has been removed.

What has been allowed is a decision of the engine; what it means is not looked at here.
-/

namespace AccessControl.Http

open Handler

variable {d : Directory} {a : Access}

/-! ## 1. Routes that only look -/

namespace UserRoutes

theorem quiet_find (userId : Value) : (find userId).Quiet := by
  refine quiet_bind (quiet_ask rfl) fun found => ?_
  cases found with
  | none => exact quiet_done _
  | some u => exact quiet_pure _

theorem quiet_shown (status : Nat) (u : User) : (shown status u).Quiet :=
  quiet_bind (quiet_ofExcept _) fun _ => quiet_pure _

theorem outcome_shown (status : Nat) (u : User) :
    ((shown status u).run d).outcome = (present u).map (Response.json status) := by
  rw [shown]
  cases present u <;> rfl

theorem quiet_me (ha : a.Harmless) : (me a).Quiet :=
  quiet_bind (Access.quiet_authenticated ha) fun _ =>
    quiet_bind (quiet_ofExcept _) fun _ =>
      quiet_bind (quiet_find _) fun _ =>
        quiet_bind (Access.quiet_may ha _ _ _) fun _ => quiet_shown _ _

theorem quiet_read (ha : a.Harmless) (userId : String) : (read a userId).Quiet :=
  quiet_bind (Access.quiet_permitted ha _) fun _ =>
    quiet_bind (quiet_find _) fun _ =>
      quiet_bind (Access.quiet_may ha _ _ _) fun _ => quiet_shown _ _

/-- Looking for a level that extends to a user calls predicates and logs, no more. -/
theorem harmless_of_mem_visible (i : Interpretation) (levels : List (Value × AccessLevel))
    (context : Value) (u : User) (names : List Value) :
    ∀ e ∈ (visible i levels context u names).1, e.Harmless := by
  induction names with
  | nil =>
    intro e he
    cases he
  | cons name rest ih =>
    rw [visible]
    split
    · simp [Event.Harmless]
    · split
      · simp [Event.Harmless]
      · split
        · simp [Event.Harmless]
        · rw [List.forall_mem_cons]
          exact ⟨trivial, ih⟩

theorem quiet_showVisible (context : Value) (granted : List Value) (u : User) :
    (showVisible a context granted u).Quiet := by
  refine quiet_emit (harmless_of_mem_visible _ _ _ _ _) ?_
  split
  · exact quiet_done _
  · exact quiet_pure _

theorem quiet_list (ha : a.Harmless) : (list a).Quiet :=
  quiet_bind (Access.quiet_permitted ha _) fun _ =>
    quiet_bind (Access.quiet_decide ha _ _) fun _ =>
      quiet_bind (quiet_ask rfl) fun _ =>
        quiet_bind (quiet_each (quiet_showVisible _ _) _) fun _ => quiet_pure _

end UserRoutes

namespace RegistryRoutes

theorem quiet_reported (report : Except RoleReport.Flaw Value) : (reported report).Quiet :=
  quiet_bind (quiet_ofExcept _) fun _ => quiet_pure _

theorem quiet_consult {α : Type} (x : Except Fault α) : (consult x).Quiet := quiet_ofExcept _

theorem quiet_ordered (names : List Value) : (ordered names).Quiet := quiet_ofExcept _

theorem quiet_roles (ha : a.Harmless) : (roles a).Quiet :=
  quiet_bind (Access.quiet_authenticated ha) fun _ => quiet_reported _

theorem quiet_role (ha : a.Harmless) (name : String) : (role a name).Quiet := by
  refine quiet_bind (Access.quiet_authenticated ha) fun _ => ?_
  refine quiet_bind (quiet_consult _) fun info => ?_
  cases info with
  | none => exact quiet_done _
  | some info => exact quiet_reported _

theorem quiet_resources (ha : a.Harmless) : (resources a).Quiet :=
  quiet_bind (Access.quiet_authenticated ha) fun _ => quiet_pure _

theorem quiet_grantedLevels (ha : a.Harmless) (context resource action : Value) :
    (grantedLevels a context resource action).Quiet := by
  refine quiet_bind (Access.quiet_decide ha _ _) fun answer => ?_
  split
  · exact quiet_pure _
  · exact quiet_pure _

theorem quiet_grantedActions (ha : a.Harmless) (context : Value)
    (resource : String × Option Metadata) : (grantedActions a context resource).Quiet := by
  unfold grantedActions
  split
  · exact quiet_pure _
  · refine quiet_bind (quiet_ordered _) fun actions => ?_
    exact quiet_bind (quiet_each (quiet_grantedLevels ha _ _) _) fun _ => quiet_pure _

theorem quiet_heldRelationships (g : String × Grant) : (heldRelationships g).Quiet :=
  quiet_bind (quiet_ordered _) fun _ => quiet_pure _

theorem quiet_me (ha : a.Harmless) : (me a).Quiet :=
  quiet_bind (Access.quiet_authenticated ha) fun _ =>
    quiet_bind (quiet_each (quiet_grantedActions ha _) _) fun _ =>
      quiet_bind (quiet_consult _) fun _ =>
        quiet_bind (quiet_consult _) fun _ =>
          quiet_bind (quiet_each quiet_heldRelationships _) fun _ =>
            quiet_bind (quiet_consult _) fun _ =>
              quiet_bind (quiet_ofExcept _) fun _ => quiet_pure _

theorem quiet_permission (ha : a.Harmless) (resource action : String) (levels : List String) :
    (permission a resource action levels).Quiet :=
  quiet_bind (Access.quiet_authenticated ha) fun _ =>
    quiet_bind (Access.quiet_decide ha _ _) fun _ => quiet_pure _

theorem quiet_relationship (ha : a.Harmless) (resource held : String) :
    (relationship a resource held).Quiet :=
  quiet_bind (Access.quiet_authenticated ha) fun _ =>
    quiet_bind (Access.quiet_decide ha _ _) fun _ => quiet_pure _

end RegistryRoutes

/-- The endpoint can change the directory. -/
def Endpoint.writes : Endpoint → Bool
  | createUser => true
  | changeUser _ => true
  | removeUser _ => true
  | _ => false

/-- **Endpoints that do not write only look.** -/
theorem Endpoint.quiet_handleWith (ha : a.Harmless) (published : Option Registry) (r : Request)
    (body : Option Value) {e : Endpoint} (he : e.writes = false) :
    (e.handleWith published a r body).Quiet := by
  cases e with
  | ownRecord => exact UserRoutes.quiet_me ha
  | listUsers => exact UserRoutes.quiet_list ha
  | readUser userId => exact UserRoutes.quiet_read ha userId
  | listRoles => exact RegistryRoutes.quiet_roles ha
  | showRole role => exact RegistryRoutes.quiet_role ha role
  | listResources => exact RegistryRoutes.quiet_resources ha
  | ownAccess => exact RegistryRoutes.quiet_me ha
  | tryPermission resource action => exact RegistryRoutes.quiet_permission ha resource action _
  | tryRelationship resource held => exact RegistryRoutes.quiet_relationship ha resource held
  | health => exact quiet_pure _
  | createUser => cases he
  | changeUser userId => cases he
  | removeUser userId => cases he

/-! ## 2. Routes that write -/

namespace UserRoutes

/-- A user that is found is in the directory under the id. -/
theorem get_of_find {userId : Value} {u : User} (h : ((find userId).run d).outcome = .ok u) :
    d.get userId = .ok (some u) := by
  obtain ⟨found, hfound, h⟩ := (quiet_ask (c := .get userId) rfl).exists_of_ok h
  have hget : d.get userId = .ok found := mapError_eq_ok_iff.mp hfound
  cases found with
  | none => cases h
  | some w =>
    cases h
    exact hget

theorem quiet_checkAssigned (ha : a.Harmless) (context : Value) (ids : List String) :
    (checkAssigned a context ids).Quiet := by
  induction ids with
  | nil => exact quiet_pure _
  | cons userId rest ih =>
    refine quiet_bind (quiet_ask rfl) fun found => ?_
    cases found with
    | none => exact quiet_done _
    | some u => exact quiet_bind (Access.quiet_may ha _ _ _) fun _ => ih

/-- **The loop over those to be assigned** comes to its end only if every one of them is there
and may be updated by the caller. -/
theorem allowed_of_checkAssigned (ha : a.Harmless) {context : Value} {ids : List String}
    (h : ((checkAssigned a context ids).run d).outcome = .ok ()) :
    ∀ userId ∈ ids, ∃ u, d.get (.text userId) = .ok (some u) ∧ a.Allowed context .update u := by
  induction ids with
  | nil =>
    intro userId hmem
    cases hmem
  | cons userId rest ih =>
    rw [checkAssigned] at h
    obtain ⟨found, hfound, h⟩ := (quiet_ask (c := .get (.text userId)) rfl).exists_of_ok h
    have hget : d.get (.text userId) = .ok found := mapError_eq_ok_iff.mp hfound
    cases found with
    | none => cases h
    | some u =>
      obtain ⟨⟨⟩, hmay, h⟩ := (Access.quiet_may ha _ _ _).exists_of_ok h
      rw [List.forall_mem_cons]
      exact ⟨⟨u, hget, Access.may_ok ha hmay⟩, ih h⟩

/-- Adding a user is one call. -/
theorem directory_add (userId : String) (u : User) :
    ((add userId u).run d).directory = (d.perform (.add u)).1 := by
  refine directory_bind_of_quiet _ fun answer => ?_
  split
  · exact quiet_pure _
  · exact quiet_done _
  · exact quiet_done _

/-- Adding a user changes the directory only if the user is added. -/
theorem add_of_changed {userId : String} {u : User}
    (hchanged : ((add userId u).run d).directory ≠ d) :
    d.add u = .ok ((add userId u).run d).directory := by
  rw [directory_add, Directory.perform] at hchanged ⊢
  cases hadd : d.add u with
  | error e =>
    rw [hadd] at hchanged
    exact absurd rfl hchanged
  | ok next => rfl

theorem silent_find (userId : Value) : (find userId).Silent := by
  refine silent_bind (silent_ask _) fun found => ?_
  cases found with
  | none => exact silent_done _
  | some u => exact silent_done _

theorem silent_shown (status : Nat) (u : User) : (shown status u).Silent :=
  silent_bind (silent_done _) fun _ => silent_done _

theorem silent_add (userId : String) (u : User) : (add userId u).Silent := by
  refine silent_bind (silent_tryCall _) fun answer => ?_
  split
  · exact silent_done _
  · exact silent_done _
  · exact silent_done _

/-- The steps of a request that creates a user: each of them has succeeded, and what has happened
has happened in them. -/
theorem steps_of_create (ha : a.Harmless) {body : Option Value}
    (hchanged : ((create a body).run d).directory ≠ d) :
    ∃ context new, ((a.permitted .create).run d).outcome = .ok context ∧
      UserBody.read UserBody.readNewUser body = .ok new ∧
      ((a.may context .create new.user).run d).outcome = .ok () ∧
      ((checkAssigned a context new.assignedUsers).run d).outcome = .ok () ∧
      d.add new.user = .ok ((create a body).run d).directory ∧
      ((create a body).run d).events = ((a.permitted .create).run d).events ++
        (((a.may context .create new.user).run d).events ++
          ((checkAssigned a context new.assignedUsers).run d).events) := by
  rw [create] at hchanged ⊢
  obtain ⟨context, hpermitted, hrun⟩ :=
    (Access.quiet_permitted ha .create).run_of_changed hchanged
  simp only [hrun] at hchanged ⊢
  obtain ⟨new, hnew, hrun⟩ := (quiet_ofExcept _).run_of_changed hchanged
  simp only [hrun] at hchanged ⊢
  obtain ⟨⟨⟩, hmay, hrun⟩ := (Access.quiet_may ha _ _ _).run_of_changed hchanged
  simp only [hrun] at hchanged ⊢
  obtain ⟨⟨⟩, hassigned, hrun⟩ := (quiet_checkAssigned ha _ _).run_of_changed hchanged
  simp only [hrun] at hchanged ⊢
  have hsilent : (add new.userId new.user >>= fun _ => shown 201 new.user).Silent :=
    silent_bind (silent_add _ _) fun _ => silent_shown _ _
  refine ⟨context, new, hpermitted, hnew, hmay, hassigned, ?_, ?_⟩
  · rw [directory_bind_of_quiet _ fun _ => quiet_shown _ _] at hchanged ⊢
    exact add_of_changed hchanged
  · rw [hsilent d, List.append_nil]
    rfl

/-- The steps of a request that changes a user. -/
theorem steps_of_change (ha : a.Harmless) {userId : String} {body : Option Value}
    (hchanged : ((change a userId body).run d).directory ≠ d) :
    ∃ context changes u, ((a.permitted .update).run d).outcome = .ok context ∧
      UserBody.read UserBody.readChanges body = .ok changes ∧
      d.get (.text userId) = .ok (some u) ∧
      ((a.may context .update u).run d).outcome = .ok () ∧
      ((change a userId body).run d).directory = (d.update (.text userId) changes.fields).1 ∧
      ((change a userId body).run d).events =
        ((a.permitted .update).run d).events ++ ((a.may context .update u).run d).events := by
  rw [change] at hchanged ⊢
  obtain ⟨context, hpermitted, hrun⟩ :=
    (Access.quiet_permitted ha .update).run_of_changed hchanged
  simp only [hrun] at hchanged ⊢
  obtain ⟨changes, hchanges, hrun⟩ := (quiet_ofExcept _).run_of_changed hchanged
  simp only [hrun] at hchanged ⊢
  obtain ⟨u, hfound, hrun⟩ := (quiet_find _).run_of_changed hchanged
  simp only [hrun] at hchanged ⊢
  obtain ⟨⟨⟩, hmay, hrun⟩ := (Access.quiet_may ha _ _ _).run_of_changed hchanged
  simp only [hrun] at hchanged ⊢
  by_cases hempty : changes.fields.isEmpty = true
  · rw [if_pos hempty, quiet_shown] at hchanged
    exact absurd rfl hchanged
  · refine ⟨context, changes, u, hpermitted, hchanges, get_of_find hfound, hmay, ?_, ?_⟩
    · rw [if_neg hempty]
      refine directory_bind_of_quiet (ask (.update (.text userId) changes.fields)) fun answer => ?_
      cases answer with
      | none => exact quiet_done _
      | some changed => exact quiet_shown _ _
    · rw [if_neg hempty, silent_find, silent_bind (silent_ask _), List.append_nil]
      · rfl
      · intro answer
        cases answer with
        | none => exact silent_done _
        | some changed => exact silent_shown _ _

/-- The steps of a request that removes a user. -/
theorem steps_of_remove (ha : a.Harmless) {userId : String}
    (hchanged : ((remove a userId).run d).directory ≠ d) :
    ∃ context u, ((a.permitted .delete).run d).outcome = .ok context ∧
      d.get (.text userId) = .ok (some u) ∧
      ((a.may context .delete u).run d).outcome = .ok () ∧
      ((remove a userId).run d).directory = (d.remove (.text userId)).1 ∧
      ((remove a userId).run d).events =
        ((a.permitted .delete).run d).events ++ ((a.may context .delete u).run d).events := by
  rw [remove] at hchanged ⊢
  obtain ⟨context, hpermitted, hrun⟩ :=
    (Access.quiet_permitted ha .delete).run_of_changed hchanged
  simp only [hrun] at hchanged ⊢
  obtain ⟨u, hfound, hrun⟩ := (quiet_find _).run_of_changed hchanged
  simp only [hrun] at hchanged ⊢
  obtain ⟨⟨⟩, hmay, hrun⟩ := (Access.quiet_may ha _ _ _).run_of_changed hchanged
  simp only [hrun] at hchanged ⊢
  have hsilent : (ask (.remove (.text userId)) >>= fun _ =>
      (return ⟨204, [], .empty⟩ : Handler Response)).Silent :=
    silent_bind (silent_ask _) fun _ => silent_done _
  refine ⟨context, u, hpermitted, get_of_find hfound, hmay,
    directory_bind_of_quiet (ask (.remove (.text userId))) fun _ => quiet_pure _, ?_⟩
  rw [hsilent d, silent_find, List.append_nil]
  rfl

/-- **Creating a user.** -/
theorem changed_by_create (ha : a.Harmless) {body : Option Value}
    (hchanged : ((create a body).run d).directory ≠ d) :
    ∃ context new, a.caller = .resolved context ∧
      a.registry.Accepts a.interpretation context ∧
      UserBody.read UserBody.readNewUser body = .ok new ∧ a.Allowed context .create new.user ∧
      (∀ userId ∈ new.assignedUsers, ∃ u, d.get (.text userId) = .ok (some u) ∧
        a.Allowed context .update u) ∧
      d.add new.user = .ok ((create a body).run d).directory := by
  obtain ⟨context, new, hpermitted, hnew, hmay, hassigned, hadd, -⟩ := steps_of_create ha hchanged
  obtain ⟨hcaller, haccepts⟩ := Access.permitted_ok ha hpermitted
  exact ⟨context, new, hcaller, haccepts, hnew, Access.may_ok ha hmay,
    allowed_of_checkAssigned ha hassigned, hadd⟩

/-- **Changing a user.** -/
theorem changed_by_change (ha : a.Harmless) {userId : String} {body : Option Value}
    (hchanged : ((change a userId body).run d).directory ≠ d) :
    ∃ context changes u, a.caller = .resolved context ∧
      a.registry.Accepts a.interpretation context ∧
      UserBody.read UserBody.readChanges body = .ok changes ∧
      d.get (.text userId) = .ok (some u) ∧ a.Allowed context .update u ∧
      ((change a userId body).run d).directory =
        (d.update (.text userId) changes.fields).1 := by
  obtain ⟨context, changes, u, hpermitted, hchanges, hu, hmay, hdirectory, -⟩ :=
    steps_of_change ha hchanged
  obtain ⟨hcaller, haccepts⟩ := Access.permitted_ok ha hpermitted
  exact ⟨context, changes, u, hcaller, haccepts, hchanges, hu, Access.may_ok ha hmay, hdirectory⟩

/-- **Removing a user.** -/
theorem changed_by_remove (ha : a.Harmless) {userId : String}
    (hchanged : ((remove a userId).run d).directory ≠ d) :
    ∃ context u, a.caller = .resolved context ∧
      a.registry.Accepts a.interpretation context ∧ d.get (.text userId) = .ok (some u) ∧
      a.Allowed context .delete u ∧
      ((remove a userId).run d).directory = (d.remove (.text userId)).1 := by
  obtain ⟨context, u, hpermitted, hu, hmay, hdirectory, -⟩ := steps_of_remove ha hchanged
  obtain ⟨hcaller, haccepts⟩ := Access.permitted_ok ha hpermitted
  exact ⟨context, u, hcaller, haccepts, hu, Access.may_ok ha hmay, hdirectory⟩

end UserRoutes

end AccessControl.Http
