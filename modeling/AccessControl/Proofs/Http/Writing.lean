import AccessControl.Proofs.Decision.Relevance
import AccessControl.Proofs.Http.Errand
import AccessControl.Proofs.Http.Routine
import AccessControl.Proofs.Http.Transition

/-!
# The routes that write

Every request that creates, changes or removes a user is handled as an errand
(`Server.Ready.exists_errand`): the steps of the three routes come down to look-ups, decisions
about what has been looked up, and one deed.

## Which differences are seen

Of a user the decisions see neither the address nor the name: the context of a caller is made
without them (`Caller.ofUser?_alike`), and no level reads them (`Caller.ruling_alike`).

## Whom a request names

An errand looks up the users that the request names, and its deed is about one of them
(`Errand.Of`).  The caller is given by a header, the user that is changed or removed by the path,
and a new user with those it is to manage by the body.  A request that is turned away before it
comes to its targets has an errand, too, one without targets (`Errand.rejected`).
-/

namespace AccessControl.Http

open Handler

variable {c : Caller} {action : UserAction} {logging : Bool} {u v : User} {settings : Settings}
  {r : Request} {p : Plan}

/-! ## 1. Decisions about a caller and a user -/

/-- The context of the caller, if there is one. -/
def Caller.context : Caller → Value
  | .resolved context => context
  | .unresolved => .null

/-- The status of a failure. -/
def refusal? {α : Type} : Except Failure α → Option Nat
  | .ok _ => none
  | .error f => some f.status

namespace Caller

/-- The status with which the caller is refused an action on users altogether, if so. -/
def gate (logging : Bool) (action : UserAction) (c : Caller) : Option Nat :=
  refusal? (((access logging c).permitted action).run .empty).outcome

/-- The status with which the caller is refused an action on a user, if so. -/
def ruling (logging : Bool) (action : UserAction) (c : Caller) (u : User) : Option Nat :=
  refusal? (((access logging c).may c.context action u).run .empty).outcome

/-- Nobody is refused. -/
theorem gate_null (logging : Bool) (action : UserAction) :
    gate logging action (.resolved .null) ≠ none := by
  intro hgate
  rw [gate] at hgate
  cases houtcome : (((access logging (.resolved .null)).permitted action).run .empty).outcome with
  | error f =>
    rw [houtcome] at hgate
    cases hgate
  | ok context =>
    obtain ⟨hcaller, haccepts⟩ := Access.permitted_ok (harmless_access logging _) houtcome
    cases hcaller
    exact Bool.noConfusion haccepts.bound

/-- Neither the address nor the name is part of the context. -/
theorem ofUser?_alike (h : u.Alike v) : ofUser? (some u) = ofUser? (some v) := by
  rw [h]
  rfl

end Caller

/-- No level of the rulebook reads the address or the name. -/
theorem seesAlike_of_alike (h : u.Alike v) (context : Value) :
    Rulebook.metadata.SeesAlike .standard context u.toValue v.toValue := by
  rw [h]
  refine ⟨rfl, fun level l hl => ?_⟩
  obtain ⟨name, hmem, -⟩ := Value.mem_of_find? hl
  obtain ⟨known, -, heq⟩ := List.mem_map.mp hmem
  cases heq
  cases known <;> rfl

theorem Access.may_alike (h : u.Alike v) (context : Value) :
    (access logging c).may context action u = (access logging c).may context action v := by
  have hdecide : (Query.instanceOf Rulebook.userMember action.member u.toValue).decide .standard
      (Rulebook.registry logging) context =
        (Query.instanceOf Rulebook.userMember action.member v.toValue).decide .standard
          (Rulebook.registry logging) context :=
    decide_congr_instance rfl (seesAlike_of_alike h context)
  simp only [Access.may, Access.decide, access, hdecide]

theorem Caller.ruling_alike (h : u.Alike v) :
    c.ruling logging action u = c.ruling logging action v := by
  rw [Caller.ruling, Caller.ruling, Access.may_alike h]

/-! ## 2. The steps of the routes -/

namespace Access

theorem exists_comes_authenticated {a : Access} (ha : a.Harmless) :
    ∃ outcome, Comes a.authenticated outcome := by
  rw [authenticated]
  split
  · exact ⟨_, .ofRun (harmless_of_mem_turnAway ha _ _ _)⟩
  · split
    · exact ⟨_, .ofRun (harmless_of_mem_turnAway ha _ _ _)⟩
    · exact ⟨_, .ofRun (harmless_of_mem_authenticate ha)⟩

/-- What follows a decision without a call makes no call either. -/
theorem exists_comes_decide {α : Type} {a : Access} (ha : a.Harmless) (context : Value) (q : Query)
    (result : Answer → α) :
    ∃ outcome, Comes (a.decide context q >>= fun answer => return result answer) outcome := by
  have hdecide : Comes (a.decide context q) _ := .ofRun (harmless_of_mem_decide ha)
  cases houtcome :
      (q.decide a.interpretation a.registry context).outcome.mapError Failure.fault with
  | ok answer =>
    rw [houtcome] at hdecide
    exact ⟨_, hdecide.bind_ok (.done _)⟩
  | error failure =>
    rw [houtcome] at hdecide
    exact ⟨_, hdecide.bind_error⟩

theorem exists_comes_permitted {a : Access} (ha : a.Harmless) (action : UserAction) :
    ∃ outcome, Comes (a.permitted action) outcome := by
  obtain ⟨outcome, hauthenticated⟩ := exists_comes_authenticated ha
  cases outcome with
  | ok context =>
    obtain ⟨outcome, hdecide⟩ := exists_comes_decide ha context
      (.permission Rulebook.userMember action.member []) fun _ => context
    exact ⟨outcome, hauthenticated.bind_ok hdecide⟩
  | error failure => exact ⟨_, hauthenticated.bind_error⟩

/-- **The gate.**  The request goes on with the context of the caller, or ends. -/
theorem carries_permitted {k : Value → Handler Response}
    (hk : ∀ context, c = .resolved context → Carries statusOf (k context) p) :
    Carries statusOf ((access logging c).permitted action >>= k)
      (.unless (c.gate logging action) p) := by
  obtain ⟨outcome, hcomes⟩ := exists_comes_permitted (harmless_access logging c) action
  have houtcome := hcomes.outcome_run .empty
  rw [Caller.gate, houtcome]
  cases outcome with
  | ok context =>
    obtain ⟨hcaller, -⟩ := permitted_ok (harmless_access logging c) houtcome
    exact hcomes.carries_ok (hk context hcaller)
  | error failure => exact hcomes.carries_error

/-- **A ruling.**  The request goes on if the caller may apply the action to the user, or ends. -/
theorem carries_may {context : Value} {k : Unit → Handler Response}
    (hcontext : c = .resolved context) (hk : Carries statusOf (k ()) p) :
    Carries statusOf ((access logging c).may context action u >>= k)
      (.unless (c.ruling logging action u) p) := by
  subst hcontext
  obtain ⟨outcome, hcomes⟩ := exists_comes_decide (harmless_access logging (.resolved context))
    context (.instanceOf Rulebook.userMember action.member u.toValue) fun _ => ()
  have hmay : Comes ((access logging (.resolved context)).may context action u) outcome := hcomes
  rw [Caller.ruling, Caller.context, hmay.outcome_run .empty]
  cases outcome with
  | ok answer => exact hmay.carries_ok hk
  | error failure => exact hmay.carries_error

end Access

namespace UserRoutes

/-- Finding a user is a look-up that ends the request if there is nobody. -/
theorem carries_find {id : String} {k : User → Handler Response} {after : Option User → Plan}
    (hnone : after none = .ends 404)
    (hsome : ∀ u, u.Presentable → Carries statusOf (k u) (after (some u))) :
    Carries statusOf (find (.text id) >>= k) (.look id after) := by
  refine .look fun found hfound => ?_
  cases found with
  | none =>
    rw [hnone]
    exact .done (.error (.noUser (.text id)))
  | some u => exact hsome u (hfound u rfl)

/-- The users to be assigned are looked up one after the other. -/
theorem carries_checkAssigned {e : Errand} {context : Value} {k : Unit → Handler Response}
    (hcontext : c = .resolved context) (hmissing : e.missing = 422)
    (hruling : e.ruling = Caller.ruling logging .update)
    (hk : Carries statusOf (k ()) (.act e.deed)) (ids : List String) :
    Carries statusOf (checkAssigned (access logging c) context ids >>= k) (e.lookAll c ids) := by
  induction ids with
  | nil => exact hk
  | cons id rest ih =>
    rw [checkAssigned, bind_assoc]
    refine .look fun found hfound => ?_
    cases found with
    | none =>
      rw [Errand.reply, hmissing]
      exact .done (.error (.noAssignee id))
    | some u =>
      have hmay : Carries statusOf ((access logging c).may context .update u >>= fun _ =>
          checkAssigned (access logging c) context rest >>= k)
          (.unless (c.ruling logging .update u) (e.lookAll c rest)) :=
        Access.carries_may hcontext ih
      rw [← bind_assoc] at hmay
      rw [Errand.reply, hruling]
      exact hmay

/-- A user that can be shown is shown. -/
theorem carries_shown (status : Nat) (hu : u.Presentable) :
    Carries statusOf (shown status u) (.ends status) := by
  obtain ⟨v, hv⟩ := hu
  have hshown : shown status u = .done (.ok (Response.json status v)) := by
    rw [shown, hv]
    rfl
  rw [hshown]
  exact .done _

/-- A user is added and shown, unless the id is taken. -/
theorem carries_add (new : NewUser) :
    Carries statusOf (add new.userId new.user >>= fun _ => shown 201 new.user)
      (.act (.create new)) := by
  refine .act (fun d _ => ?_) fun d _ => ?_
  · rw [Deed.perform_add, Deed.perform]
    split_ifs <;> rfl
  · rw [Deed.perform_add, Deed.perform]
    split_ifs with htaken
    · exact .done (.error (.conflict new.userId))
    · exact carries_shown 201 (Deed.presentable_user new)

/-- A user is changed and shown, if there is one. -/
theorem carries_update (userId : String) (changes : UserChanges) :
    Carries statusOf (ask (.update (.text userId) changes.fields) >>= fun answer =>
      match answer with
      | some changed => shown 200 changed
      | none => Handler.fail (.noUser (.text userId))) (.act (.change userId changes)) := by
  refine .act (fun d hd => ?_) fun d hd => ?_
  · rw [Deed.perform_update hd, Deed.perform]
    cases d.stored? (.text userId) <;> rfl
  · rw [Deed.perform_update hd, Deed.perform]
    cases hstored : d.stored? (.text userId) with
    | none => exact .done (.error (.noUser (.text userId)))
    | some u =>
      exact carries_shown 200 (changes.presentable_revise (hd u (Directory.mem_of_stored? hstored)))

/-- A user is removed, whether there is one or not. -/
theorem carries_askRemove (userId : String) :
    Carries statusOf (ask (.remove (.text userId)) >>= fun _ => return ⟨204, [], .empty⟩)
      (.act (.remove userId)) :=
  .act (fun _ _ => rfl) fun _ _ => .done (.ok ⟨204, [], .empty⟩)

end UserRoutes

/-! ## 3. Whom a request names -/

namespace Request

/-- The id of the caller, if the request gives one. -/
def callerId? (r : Request) (settings : Settings) : Option String :=
  (r.header? (Text.small settings.identityHeader)).filter (· != "")

/-- The user that the body describes, if it describes one. -/
def newUser? (r : Request) : Option NewUser :=
  (r.readBody >>= UserBody.read UserBody.readNewUser).toOption

/-- The changes that the body describes, if it describes any. -/
def changes? (r : Request) : Option UserChanges :=
  (r.readBody >>= UserBody.read UserBody.readChanges).toOption

/-- The id of the user that is to be removed. -/
def removed? (r : Request) : Option String :=
  match Endpoint.route r with
  | .ok (.removeUser userId) => some userId
  | _ => none

/-- The id of the user that is to be created, changed or removed. -/
def subject? (r : Request) : Option String :=
  match Endpoint.route r with
  | .ok .createUser => r.newUser?.map NewUser.userId
  | .ok (.changeUser userId) => r.changes?.map fun _ => userId
  | .ok (.removeUser userId) => some userId
  | _ => none

/-- The ids of the users that a new user is to manage. -/
def assigned (r : Request) : List String :=
  match Endpoint.route r with
  | .ok .createUser => (r.newUser?.map NewUser.assignedUsers).getD []
  | _ => []

end Request

namespace Errand

/-- The errand is one of a request: it looks up and does what the request names. -/
structure Of (e : Errand) (settings : Settings) (r : Request) : Prop where
  caller : ∀ id, e.caller = some id → r.callerId? settings = some id
  targets : ∀ id ∈ e.targets, r.subject? = some id ∨ id ∈ r.assigned
  subject : ∀ id, e.deed.subject? = some id → r.subject? = some id
  create : ∀ new, e.deed = .create new → e.targets = r.assigned
  remove : ∀ userId, e.deed = .remove userId → r.removed? = some userId

/-- The errand of a request that does not get past the gate. -/
def rejected (caller : Option String) (gate : Caller → Option Nat) : Errand where
  caller := caller
  gate := gate
  targets := []
  missing := 404
  ruling := fun _ _ => none
  deed := .idle 404

theorem proper_rejected {caller : Option String} {gate : Caller → Option Nat}
    (hgate : gate (.resolved .null) ≠ none) : (rejected caller gate).Proper where
  anonymous := hgate
  ruling_alike := fun _ _ _ _ => rfl
  change := fun _ _ h => nomatch h
  remove := fun _ h => nomatch h

theorem of_rejected {caller : Option String} {gate : Caller → Option Nat}
    (hcaller : ∀ id, caller = some id → r.callerId? settings = some id) :
    (rejected caller gate).Of settings r where
  caller := hcaller
  targets := fun _ h => nomatch h
  subject := fun _ h => nomatch h
  create := fun _ h => nomatch h
  remove := fun _ h => nomatch h

/-- The errand of a request for a new user. -/
def forNewUser (caller : Option String) (logging : Bool) (new : NewUser) : Errand where
  caller := caller
  gate := fun c => (c.gate logging .create).or (c.ruling logging .create new.user)
  targets := new.assignedUsers
  missing := 422
  ruling := Caller.ruling logging .update
  deed := .create new

theorem proper_forNewUser (caller : Option String) (logging : Bool) (new : NewUser) :
    (forNewUser caller logging new).Proper where
  anonymous := fun hgate => Caller.gate_null _ .create (Option.or_eq_none_iff.mp hgate).1
  ruling_alike := fun _ _ _ h => Caller.ruling_alike h
  change := fun _ _ h => nomatch h
  remove := fun _ h => nomatch h

theorem of_forNewUser {new : NewUser} (hsubject : r.subject? = some new.userId)
    (hassigned : r.assigned = new.assignedUsers) (logging : Bool) :
    (forNewUser (r.callerId? settings) logging new).Of settings r where
  caller := fun _ h => h
  targets := fun _ h => Or.inr (hassigned ▸ h)
  subject := fun _ h => hsubject.trans h
  create := fun _ _ => hassigned.symm
  remove := fun _ h => nomatch h

/-- The errand of a request about one user that is there already. -/
def forOneUser (caller : Option String) (logging : Bool) (action : UserAction) (userId : String)
    (deed : Deed) : Errand where
  caller := caller
  gate := Caller.gate logging action
  targets := [userId]
  missing := 404
  ruling := Caller.ruling logging action
  deed := deed

/-- What is done about one user that is there already: nothing, a change, or its removal. -/
inductive OneUser (r : Request) (userId : String) : Deed → Prop
  | idle (status : Nat) : OneUser r userId (.idle status)
  | change (changes : UserChanges) : OneUser r userId (.change userId changes)
  | remove (removed : r.removed? = some userId) : OneUser r userId (.remove userId)

variable {userId : String} {deed : Deed}

theorem proper_forOneUser (hdeed : OneUser r userId deed) (caller : Option String)
    (logging : Bool) (action : UserAction) :
    (forOneUser caller logging action userId deed).Proper where
  anonymous := Caller.gate_null _ action
  ruling_alike := fun _ _ _ h => Caller.ruling_alike h
  change := fun _ _ h => by
    cases hdeed <;> cases h
    exact ⟨rfl, rfl⟩
  remove := fun _ h => by
    cases hdeed <;> cases h
    rfl

theorem of_forOneUser (hdeed : OneUser r userId deed) (hsubject : r.subject? = some userId)
    (logging : Bool) (action : UserAction) :
    (forOneUser (r.callerId? settings) logging action userId deed).Of settings r where
  caller := fun _ h => h
  targets := fun _ h => by
    rw [List.mem_singleton.mp h]
    exact Or.inl hsubject
  subject := fun _ h => by
    cases hdeed with
    | idle status => cases h
    | change changes => exact hsubject.trans h
    | remove removed => exact hsubject.trans h
  create := fun _ h => by
    cases hdeed <;> cases h
  remove := fun _ h => by
    cases hdeed with
    | remove removed =>
      cases h
      exact removed
    | _ => cases h

end Errand

/-! ## 4. The routes -/

/-- The errand of a handler that is given the caller. -/
structure Endpoint.Sends (e : Endpoint) (settings : Settings) (published : Option Registry)
    (r : Request) (errand : Errand) : Prop where
  proper : errand.Proper
  of : errand.Of settings r
  caller : errand.caller = r.callerId? settings
  carries : ∀ c, Carries statusOf (e.handle published (access settings.authzLogging c) r)
    (errand.planFrom c)

namespace Endpoint

variable {published : Option Registry}

theorem handle_of_body {e : Endpoint} {body : Option Value} (htakes : e.takesBody = true)
    (hbody : r.readBody = .ok body) (a : Access) :
    e.handle published a r = e.handleWith published a r body := by
  rw [handle, if_pos htakes, hbody]

/-- A request that is rejected at the gate does nothing. -/
theorem sends_rejected {e : Endpoint} {gate : Caller → Option Nat}
    (hgate : gate (.resolved .null) ≠ none)
    (hcarries : ∀ c, Carries statusOf (e.handle published (access settings.authzLogging c) r)
      (.unless (gate c) (.ends 404))) :
    e.Sends settings published r (.rejected (r.callerId? settings) gate) where
  proper := Errand.proper_rejected hgate
  of := Errand.of_rejected fun _ h => h
  caller := rfl
  carries := hcarries

/-- A body that cannot be read ends the request before anything is decided. -/
theorem sends_of_unreadable {e : Endpoint} {failure : Failure} (htakes : e.takesBody = true)
    (hbody : r.readBody = .error failure) :
    e.Sends settings published r
      (.rejected (r.callerId? settings) fun _ => some failure.status) := by
  refine sends_rejected (Option.some_ne_none _) fun c => ?_
  rw [handle, if_pos htakes, hbody]
  exact .done (.error failure)

/-- A body that is not acceptable ends the request once the caller is permitted the action. -/
theorem sends_of_unacceptable {e : Endpoint} (action : UserAction) (failure : Failure)
    {k : Access → Value → Handler Response}
    (hhandle : ∀ a, e.handle published a r = a.permitted action >>= k a)
    (hk : ∀ a context, k a context = Handler.fail failure) :
    e.Sends settings published r (.rejected (r.callerId? settings) fun c =>
      (c.gate settings.authzLogging action).or (some failure.status)) := by
  refine sends_rejected (fun hgate => ?_) fun c => ?_
  · exact Option.some_ne_none _ (Option.or_eq_none_iff.mp hgate).2
  · rw [hhandle, Plan.unless_or]
    refine Access.carries_permitted fun context _ => ?_
    rw [hk]
    exact .done (.error failure)

/-- **Creating a user.** -/
theorem exists_sends_createUser (hroute : Endpoint.route r = .ok createUser) :
    ∃ errand, createUser.Sends settings published r errand := by
  cases hbody : r.readBody with
  | error failure => exact ⟨_, sends_of_unreadable rfl hbody⟩
  | ok body =>
    have hhandle (a : Access) : createUser.handle published a r = UserRoutes.create a body :=
      handle_of_body rfl hbody a
    cases hnew : UserBody.read UserBody.readNewUser body with
    | error failure =>
      refine ⟨_, sends_of_unacceptable .create failure hhandle fun a context => ?_⟩
      rw [hnew]
      rfl
    | ok new =>
      have hnewUser : r.newUser? = some new := by
        rw [Request.newUser?, hbody, ok_bind, hnew]
        rfl
      have hassigned : r.assigned = new.assignedUsers := by
        rw [Request.assigned, hroute, hnewUser]
        rfl
      have hsubject : r.subject? = some new.userId := by
        rw [Request.subject?, hroute, hnewUser]
        rfl
      refine ⟨.forNewUser (r.callerId? settings) settings.authzLogging new,
        Errand.proper_forNewUser _ _ new, Errand.of_forNewUser hsubject hassigned _, rfl,
        fun c => ?_⟩
      rw [hhandle, UserRoutes.create, hnew, Errand.planFrom, Errand.forNewUser, Plan.unless_or]
      refine Access.carries_permitted fun context hcontext => ?_
      exact Access.carries_may hcontext
        (UserRoutes.carries_checkAssigned hcontext rfl rfl (UserRoutes.carries_add new)
          new.assignedUsers)

/-- A request about one user looks the user up. -/
theorem sends_of_oneUser {e : Endpoint} {action : UserAction} {userId : String} {deed : Deed}
    {k : User → Handler Response} (hsubject : r.subject? = some userId)
    (hdeed : Errand.OneUser r userId deed)
    (hhandle : ∀ a, e.handle published a r = a.permitted action >>= fun context =>
      UserRoutes.find (.text userId) >>= fun u => a.may context action u >>= fun _ => k u)
    (hk : ∀ u, u.Presentable → Carries statusOf (k u) (.act deed)) :
    e.Sends settings published r
      (.forOneUser (r.callerId? settings) settings.authzLogging action userId deed) where
  proper := Errand.proper_forOneUser hdeed _ _ _
  of := Errand.of_forOneUser hdeed hsubject _ _
  caller := rfl
  carries := fun c => by
    rw [hhandle]
    refine Access.carries_permitted fun context hcontext => ?_
    refine UserRoutes.carries_find rfl fun u hu => ?_
    exact Access.carries_may hcontext (hk u hu)

/-- **Changing a user.**  If there is nothing to change, the user is only looked up. -/
theorem exists_sends_changeUser {userId : String}
    (hroute : Endpoint.route r = .ok (changeUser userId)) :
    ∃ errand, (changeUser userId).Sends settings published r errand := by
  cases hbody : r.readBody with
  | error failure => exact ⟨_, sends_of_unreadable rfl hbody⟩
  | ok body =>
    have hhandle (a : Access) :
        (changeUser userId).handle published a r = UserRoutes.change a userId body :=
      handle_of_body rfl hbody a
    cases hchanges : UserBody.read UserBody.readChanges body with
    | error failure =>
      refine ⟨_, sends_of_unacceptable .update failure hhandle fun a context => ?_⟩
      rw [hchanges]
      rfl
    | ok changes =>
      have hsubject : r.subject? = some userId := by
        rw [Request.subject?, hroute, Request.changes?, hbody, ok_bind, hchanges]
        rfl
      simp only [UserRoutes.change, hchanges] at hhandle
      by_cases hempty : changes.fields.isEmpty = true
      · refine ⟨_, sends_of_oneUser hsubject (.idle 200) hhandle fun u hu => ?_⟩
        rw [if_pos hempty]
        exact UserRoutes.carries_shown 200 hu
      · refine ⟨_, sends_of_oneUser hsubject (.change changes) hhandle fun u _ => ?_⟩
        rw [if_neg hempty]
        exact UserRoutes.carries_update userId changes

/-- **Removing a user.** -/
theorem exists_sends_removeUser {userId : String}
    (hroute : Endpoint.route r = .ok (removeUser userId)) :
    ∃ errand, (removeUser userId).Sends settings published r errand := by
  have hsubject : r.subject? = some userId := by
    rw [Request.subject?, hroute]
  have hremoved : r.removed? = some userId := by
    rw [Request.removed?, hroute]
  exact ⟨_, sends_of_oneUser hsubject (.remove hremoved) (fun _ => rfl) fun _ _ =>
    UserRoutes.carries_askRemove userId⟩

/-- **Every endpoint that writes** sends its requests on errands. -/
theorem exists_sends {e : Endpoint} (hroute : Endpoint.route r = .ok e)
    (hwrites : e.writes = true) : ∃ errand, e.Sends settings published r errand := by
  cases e with
  | createUser => exact exists_sends_createUser hroute
  | changeUser userId => exact exists_sends_changeUser hroute
  | removeUser userId => exact exists_sends_removeUser hroute
  | _ => cases hwrites

end Endpoint

/-! ## 5. The server -/

/-- Finding the caller is the first look-up of the errand. -/
theorem Caller.carries_resolve {errand : Errand} {k : Caller → Handler Response}
    (hcaller : errand.caller = r.callerId? settings)
    (hk : ∀ c, Carries statusOf (k c) (errand.planFrom c)) :
    Carries statusOf (Caller.resolve settings (some (.resolver .directory)) r >>= k)
      errand.plan := by
  rw [Caller.resolve, Caller.forwarded, Errand.plan, hcaller, Request.callerId?]
  cases hheader : r.header? (Text.small settings.identityHeader) with
  | none => exact hk _
  | some id =>
    by_cases hid : id = ""
    · subst hid
      exact hk _
    · have hempty : ¬ id.isEmpty = true := by simpa using hid
      have hgiven : (some id).filter (· != "") = some id := by simp [hid]
      simp only [Option.getD_some, if_neg hempty, hgiven]
      refine .look fun found _ => ?_
      cases found with
      | none => exact hk _
      | some u =>
        simp only [Handler.pure, settle_done, Caller.ofUser?]
        cases u.toContext with
        | ok context => exact hk _
        | error m =>
          refine .emit (fun event hevent => ?_) (hk .unresolved)
          rw [List.mem_singleton.mp hevent]
          trivial

/-- The server of the application, over a directory whose users can all be shown. -/
structure Server.Ready (s : Server) : Prop where
  registry_eq : s.registry = Rulebook.registry s.settings.authzLogging
  published_eq : s.published = true
  presentable : s.directory.Presentable

/-- The request comes to an endpoint that writes: it creates, changes or removes a user. -/
def Request.Writes (r : Request) : Prop :=
  ∃ e, Endpoint.route r = .ok e ∧ e.writes = true

namespace Server

variable {s : Server}

/-- The status of the response that is given in the end: what is left of the failures is answered
with one and the same response. -/
def finalStatus : Except Failure Response → Nat
  | .ok response => response.status
  | .error _ => internalError.status

theorem status_conclude (s : Server) (r : Request) (result : Result Response) :
    (s.conclude r result).response.status = finalStatus result.outcome := by
  rw [conclude]
  cases result.outcome with
  | ok response => rfl
  | error failure => rfl

/-- The layers around the dispatch do not change the status. -/
theorem carries_respond_of_admits (hadmits : s.Admits r)
    (hdispatch : Carries statusOf (s.dispatch .standard r) p) :
    Carries finalStatus (s.respond .standard r) p := by
  rw [respond_eq_of_admits hadmits]
  have hanswered : Carries finalStatus (answered (s.dispatch .standard r)) p := by
    refine hdispatch.settle fun outcome => ?_
    cases outcome with
    | ok response => exact ⟨.ok response, rfl, rfl⟩
    | error failure =>
      rw [statusOf, Failure.status]
      simp only
      cases failure.response? with
      | some response => exact ⟨.ok response, rfl, rfl⟩
      | none => exact ⟨.error failure, rfl, rfl⟩
  refine hanswered.settle fun outcome => ?_
  cases outcome with
  | ok response => exact ⟨.ok (response.forOrigin s.settings r), rfl, rfl⟩
  | error failure => exact ⟨.error failure, rfl, rfl⟩

/-- **Every request that writes** is an errand. -/
theorem Ready.exists_errand (hs : s.Ready) (hr : r.Writes) :
    ∃ errand : Errand, errand.Proper ∧ errand.Of s.settings r ∧
      Carries finalStatus (s.respond .standard r) errand.plan := by
  by_cases hadmits : s.Admits r
  · obtain ⟨e, hroute, hwrites⟩ := hr
    have hexists : ∃ errand, e.Sends s.settings s.publishedRegistry r errand :=
      Endpoint.exists_sends hroute hwrites
    obtain ⟨errand, hsends⟩ := hexists
    have hresolver : s.publishedRegistry.bind Registry.resolver = some (.resolver .directory) := by
      rw [publishedRegistry, hs.published_eq, hs.registry_eq]
      rfl
    refine ⟨errand, hsends.proper, hsends.of, carries_respond_of_admits hadmits ?_⟩
    rw [dispatch, hresolver]
    refine Caller.carries_resolve hsends.caller fun c => ?_
    rw [hroute, hs.registry_eq]
    exact hsends.carries c
  · obtain ⟨response, -, hrespond⟩ := exists_respond_of_not_admits hadmits .standard
    refine ⟨.rejected none fun _ => some response.status,
      Errand.proper_rejected (Option.some_ne_none _), Errand.of_rejected ?_, ?_⟩
    · intro id hid
      cases hid
    · rw [hrespond]
      exact .done (.ok response)

end Server

end AccessControl.Http
