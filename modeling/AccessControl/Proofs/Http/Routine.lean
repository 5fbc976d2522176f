import AccessControl.Http.Routing
import AccessControl.Proofs.Decision.Errors
import AccessControl.Proofs.Http.Access
import AccessControl.Proofs.Http.Serving

/-!
# What the routes are made of

A route has many exits: the answer itself, every question that may be denied, every look-up that
may find nothing, every record that may not fit.  A statement about all exits has to be carried
through all of the thirteen endpoints, and there are several such statements: about the statuses
that can occur, about what a denial tells the client, about the records that are left.

## One walk for all of them

`Routine a K Q h` says that the handler `h` is made of a few kinds of steps, in the order in which
they are taken: it asks for the caller's context, it puts questions about this context to the
engine, it calls the directory, it logs something that is no record, and it ends with a result or
with a failure of its own.  All questions satisfy `K`, and the result satisfies `Q`.

What a step hands on is part of the definition: after the caller has been asked for, there is a
context; after a question there is an answer, and it is the one that the engine has given.  This is
what makes it possible to say of the list of users that its second question is put only when the
first has been granted.

Every endpoint is a routine, `Endpoint.routine_handleWith`.  With this, a statement about all exits
is an induction with six cases, and none of them mentions a route.

## Why failures of its own

The only failures of a route with the status 401 or 403 come from the engine.  So the failures that
a route ends with by itself are *ordinary*, and this is looked at once for each of them.
-/

namespace AccessControl.Http

open Handler

/-! ## 1. Handlers in sequence -/

namespace Handler

variable {α β γ : Type}

/-- Going on twice is going on once with both. -/
theorem bind_bind (h : Handler α) (f : α → Handler β) (g : β → Handler γ) :
    (h.bind f).bind g = h.bind fun a => (f a).bind g := by
  induction h with
  | done outcome => cases outcome <;> rfl
  | emit events next ih => exact congrArg (emit events) ih
  | call c next ih => exact congrArg (call c) (funext ih)

/-- Going on with the result alone changes nothing. -/
theorem bind_pure_self (h : Handler α) : h.bind pure = h := by
  induction h with
  | done outcome => cases outcome <;> rfl
  | emit events next ih => exact congrArg (emit events) ih
  | call c next ih => exact congrArg (call c) (funext ih)

instance : LawfulMonad Handler :=
  LawfulMonad.mk' Handler bind_pure_self (fun _ _ => rfl) bind_bind

end Handler

/-! ## 2. Ordinary failures -/

/-- The failure is no denial: the client sees neither the status 401 nor the status 403. -/
def Failure.Ordinary (f : Failure) : Prop :=
  f.status ≠ 401 ∧ f.status ≠ 403

/-- The response is that of a request that has been carried out. -/
def Response.Succeeded (response : Response) : Prop :=
  response.status < 400

namespace Failure

theorem ordinary_of_status {f : Failure} {n : Nat} (hstatus : f.status = n)
    (hn : n ≠ 401 ∧ n ≠ 403) : f.Ordinary := by
  rw [Ordinary, hstatus]
  exact hn

/-- An error in the use of the engine is the server's own. -/
theorem status_of_technical {e : Fault} (he : e.Technical) : (Failure.fault e).status = 500 := by
  cases e with
  | misuse m => rfl
  | config flaw => rfl
  | _ => exact he.elim

theorem ordinary_of_technical {e : Fault} (he : e.Technical) : (Failure.fault e).Ordinary :=
  ordinary_of_status (status_of_technical he) (by decide)

theorem ordinary_directory (e : DirectoryFault) : (Failure.directory e).Ordinary :=
  ordinary_of_status rfl (by decide : 500 ≠ 401 ∧ 500 ≠ 403)

end Failure

/-! ## 3. Routines -/

/-- The engine has granted the caller's context an action on users at all. -/
def Access.Granted (a : Access) (context : Value) (action : UserAction) : Prop :=
  ∃ answer, ((Query.permission Rulebook.userMember action.member []).decide a.interpretation
    a.registry context).outcome = .ok answer

/-- The handler is made of the steps of a route, its questions satisfy `K` and its result `Q`. -/
inductive Routine (a : Access) (K : Value → Query → Prop) {α : Type} (Q : α → Prop) :
    Handler α → Prop
  /-- It ends with a result. -/
  | result (b : α) (hb : Q b) : Routine a K Q (done (.ok b))
  /-- It ends with a failure of its own. -/
  | failure (f : Failure) (hf : f.Ordinary) : Routine a K Q (done (.error f))
  /-- Something happens that is no record. -/
  | emit (events : List Event) (next : Handler α) (hevents : ∀ e ∈ events, e.audit? = none)
      (hnext : Routine a K Q next) : Routine a K Q (.emit events next)
  /-- The directory is called. -/
  | call (c : Directory.Call) (next : Except DirectoryFault c.Answer → Handler α)
      (hnext : ∀ answer, Routine a K Q (next answer)) : Routine a K Q (.call c next)
  /-- The caller's context is asked for. -/
  | identify (next : Value → Handler α)
      (hnext : ∀ context, a.caller = .resolved context → Routine a K Q (next context)) :
      Routine a K Q (a.authenticated >>= next)
  /-- A question about the caller is put to the engine. -/
  | question (context : Value) (q : Query) (next : Answer → Handler α)
      (hcaller : a.caller = .resolved context) (hq : K context q)
      (hnext : ∀ answer, (q.decide a.interpretation a.registry context).outcome = .ok answer →
        Routine a K Q (next answer)) : Routine a K Q (a.decide context q >>= next)

variable {a : Access} {K : Value → Query → Prop} {α β : Type} {P : α → Prop} {Q : β → Prop}

/-- **A routine that goes on with a routine** is a routine. -/
theorem Routine.bind {h : Handler α} {f : α → Handler β} (hh : Routine a K P h)
    (hf : ∀ b, P b → Routine a K Q (f b)) : Routine a K Q (h >>= f) := by
  induction hh with
  | result b hb => exact hf b hb
  | failure e he => exact .failure e he
  | emit events next hevents _ ih => exact .emit events _ hevents ih
  | call c next _ ih => exact .call c _ ih
  | identify next _ ih =>
    rw [bind_assoc]
    exact .identify _ ih
  | question context q next hcaller hq _ ih =>
    rw [bind_assoc]
    exact .question context q _ hcaller hq ih

theorem routine_ofExcept {x : Except Failure α} (hx : FailsWith Failure.Ordinary x) :
    Routine a K (fun _ => True) (ofExcept x) := by
  cases x with
  | error f => exact .failure f (hx f rfl)
  | ok b => exact .result b trivial

theorem routine_ask (c : Directory.Call) : Routine a K (fun _ => True) (ask c) :=
  .call c _ fun _ => routine_ofExcept (failsWith_mapError fun e _ => Failure.ordinary_directory e)

theorem routine_tryCall (c : Directory.Call) : Routine a K (fun _ => True) (tryCall c) :=
  .call c _ fun answer => .result answer trivial

theorem routine_each {f : α → Handler β} (hf : ∀ b, Routine a K (fun _ => True) (f b))
    (items : List α) : Routine a K (fun _ => True) (each f items) := by
  induction items with
  | nil => exact .result [] trivial
  | cons b rest ih => exact (hf b).bind fun _ _ => ih.bind fun _ _ => .result _ trivial

/-! ## 4. The routes -/

namespace Access

variable {context : Value}

theorem routine_authenticated :
    Routine a K (fun context => a.caller = .resolved context) a.authenticated := by
  rw [← bind_pure a.authenticated]
  exact .identify _ fun context hcaller => .result context hcaller

theorem routine_decide {q : Query} (hcaller : a.caller = .resolved context) (hq : K context q) :
    Routine a K
      (fun answer => (q.decide a.interpretation a.registry context).outcome = .ok answer)
      (a.decide context q) := by
  rw [← bind_pure (a.decide context q)]
  exact .question context q _ hcaller hq fun answer hanswer => .result answer hanswer

variable (hraised : ∀ context q, q.raisesDenial = true → K context q)

include hraised

theorem routine_permitted (action : UserAction) :
    Routine a K (fun context => a.caller = .resolved context ∧ a.Granted context action)
      (a.permitted action) := by
  refine routine_authenticated.bind fun context hcaller => ?_
  refine (routine_decide hcaller (hraised _ _ rfl)).bind fun answer hanswer => ?_
  exact .result context ⟨hcaller, answer, hanswer⟩

theorem routine_may (hcaller : a.caller = .resolved context) (action : UserAction) (u : User) :
    Routine a K (fun _ => True) (a.may context action u) :=
  (routine_decide hcaller (hraised _ _ rfl)).bind fun _ _ => .result () trivial

end Access

namespace UserRoutes

theorem routine_find (userId : Value) : Routine a K (fun _ => True) (find userId) := by
  refine (routine_ask _).bind fun found _ => ?_
  cases found with
  | none => exact .failure _ (Failure.ordinary_of_status rfl (by decide : 404 ≠ 401 ∧ 404 ≠ 403))
  | some u => exact .result u trivial

/-- What a record is refused with is the server's own failure. -/
theorem failsWith_present (u : User) : FailsWith Failure.Ordinary (present u) :=
  failsWith_mapError fun _ _ =>
    Failure.ordinary_of_status rfl (by decide : 500 ≠ 401 ∧ 500 ≠ 403)

theorem routine_shown {status : Nat} (hstatus : status < 400) (u : User) :
    Routine a K Response.Succeeded (shown status u) :=
  (routine_ofExcept (failsWith_present u)).bind fun _ _ => .result _ hstatus

/-- Looking for a level that extends to a user leaves no record. -/
theorem audit?_of_mem_visible (i : Interpretation) (levels : List (Value × AccessLevel))
    (context : Value) (u : User) (names : List Value) :
    ∀ e ∈ (visible i levels context u names).1, e.audit? = none := by
  induction names with
  | nil =>
    intro e he
    cases he
  | cons name rest ih =>
    rw [visible]
    split
    · simp [Event.audit?, levelLine]
    · split
      · simp [Event.audit?, levelLine]
      · split
        · simp [Event.audit?]
        · rw [List.forall_mem_cons]
          exact ⟨rfl, ih⟩

theorem routine_showVisible (context : Value) (granted : List Value) (u : User) :
    Routine a K (fun _ => True) (showVisible a context granted u) := by
  refine .emit _ _ (audit?_of_mem_visible _ _ _ _ _) ?_
  split
  · exact routine_ofExcept (failsWith_map (failsWith_present u))
  · exact .result none trivial

/-- A body that does not describe what it should is objected to. -/
theorem failsWith_read_of {P : Failure → Prop} (hinvalid : ∀ found, P (.invalidBody found))
    (readFields : List (Value × Value) → Checked α) (body : Option Value) :
    FailsWith P (UserBody.read readFields body) := by
  unfold UserBody.read
  split
  · exact failsWith_error (hinvalid _)
  · exact failsWith_mapError fun _ _ => hinvalid _
  · exact failsWith_error (hinvalid _)

/-- A body that does not describe what it should is the client's mistake. -/
theorem failsWith_read (readFields : List (Value × Value) → Checked α)
    (body : Option Value) : FailsWith Failure.Ordinary (UserBody.read readFields body) :=
  failsWith_read_of (fun _ =>
    Failure.ordinary_of_status rfl (by decide : 422 ≠ 401 ∧ 422 ≠ 403)) readFields body

theorem routine_add (userId : String) (u : User) : Routine a K (fun _ => True) (add userId u) := by
  refine (routine_tryCall _).bind fun answer _ => ?_
  split
  · exact .result () trivial
  · exact .failure _ (Failure.ordinary_of_status rfl (by decide : 409 ≠ 401 ∧ 409 ≠ 403))
  · exact .failure _ (Failure.ordinary_directory _)

variable (hraised : ∀ context q, q.raisesDenial = true → K context q)

include hraised

theorem routine_me : Routine a K Response.Succeeded (me a) := by
  refine Access.routine_authenticated.bind fun context hcaller => ?_
  refine (routine_ofExcept (failsWith_mapError fun e he =>
    Failure.ordinary_of_technical (technical_contextField _ _ e he))).bind fun userId _ => ?_
  refine (routine_find _).bind fun u _ => ?_
  exact (Access.routine_may hraised hcaller _ _).bind fun _ _ => routine_shown (by decide) u

theorem routine_read (userId : String) : Routine a K Response.Succeeded (read a userId) := by
  refine (Access.routine_permitted hraised _).bind fun context hcontext => ?_
  refine (routine_find _).bind fun u _ => ?_
  exact (Access.routine_may hraised hcontext.1 _ _).bind fun _ _ => routine_shown (by decide) u

theorem routine_list (hlisted : ∀ context, a.Granted context .list →
    K context (.levels Rulebook.userMember UserAction.list.member)) :
    Routine a K Response.Succeeded (list a) := by
  refine (Access.routine_permitted hraised _).bind fun context hcontext => ?_
  refine (Access.routine_decide hcontext.1 (hlisted _ hcontext.2)).bind fun answer _ => ?_
  refine (routine_ask _).bind fun users _ => ?_
  exact (routine_each (routine_showVisible _ _) users).bind fun _ _ =>
    .result _ (by decide : 200 < 400)

theorem routine_checkAssigned {context : Value} (hcaller : a.caller = .resolved context)
    (ids : List String) : Routine a K (fun _ => True) (checkAssigned a context ids) := by
  induction ids with
  | nil => exact .result () trivial
  | cons userId rest ih =>
    refine (routine_ask _).bind fun found _ => ?_
    cases found with
    | none =>
      exact .failure _ (Failure.ordinary_of_status rfl (by decide : 422 ≠ 401 ∧ 422 ≠ 403))
    | some u => exact (Access.routine_may hraised hcaller _ _).bind fun _ _ => ih

theorem routine_create (body : Option Value) : Routine a K Response.Succeeded (create a body) := by
  refine (Access.routine_permitted hraised _).bind fun context hcontext => ?_
  refine (routine_ofExcept (failsWith_read _ body)).bind fun new _ => ?_
  refine (Access.routine_may hraised hcontext.1 _ _).bind fun _ _ => ?_
  refine (routine_checkAssigned hraised hcontext.1 _).bind fun _ _ => ?_
  exact (routine_add _ _).bind fun _ _ => routine_shown (by decide) _

theorem routine_change (userId : String) (body : Option Value) :
    Routine a K Response.Succeeded (change a userId body) := by
  refine (Access.routine_permitted hraised _).bind fun context hcontext => ?_
  refine (routine_ofExcept (failsWith_read _ body)).bind fun changes _ => ?_
  refine (routine_find _).bind fun u _ => ?_
  refine (Access.routine_may hraised hcontext.1 _ _).bind fun _ _ => ?_
  split
  · exact routine_shown (by decide) u
  · refine (routine_ask _).bind fun answer _ => ?_
    cases answer with
    | none =>
      exact .failure _ (Failure.ordinary_of_status rfl (by decide : 404 ≠ 401 ∧ 404 ≠ 403))
    | some changed => exact routine_shown (by decide) changed

theorem routine_remove (userId : String) : Routine a K Response.Succeeded (remove a userId) := by
  refine (Access.routine_permitted hraised _).bind fun context hcontext => ?_
  refine (routine_find _).bind fun u _ => ?_
  refine (Access.routine_may hraised hcontext.1 _ _).bind fun _ _ => ?_
  exact (routine_ask _).bind fun _ _ => .result _ (by decide : 204 < 400)

end UserRoutes

namespace RegistryRoutes

theorem failsWith_write (report : Except RoleReport.Flaw Value) :
    FailsWith Failure.Ordinary (write report) := by
  unfold write
  split
  · exact failsWith_error (Failure.ordinary_of_status rfl (by decide : 500 ≠ 401 ∧ 500 ≠ 403))
  · split
    · exact failsWith_ok _
    · exact failsWith_error (Failure.ordinary_of_status rfl (by decide : 500 ≠ 401 ∧ 500 ≠ 403))

theorem routine_reported (report : Except RoleReport.Flaw Value) :
    Routine a K Response.Succeeded (reported report) :=
  (routine_ofExcept (failsWith_write report)).bind fun _ _ => .result _ (by decide : 200 < 400)

theorem routine_consult {x : Except Fault α} (hx : FailsWith Fault.Technical x) :
    Routine a K (fun _ => True) (consult x) :=
  routine_ofExcept (failsWith_mapError fun e he => Failure.ordinary_of_technical (hx e he))

theorem routine_ordered (names : List Value) : Routine a K (fun _ => True) (ordered names) :=
  routine_ofExcept (failsWith_mapError fun _ _ =>
    Failure.ordinary_of_status rfl (by decide : 500 ≠ 401 ∧ 500 ≠ 403))

theorem routine_roles : Routine a K Response.Succeeded (roles a) :=
  Access.routine_authenticated.bind fun _ _ => routine_reported _

theorem routine_role (name : String) : Routine a K Response.Succeeded (role a name) := by
  refine Access.routine_authenticated.bind fun _ _ => ?_
  refine (routine_consult (technical_roleInfo _ _)).bind fun info _ => ?_
  cases info with
  | none => exact .failure _ (Failure.ordinary_of_status rfl (by decide : 404 ≠ 401 ∧ 404 ≠ 403))
  | some info => exact routine_reported _

theorem routine_resources : Routine a K Response.Succeeded (resources a) :=
  Access.routine_authenticated.bind fun _ _ => .result _ (by decide : 200 < 400)

theorem routine_grantedActions {context : Value} (hcaller : a.caller = .resolved context)
    (hasked : ∀ q, K context q) (resource : String × Option Metadata) :
    Routine a K (fun _ => True) (grantedActions a context resource) := by
  rw [grantedActions]
  split
  · exact .result none trivial
  · refine (routine_ordered _).bind fun actions _ => ?_
    refine (routine_each (fun action => ?_) actions).bind fun _ _ => .result _ trivial
    refine (Access.routine_decide hcaller (hasked _)).bind fun answer _ => ?_
    split
    · exact .result _ trivial
    · exact .result _ trivial

theorem routine_me (hasked : ∀ context q, K context q) : Routine a K Response.Succeeded (me a) := by
  refine Access.routine_authenticated.bind fun context hcaller => ?_
  refine (routine_each (routine_grantedActions hcaller (hasked _)) _).bind fun found _ => ?_
  refine (routine_consult (technical_contextField _ _)).bind fun role _ => ?_
  refine (routine_consult (technical_roleInfo _ _)).bind fun info _ => ?_
  refine (routine_each (fun g => ?_) _).bind fun relationships _ => ?_
  · exact (routine_ordered _).bind fun _ _ => .result _ trivial
  · refine (routine_consult (technical_contextField _ _)).bind fun userId _ => ?_
    refine (routine_ofExcept (failsWith_mapError fun _ _ => ?_)).bind fun _ _ => .result _ ?_
    · exact Failure.ordinary_of_status rfl (by decide : 500 ≠ 401 ∧ 500 ≠ 403)
    · exact (by decide : 200 < 400)

variable (hraised : ∀ context q, q.raisesDenial = true → K context q)

include hraised

theorem routine_permission (resource action : String) (levels : List String) :
    Routine a K Response.Succeeded (permission a resource action levels) := by
  refine Access.routine_authenticated.bind fun context hcaller => ?_
  exact (Access.routine_decide hcaller (hraised _ _ rfl)).bind fun _ _ =>
    .result _ (by decide : 200 < 400)

theorem routine_relationship (resource held : String) :
    Routine a K Response.Succeeded (relationship a resource held) := by
  refine Access.routine_authenticated.bind fun context hcaller => ?_
  exact (Access.routine_decide hcaller (hraised _ _ rfl)).bind fun _ _ =>
    .result _ (by decide : 200 < 400)

end RegistryRoutes

/-- **Every endpoint is a routine.**  Of its questions three things have to be known: those whose
denials are raised are allowed, so is the question of levels that the list of users puts once the
list has been granted, and so is every question if the endpoint reports what the caller holds. -/
theorem Endpoint.routine_handleWith (hraised : ∀ context q, q.raisesDenial = true → K context q)
    (hlisted : ∀ context, a.Granted context .list →
      K context (.levels Rulebook.userMember UserAction.list.member))
    {e : Endpoint} (hown : e = .ownAccess → ∀ context q, K context q)
    (published : Option Registry) (r : Request) (body : Option Value) :
    Routine a K Response.Succeeded (e.handleWith published a r body) := by
  cases e with
  | ownRecord => exact UserRoutes.routine_me hraised
  | listUsers => exact UserRoutes.routine_list hraised hlisted
  | createUser => exact UserRoutes.routine_create hraised body
  | readUser userId => exact UserRoutes.routine_read hraised userId
  | changeUser userId => exact UserRoutes.routine_change hraised userId body
  | removeUser userId => exact UserRoutes.routine_remove hraised userId
  | listRoles => exact RegistryRoutes.routine_roles
  | showRole role => exact RegistryRoutes.routine_role role
  | listResources => exact RegistryRoutes.routine_resources
  | ownAccess => exact RegistryRoutes.routine_me (hown rfl)
  | tryPermission resource action => exact RegistryRoutes.routine_permission hraised _ _ _
  | tryRelationship resource held => exact RegistryRoutes.routine_relationship hraised _ _
  | health => exact .result _ (by decide : 200 < 400)

/-- A body that cannot be read is no JSON, or is objected to. -/
theorem Request.failsWith_readBody_of {P : Failure → Prop} (hunreadable : P .unreadableBody)
    (hinvalid : ∀ found, P (.invalidBody found)) (r : Request) : FailsWith P r.readBody := by
  have hjson : ∀ data, FailsWith P (readJson data) := by
    intro data
    rw [readJson]
    split
    · exact failsWith_error hunreadable
    · split
      · exact failsWith_ok _
      · split
        · exact failsWith_error hunreadable
        · exact failsWith_error (hinvalid _)
  rw [readBody]
  split
  · exact failsWith_ok _
  · split
    · exact failsWith_map (hjson _)
    · exact failsWith_ok _

/-- A body that cannot be read is no denial. -/
theorem Request.failsWith_readBody (r : Request) : FailsWith Failure.Ordinary r.readBody :=
  r.failsWith_readBody_of (Failure.ordinary_of_status rfl (by decide : 400 ≠ 401 ∧ 400 ≠ 403))
    fun _ => Failure.ordinary_of_status rfl (by decide : 422 ≠ 401 ∧ 422 ≠ 403)

/-- An endpoint remains a routine when the body of the request is read first. -/
theorem Endpoint.routine_handle {e : Endpoint} {published : Option Registry} {r : Request}
    (h : ∀ body, Routine a K Response.Succeeded (e.handleWith published a r body)) :
    Routine a K Response.Succeeded (e.handle published a r) := by
  rcases e.handle_cases published a r with ⟨body, hhandle⟩ | ⟨f, -, hread, hhandle⟩
  · rw [hhandle]
    exact h body
  · rw [hhandle]
    exact .failure f (r.failsWith_readBody f hread)

/-- Every endpoint is a routine whose questions are left open. -/
theorem Endpoint.routine (published : Option Registry) (a : Access) (r : Request) (e : Endpoint) :
    Routine a (fun _ _ => True) Response.Succeeded (e.handle published a r) :=
  Endpoint.routine_handle fun body => Endpoint.routine_handleWith (fun _ _ _ => trivial)
    (fun _ _ => trivial) (fun _ _ _ => trivial) published r body

end AccessControl.Http
