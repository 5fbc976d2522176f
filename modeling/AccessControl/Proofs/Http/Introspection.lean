import AccessControl.Proofs.Decision.Wording
import AccessControl.Proofs.Http.Authentication
import AccessControl.Proofs.Http.Paths

/-!
# Looking things up over HTTP

Three routes let an authenticated client ask about the rulebook: whether the caller holds an action,
possibly through certain levels, whether the caller holds a relationship, and what a role is.  The
names come from the path, so they are whatever text the client likes to send.

## Where an answer is missing

To find nothing under a name is an answer, and it is refused or not found like any other.  But the
registry looks things up with the care that it takes at the start of the process: the name of a
role or of a resource must not be blank.  In a path such a name is a segment like any other, and the
complaint about it is an error of the configuration, for which there is no response.  So the
routes answer every question but those: `lookups_answered` says which status comes of which
names, and 500 comes exactly of a blank resource or a blank role.  The names of actions, levels and
relationships are only compared, and may be blank.
-/

namespace AccessControl

/-! ## 1. What the table says -/

namespace Role

/-- The table grants the role an action of this name on the resource, and through every one of the
levels of these names. -/
def Holds (role : Role) (resource action : String) (levels : List String) : Prop :=
  resource = Rulebook.userResource ∧ ∃ a : UserAction, a.name = action ∧
    Rulebook.levelsOf role a ≠ [] ∧
    ∀ l ∈ levels, ∃ level ∈ Rulebook.levelsOf role a, level.name = l

/-- The table grants the role a relationship to instances of the resource. -/
def HoldsRelationship (role : Role) (resource relationship : String) : Prop :=
  resource = Rulebook.userResource ∧
    .text relationship ∈ (Rulebook.grantOf role).relationships

end Role

/-- What is found for a question about something that the name stands for: nothing if the name is
blank, and otherwise an answer that says whether it is there. -/
def Settles (x : Except Fault Finding) (name : String) (there : Prop) : Prop :=
  (Text.blank name = true ∧ ∃ flaw, x = .error (.config flaw)) ∨
    Text.blank name = false ∧ ∃ f, x = .ok f ∧ (f.verdict = .allow ↔ there)

theorem UserAction.name_injective {a b : UserAction} (h : a.name = b.name) : a = b := by
  cases a <;> cases b <;> first | rfl | exact absurd h (by decide)

namespace Rulebook

variable {logging : Bool} {role : Role} {resource action relationship : String}
  {levels : List String}

theorem lookup_grants (role : Role) : metadata.grants.lookup role.name = some (grantOf role) := by
  cases role <;> rfl

/-- Nothing is granted for a name that is not the name of an action. -/
theorem find?_permissions_of_unnamed (h : ∀ a : UserAction, a.name ≠ action) :
    Value.find? (.text action) (grantOf role).permissions = none := by
  cases hfind : Value.find? (.text action) (grantOf role).permissions with
  | none => rfl
  | some levels =>
    obtain ⟨k, hk, hsame⟩ := Value.mem_of_find? hfind
    obtain ⟨p, -, hp⟩ := List.mem_map.mp hk
    cases hp
    rw [Value.same_text] at hsame
    exact absurd (eq_of_beq hsame) (h p.1)

/-- **The levels held under a name** are those of the table. -/
theorem exists_heldLevels (logging : Bool) (role : Role) (action : String)
    (hblank : Text.blank resource = false) :
    ∃ held : List UserLevel, (registry logging).heldLevels (.text role.name) (.text resource)
        (.text action) = .ok (held.map levelName) ∧
      ∀ levels, role.Holds resource action levels ↔
        held ≠ [] ∧ ∀ l ∈ levels, ∃ level ∈ held, level.name = l := by
  by_cases hresource : resource = userResource
  · subst hresource
    by_cases hnamed : ∃ a : UserAction, a.name = action
    · obtain ⟨a, rfl⟩ := hnamed
      refine ⟨levelsOf role a, heldLevels_registry logging role a, fun levels => ?_⟩
      constructor
      · rintro ⟨-, b, hb, hheld⟩
        rw [UserAction.name_injective hb] at hheld
        exact hheld
      · exact fun hheld => ⟨rfl, a, rfl, hheld⟩
    · have hunnamed : ∀ a : UserAction, a.name ≠ action := fun a ha => hnamed ⟨a, ha⟩
      refine ⟨[], ?_, fun levels => ⟨?_, fun h => absurd rfl h.1⟩⟩
      · rw [Registry.heldLevels, Registry.resourceDefinition_of_text? _ rfl hblank, ok_bind]
        have hm : (registry logging).metadata? userResource = some metadata := rfl
        simp only [hm]
        rw [grantFor?_of_isText _ (Value.isText_text _), ok_bind, Value.text?_text,
          Option.bind_some, lookup_grants]
        simp only [levelsFor, Value.requireKey_text, ok_bind,
          find?_permissions_of_unnamed hunnamed]
        rfl
      · rintro ⟨-, a, ha, -⟩
        exact absurd ha (hunnamed a)
  · refine ⟨[], ?_, fun levels => ⟨fun h => absurd h.1 hresource, fun h => absurd rfl h.1⟩⟩
    rw [Registry.heldLevels, Registry.resourceDefinition_of_text? _ rfl hblank,
      metadata?_of_ne hresource]
    rfl

/-- A rulebook is not asked for under a blank name. -/
theorem resourceDefinition_of_blank (hblank : Text.blank resource = true) :
    (registry logging).resourceDefinition (.text resource) =
      .error (.config (.blank "Resource identifier")) := by
  rw [Registry.resourceDefinition, Registry.requireResource, Registry.requireName,
    Value.name_text, Value.text?_text]
  simp only [if_pos hblank]
  rfl

/-- Permission queries are settled by the table. -/
theorem settles_answerPermission (logging : Bool) (role : Role) (resource action : String)
    (levels : List String) :
    Settles (answerPermission (registry logging) (.text role.name) (.text resource) (.text action)
      (levels.map .text)) resource (role.Holds resource action levels) := by
  cases hblank : Text.blank resource with
  | true =>
    refine Or.inl ⟨hblank, .blank "Resource identifier", ?_⟩
    rw [answerPermission, resourceDefinition_of_blank hblank, error_bind]
  | false =>
    obtain ⟨held, hheld, hholds⟩ := exists_heldLevels logging role action hblank
    have htexts : ∀ l ∈ levels.map Value.text, l.IsText := by
      intro l hl
      obtain ⟨s, -, rfl⟩ := List.mem_map.mp hl
      exact Value.isText_text s
    have hheldTexts : ∀ l ∈ held.map levelName, l.IsText := by
      intro l hl
      obtain ⟨level, -, rfl⟩ := List.mem_map.mp hl
      exact Value.isText_text level.name
    obtain ⟨f, hf, -, -, hverdict⟩ := answerPermission_of_held hheld hheldTexts htexts
    refine Or.inr ⟨hblank, f, hf, ?_⟩
    have hsame : ∀ l : String, (held.map levelName).any (Value.same · (.text l)) = true ↔
        ∃ level ∈ held, level.name = l := by
      intro l
      simp [List.any_map, levelName]
    rw [hverdict, hholds]
    constructor
    · rintro ⟨hne, -, hall⟩
      exact ⟨fun hnil => hne (by rw [hnil]; rfl),
        fun l hl => (hsame l).mp (hall _ (List.mem_map_of_mem hl))⟩
    · rintro ⟨hne, hall⟩
      have hheldAll : ∀ v ∈ levels.map Value.text,
          (held.map levelName).any (Value.same · v) = true := by
        intro v hv
        obtain ⟨l, hl, rfl⟩ := List.mem_map.mp hv
        exact (hsame l).mpr (hall l hl)
      refine ⟨fun hnil => hne (List.map_eq_nil_iff.mp hnil), fun v hv => ?_, hheldAll⟩
      exact knowsLevel_of_held (reachable_registry logging).coherent (listsTexts_registry logging)
        hheld (htexts v hv) (hheldAll v hv)

/-- Relationship queries are settled by the table. -/
theorem settles_answerRelationship (logging : Bool) (role : Role)
    (resource relationship : String) :
    Settles (answerRelationship (registry logging) (.text role.name) (.text resource)
      (.text relationship)) resource (role.HoldsRelationship resource relationship) := by
  cases hblank : Text.blank resource with
  | true =>
    refine Or.inl ⟨hblank, .blank "Resource identifier", ?_⟩
    rw [answerRelationship, resourceDefinition_of_blank hblank, error_bind]
  | false =>
    refine Or.inr ⟨hblank, ?_⟩
    rw [answerRelationship, Registry.resourceDefinition_of_text? _ rfl hblank, ok_bind]
    by_cases hresource : resource = userResource
    · subst hresource
      have hm : (registry logging).metadata? userResource = some metadata := rfl
      have hheld : (grantOf role).relationships.any (Value.same · (.text relationship)) = true ↔
          role.HoldsRelationship userResource relationship := by
        have howner : (grantOf role).relationships = [.text "OWNER"] := rfl
        simp only [Role.HoldsRelationship, howner, List.any_cons, List.any_nil, Bool.or_false,
          Value.same_text, beq_iff_eq, List.mem_singleton, Value.text.injEq, true_and]
        exact eq_comm
      simp only [hm, grantFor?_of_isText _ (Value.isText_text _), ok_bind, Value.text?_text,
        Option.bind_some, lookup_grants]
      by_cases h : (grantOf role).relationships.any (Value.same · (.text relationship)) = true
      · rw [if_pos h]
        exact ⟨_, rfl, fun _ => hheld.mp h, fun _ => rfl⟩
      · rw [if_neg h]
        exact ⟨_, rfl, fun hallow => Verdict.noConfusion hallow, fun hr => absurd (hheld.mpr hr) h⟩
    · rw [metadata?_of_ne hresource]
      exact ⟨_, rfl, fun hallow => Verdict.noConfusion hallow, fun hr => absurd hr.1 hresource⟩

end Rulebook

/-! ## 2. What the routes answer -/

namespace Http

open Handler

/-- What the status of an answer to a look-up says: 200 if there is something under the name, 500
if the name is blank, and otherwise that there is nothing. -/
structure Answered (status missing : Nat) (name : String) (there : Prop) : Prop where
  found : status = 200 ↔ there
  nothing : status = missing ↔ Text.blank name = false ∧ ¬ there
  failed : status = 500 ↔ Text.blank name = true

variable {settings : Settings} {accounts : List Account} {c : Account} {d : Directory}
  {s : Server} {r : Request} {logging : Bool} {name : String}

theorem answered_of_blank {missing : Nat} {there : Prop} (hmissing : missing ≠ 500)
    (hblank : Text.blank name = true) (hthere : ¬ there) : Answered 500 missing name there where
  found := ⟨fun h => absurd h (by decide), fun h => absurd h hthere⟩
  nothing := ⟨fun h => absurd h.symm hmissing, fun h => by rw [hblank] at h; cases h.1⟩
  failed := ⟨fun _ => hblank, fun _ => rfl⟩

theorem answered_of_there {missing : Nat} {there : Prop} (hmissing : missing ≠ 200)
    (hblank : Text.blank name = false) (hthere : there) : Answered 200 missing name there where
  found := ⟨fun _ => hthere, fun _ => rfl⟩
  nothing := ⟨fun h => absurd h.symm hmissing, fun h => absurd hthere h.2⟩
  failed := ⟨fun h => absurd h (by decide), fun h => by rw [hblank] at h; cases h⟩

theorem answered_of_missing {missing : Nat} {there : Prop} (hfound : missing ≠ 200)
    (hfailed : missing ≠ 500) (hblank : Text.blank name = false) (hthere : ¬ there) :
    Answered missing missing name there where
  found := ⟨fun h => absurd h hfound, fun h => absurd h hthere⟩
  nothing := ⟨fun _ => ⟨hblank, hthere⟩, fun _ => rfl⟩
  failed := ⟨fun h => absurd h hfailed, fun h => by rw [hblank] at h; cases h⟩

/-- A route that tries a question out answers when the question is answered. -/
theorem Access.outcome_tried {a : Access} {context : Value} (hcaller : a.caller = .resolved context)
    (haccepts : a.registry.Accepts a.interpretation context) (q : Query) (response : Response)
    (d : Directory) :
    ((a.authenticated >>= fun context => a.decide context q >>= fun _ =>
        (Pure.pure response : Handler Response)).run d).outcome =
      ((q.decide a.interpretation a.registry context).outcome.mapError Failure.fault).map
        fun _ => response := by
  rw [outcome_bind_of_ok (outcome_authenticated_of_accepts hcaller haccepts d), Access.decide]
  cases hdecide : (q.decide a.interpretation a.registry context).outcome with
  | ok answer =>
    rw [run_ofRun_bind hdecide]
    rfl
  | error e =>
    refine outcome_bind_of_error ?_ _
    rw [outcome_ofRun, hdecide]
    rfl

/-- **Trying a question out.**  The status of the response follows from what is found. -/
theorem answered_of_settled (hactive : c.status = .active) {q : Query}
    (hraises : q.raisesDenial = true) {there : Prop} (hthere : there → Text.blank name = false)
    (hfind : Settles (q.find .standard (Rulebook.registry logging) c.context
      (.text c.role.name)).outcome name there) {response : Response}
    (hresponse : response.status = 200) :
    Answered (statusOf (((q.decide .standard (Rulebook.registry logging)
      c.context).outcome.mapError Failure.fault).map fun _ => response)) 403 name there := by
  have hc : (Rulebook.registry logging).Accepts .standard c.context :=
    Rulebook.accepts_context_iff.mpr hactive
  have hsink := sinkWorks_registry logging
  have hrole : (contextRole? c.context).getD .null = .text c.role.name := by
    rw [Rulebook.contextRole?_context]
    rfl
  rw [← hrole] at hfind
  rcases hfind with ⟨hblank, flaw, herror⟩ | ⟨hblank, f, hf, hverdict⟩
  · rw [(decide_of_find_error hc herror).2]
    exact answered_of_blank (by decide) hblank fun h => by rw [hthere h] at hblank; cases hblank
  · cases hfound : f.verdict with
    | allow =>
      rw [(decide_ok_iff hsink hc).mpr ⟨f, hf, rfl, Or.inl hfound⟩]
      change Answered response.status 403 name there
      rw [hresponse]
      exact answered_of_there (by decide) hblank (hverdict.mp hfound)
    | deny =>
      rw [refused_of_denied hsink hc hf hfound hraises]
      change Answered 403 403 name there
      refine answered_of_missing (by decide) (by decide) hblank fun h => ?_
      rw [hverdict.mpr h] at hfound
      cases hfound

/-! ### Roles -/

/-- The report on a role of the application can be written. -/
theorem exists_reported (logging : Bool) (role : Role) :
    ∃ info v, (Rulebook.registry logging).roleInfo (.text role.name) = .ok (some info) ∧
      write (RoleReport.ofRoleInfo info) = .ok v := by
  have hindexed : (Rulebook.registry logging).indexed role.name = [Rulebook.userResource] := by
    have hlookup : (Rulebook.registry logging).index.lookup role.name =
        some [Rulebook.userResource] := by
      cases role <;> rfl
    rw [Registry.indexed, hlookup, Option.getD_some, List.mergeSort_singleton]
  have hinfo : (Rulebook.registry logging).roleInfo (.text role.name) =
      .ok (some
        ⟨role.name, role.definition, [(Rulebook.userResource, Rulebook.grantOf role)]⟩) := by
    have hgrants : (Rulebook.registry logging).grantsOf role.name [Rulebook.userResource] =
        [(Rulebook.userResource, Rulebook.grantOf role)] := by
      cases role <;> rfl
    have hrequired : Registry.requireRole (.text role.name) = .ok role.name := by
      cases role <;> rfl
    have hlookup : (Rulebook.registry logging).roles.lookup role.name = some role.definition := by
      cases role <;> rfl
    rw [Registry.roleInfo, hrequired, ok_bind, hlookup, hindexed, hgrants]
    rfl
  have hwritten : ∃ v, write (RoleReport.ofRoleInfo
      ⟨role.name, role.definition, [(Rulebook.userResource, Rulebook.grantOf role)]⟩) = .ok v := by
    cases role <;> exact ⟨_, rfl⟩
  obtain ⟨v, hv⟩ := hwritten
  exact ⟨_, v, hinfo, hv⟩

/-- A role that is registered is one of the application. -/
theorem exists_role_of_hasRole (h : (Rulebook.registry logging).hasRole name = true) :
    ∃ role : Role, role.name = name := by
  have hmem : name ∈ (Role.all.map fun r => (r.name, r.definition)).map Prod.fst :=
    isSome_lookup_iff.mp h
  rw [List.map_map, List.mem_map] at hmem
  obtain ⟨role, -, hrole⟩ := hmem
  exact ⟨role, hrole⟩

theorem blank_roleName (role : Role) : Text.blank role.name = false := by
  cases role <;> decide

theorem outcome_reported (report : Except RoleReport.Flaw Value) (d : Directory) :
    ((RegistryRoutes.reported report).run d).outcome =
      (write report).map fun v => Response.json 200 v := by
  rw [RegistryRoutes.reported]
  cases write report with
  | error e => rfl
  | ok v => rfl

/-- Showing a role comes to what the registry says about it. -/
theorem outcome_role (hactive : c.status = .active) (name : String) (d : Directory) :
    ((RegistryRoutes.role (access logging (.resolved c.context)) name).run d).outcome =
      match (Rulebook.registry logging).roleInfo (.text name) with
      | .error e => .error (.fault e)
      | .ok none => .error (.noRole name)
      | .ok (some info) =>
        (write (RoleReport.ofRoleInfo info)).map fun v => Response.json 200 v := by
  have hgate := Access.outcome_authenticated_of_accepts (a := access logging (.resolved c.context))
    rfl (Rulebook.accepts_context_iff.mpr hactive) d
  rw [RegistryRoutes.role, outcome_bind_of_ok hgate]
  have hregistry :
      (access logging (.resolved c.context)).registry = Rulebook.registry logging := rfl
  rw [hregistry]
  cases (Rulebook.registry logging).roleInfo (.text name) with
  | error e => rfl
  | ok found =>
    cases found with
    | none => rfl
    | some info => exact outcome_reported (RoleReport.ofRoleInfo info) _

/-- **Showing a role.**  The status of the response follows from the name. -/
theorem answered_of_role (hactive : c.status = .active) (name : String) (d : Directory) :
    Answered (statusOf ((RegistryRoutes.role (access logging (.resolved c.context)) name).run
      d).outcome) 404 name ((Rulebook.registry logging).hasRole name = true) := by
  rw [outcome_role hactive]
  by_cases hrole : (Rulebook.registry logging).hasRole name = true
  · obtain ⟨role, rfl⟩ := exists_role_of_hasRole hrole
    obtain ⟨info, v, hinfo, hv⟩ := exists_reported logging role
    simp only [hinfo, hv]
    exact answered_of_there (by decide) (blank_roleName role) hrole
  · cases hblank : Text.blank name with
    | true =>
      have herror : (Rulebook.registry logging).roleInfo (.text name) =
          .error (.config (.blank "Role identifier")) := by
        rw [Registry.roleInfo, Registry.requireRole, Registry.requireName, Value.name_text,
          Value.text?_text]
        simp only [if_pos hblank]
        rfl
      rw [herror]
      exact answered_of_blank (by decide) hblank hrole
    | false =>
      have hnone : (Rulebook.registry logging).roleInfo (.text name) = .ok none := by
        have hlookup : (Rulebook.registry logging).roles.lookup name = none := by
          cases hfound : (Rulebook.registry logging).roles.lookup name with
          | none => rfl
          | some definition =>
            rw [Registry.hasRole, hfound] at hrole
            exact absurd rfl hrole
        rw [Registry.roleInfo, Registry.requireRole, Registry.requireName_text hblank, ok_bind,
          hlookup]
        rfl
      rw [hnone]
      change Answered 404 404 name _
      exact answered_of_missing (by decide) (by decide) hblank hrole

/-! ## 3. The server -/

/-- An endpoint that takes no body is handled without one. -/
theorem Server.Running.status_of_unread (hs : s.Running settings accounts)
    (hr : r.MadeBy "GET" settings accounts c) {e : Endpoint} (hroute : Endpoint.route r = .ok e)
    (hbody : e.takesBody = false) :
    (s.serve .standard r).2.response.status =
      statusOf ((e.handleWith s.publishedRegistry (access settings.authzLogging
        (.resolved c.context)) r none).run s.directory).outcome := by
  obtain ⟨result, rfl, -, hstatus, -⟩ := hs.answers hr (by decide) hroute
  rw [hstatus, Endpoint.handle, if_neg (ne_true_of_eq_false hbody)]

/-- **Look-ups are answered**, unless the name is blank.  On a server over any accounts, for any
active caller and any segments in the path: trying out a permission, possibly through some levels,
comes to 200 when the caller's role holds it and to 403 when it does not; so does trying out a
relationship; a role is shown when it is registered and not found otherwise.  The status is 500
exactly when the name of the resource, or of the role, is blank. -/
theorem lookups_answered (hs : s.Running settings accounts)
    (hr : r.MadeBy "GET" settings accounts c) :
    (∀ resource action, IsSegment resource → IsSegment action →
      r.path = "/api/v1/authz/permissions/" ++ resource ++ "/" ++ action →
        Answered (s.serve .standard r).2.response.status 403 resource
          (c.role.Holds resource action (queryValues "access_level" r.query))) ∧
    (∀ resource relationship, IsSegment resource → IsSegment relationship →
      r.path = "/api/v1/authz/relationships/" ++ resource ++ "/" ++ relationship →
        Answered (s.serve .standard r).2.response.status 403 resource
          (c.role.HoldsRelationship resource relationship)) ∧
    ∀ name, IsSegment name → r.path = "/api/v1/authz/roles/" ++ name →
      Answered (s.serve .standard r).2.response.status 404 name
        (s.registry.hasRole name = true) := by
  have hc : (access settings.authzLogging (.resolved c.context)).registry.Accepts
      (access settings.authzLogging (.resolved c.context)).interpretation c.context :=
    Rulebook.accepts_context_iff.mpr hr.active
  have huser : Text.blank Rulebook.userResource = false := rfl
  refine ⟨?_, ?_, ?_⟩
  · intro resource action hresource haction hpath
    rw [hs.status_of_unread hr (Endpoint.route_tryPermission hr.method hresource haction hpath) rfl,
      Endpoint.handleWith, RegistryRoutes.permission, Access.outcome_tried rfl hc]
    have hsettled : Settles ((Query.permission (.text resource) (.text action)
        ((queryValues "access_level" r.query).map .text)).find .standard
          (Rulebook.registry settings.authzLogging) c.context (.text c.role.name)).outcome resource
        (c.role.Holds resource action (queryValues "access_level" r.query)) :=
      Rulebook.settles_answerPermission _ _ _ _ _
    exact answered_of_settled hr.active rfl (fun h => by rw [h.1]; exact huser) hsettled rfl
  · intro resource relationship hresource hheld hpath
    rw [hs.status_of_unread hr (Endpoint.route_tryRelationship hr.method hresource hheld hpath) rfl,
      Endpoint.handleWith, RegistryRoutes.relationship, Access.outcome_tried rfl hc]
    have hsettled : Settles ((Query.relationship (.text resource) (.text relationship)).find
        .standard (Rulebook.registry settings.authzLogging) c.context (.text c.role.name)).outcome
        resource (c.role.HoldsRelationship resource relationship) :=
      Rulebook.settles_answerRelationship _ _ _ _
    exact answered_of_settled hr.active rfl (fun h => by rw [h.1]; exact huser) hsettled rfl
  · intro name hname hpath
    rw [hs.status_of_unread hr (Endpoint.route_showRole hr.method hname hpath) rfl,
      Endpoint.handleWith, hs.registry_eq]
    exact answered_of_role hr.active name _

/-- A seller. -/
def vendor : Account :=
  ⟨"v1", .text "", .seller, Role.seller.rank, .active, .text "", []⟩

/-- A server with no other user than the seller. -/
def stall : Server :=
  ⟨seededSettings, ⟨[vendor.user]⟩, Rulebook.registry seededSettings.authzLogging, true⟩

/-- The seller looks something up. -/
def lookup (path query : String) : Request :=
  { requestBy "v1" "GET" path "" with query := query }

theorem running_stall : stall.Running seededSettings [vendor] :=
  ⟨rfl, rfl, rfl, rfl, List.nodup_singleton _⟩

theorem madeBy_lookup (path query : String) :
    (lookup path query).MadeBy "GET" seededSettings [vendor] vendor where
  method := rfl
  host := by
    have hhost : (lookup path query).host = (lookup "" "").host := rfl
    rw [hostAllowed, hhost]
    decide +kernel
  caller := by
    have hheader : (lookup path query).header? (Text.small seededSettings.identityHeader) =
        (lookup "" "").header? (Text.small seededSettings.identityHeader) := rfl
    rw [hheader]
    exact ⟨List.mem_singleton_self _, by decide, by decide +kernel⟩
  active := rfl

theorem isSegment_blank : IsSegment " " := ⟨by decide, by decide⟩

/-- The case of a seller, who may read through one level only, owns a user, is shown the role of an
agent, and gets no answer about a blank. -/
theorem lookups_answered_vendor :
    (stall.serve .standard (lookup "/api/v1/authz/permissions/User/READ"
        "access_level=OWN")).2.response.status = 200 ∧
      (stall.serve .standard (lookup "/api/v1/authz/relationships/User/OWNER"
        "")).2.response.status = 200 ∧
      (stall.serve .standard (lookup "/api/v1/authz/roles/AGENT" "")).2.response.status = 200 ∧
      (stall.serve .standard (lookup "/api/v1/authz/roles/ " "")).2.response.status = 500 := by
  have hanswers := fun path query => lookups_answered running_stall (madeBy_lookup path query)
  have hown : queryValues "access_level" "access_level=OWN" = ["OWN"] := by decide +kernel
  refine ⟨?_, ?_, ?_, ?_⟩
  · have hread := (hanswers "/api/v1/authz/permissions/User/READ" "access_level=OWN").1 "User"
      "READ" ⟨by decide, by decide⟩ ⟨by decide, by decide⟩ rfl
    refine hread.found.mpr ⟨rfl, .read, rfl, List.cons_ne_nil _ _, fun l hl => ?_⟩
    have hl' : l ∈ queryValues "access_level" "access_level=OWN" := hl
    rw [hown, List.mem_singleton] at hl'
    exact ⟨.own, List.mem_singleton_self _, hl'.symm⟩
  · have howner := (hanswers "/api/v1/authz/relationships/User/OWNER" "").2.1 "User" "OWNER"
      ⟨by decide, by decide⟩ ⟨by decide, by decide⟩ rfl
    exact howner.found.mpr ⟨rfl, List.mem_singleton_self _⟩
  · have hagent := (hanswers "/api/v1/authz/roles/AGENT" "").2.2 "AGENT" ⟨by decide, by decide⟩ rfl
    exact hagent.found.mpr rfl
  · have hblank := (hanswers "/api/v1/authz/roles/ " "").2.2 " " isSegment_blank rfl
    exact hblank.failed.mpr rfl

/-- A blank is a segment, and what an active caller asks about it gets no answer. -/
theorem unanswered_blank : IsSegment " " ∧
    (stall.serve .standard (lookup "/api/v1/authz/roles/ " "")).2.response.status = 500 ∧
    (stall.serve .standard (lookup "/api/v1/authz/permissions/ /READ" "")).2.response.status =
      500 := by
  refine ⟨isSegment_blank, ?_, ?_⟩
  · decide +kernel
  · decide +kernel

end Http

end AccessControl
