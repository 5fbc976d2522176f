import AccessControl.Proofs.Http.Authentication
import AccessControl.Proofs.Http.Entitlement
import AccessControl.Proofs.Http.Paths

/-!
# Create, read, remove

A super admin creates a user, and the response shows the user under its id.  One would go on with
this id: read the user, remove it, and find that it is gone.  This takes that every id which a body
may give can be put into a path, and the two are laid down in different places: a body is stripped
of white space and counted, while a path is cut at its slashes and compared with fixed words.

## Where they differ

Of the ids that a body may give two kinds are not ids for the routes: `me`, which stands for the
caller, and whatever has a slash in it.  `round_trip_iff` says that these are all.  A user with the
id `me` can be removed, but who asks for it is shown the own record, before and after; a user with a
slash in the id can neither be read nor removed.

## Why the status of the creation is enough

Nothing is assumed about the body but that the status of the response was 201.  That the user is
there afterwards follows, because every failure of the route has a status of at least 400, so it has
come to its end (`ends_create`), and then each of its steps has succeeded (`created_of_ok`).
-/

namespace AccessControl

/-! ## 1. Ids that a body gives -/

namespace Text

/-- A text that has been stripped does not end in a character that is stripped. -/
theorem not_of_trimBy_eq {p : Char → Bool} {s : String} {cs : List Char} {c : Char}
    (h : (trimBy p s).toList = cs ++ [c]) : p c = false := by
  rw [trimBy, String.toList_ofList, trimList] at h
  have hhead : ((s.toList.dropWhile p).reverse.dropWhile p) = c :: cs.reverse := by
    rw [← List.reverse_reverse (List.dropWhile _ _), h]
    simp
  have hnot := List.head?_dropWhile_not p (s.toList.dropWhile p).reverse
  rw [hhead] at hnot
  simpa using hnot

end Text

namespace Http

open Handler

namespace UserBody

/-- A text that is read has been stripped, and is not too short. -/
theorem exists_of_readText {place : List Place} {least most : Nat} {v : Value} {s : String}
    (h : readText place least most v = .ok s) :
    ∃ given, s = Text.trimBy Text.isWhite given ∧ least ≤ s.length := by
  rw [readText] at h
  obtain ⟨given, -, h⟩ := bind_eq_ok_iff.mp h
  simp only at h
  split at h
  · cases h
  · rename_i hleast
    split at h
    · cases h
    · cases h
      exact ⟨given, rfl, Nat.le_of_not_lt hleast⟩

/-- **The id of a user to be created** is not empty, and it is the word `me` if a path that ends in
it does. -/
theorem userId_of_read {body : Option Value} {new : NewUser}
    (h : UserBody.read readNewUser body = .ok new) :
    new.userId ≠ "" ∧ (Endpoint.endsIn "me" new.userId = true ↔ new.userId = "me") := by
  have hread : ∃ place v, readText place 1 64 v = .ok new.userId := by
    unfold UserBody.read at h
    split at h
    · cases h
    · rename_i fields
      have hfields := mapError_eq_ok_iff.mp h
      rw [readNewUser] at hfields
      obtain ⟨withName, assigned, hnamed, -, rfl⟩ := Checked.also_eq_ok_iff.mp hfields
      obtain ⟨withRole, displayName, hroled, -, rfl⟩ := Checked.also_eq_ok_iff.mp hnamed
      obtain ⟨withEmail, role, haddressed, -, rfl⟩ := Checked.also_eq_ok_iff.mp hroled
      obtain ⟨withId, email, hidentified, -, rfl⟩ := Checked.also_eq_ok_iff.mp haddressed
      obtain ⟨userId, huserId, rfl⟩ := map_eq_ok_iff.mp hidentified
      rw [required] at huserId
      cases hfound : Value.find? (.text "user_id") fields with
      | none =>
        rw [hfound] at huserId
        cases huserId
      | some v =>
        rw [hfound] at huserId
        exact ⟨_, v, huserId⟩
    · cases h
  obtain ⟨place, v, hread⟩ := hread
  obtain ⟨given, hgiven, hleast⟩ := exists_of_readText hread
  refine ⟨fun hempty => ?_, ?_⟩
  · rw [hempty] at hleast
    exact absurd hleast (by decide)
  · rw [Endpoint.endsIn, Bool.or_eq_true, beq_iff_eq, beq_iff_eq]
    refine or_iff_left fun hline => ?_
    have hlast : (Text.trimBy Text.isWhite given).toList = ['m', 'e'] ++ ['\n'] := by
      rw [← hgiven, hline]
      rfl
    exact absurd (Text.not_of_trimBy_eq hlast) (by decide)

end UserBody

/-! ## 2. What a creation has come to -/

variable {settings : Settings} {accounts before after : List Account} {c t : Account} {s : Server}
  {r : Request} {d : Directory} {logging : Bool} {body : Option Value} {response : Response}

/-- The failure is shown as an error. -/
def Failure.Refuses (f : Failure) : Prop :=
  400 ≤ f.status

theorem Handler.Ends.failsWith {α : Type} {P : Failure → Prop} {Q : α → Prop} {h : Handler α}
    (hh : h.Ends P Q) (d : Directory) : FailsWith P (h.run d).outcome := by
  intro f hf
  have hd := hh d
  rw [hf] at hd
  exact hd

namespace Access

theorem failsWith_decide_refuses (hactive : c.status = .active) (q : Query) (d : Directory) :
    FailsWith Failure.Refuses
      (((access logging (.resolved c.context)).decide c.context q).run d).outcome := by
  refine failsWith_ofRun (fun e he => ?_) d
  rcases decide_error (sinkWorks_registry logging) (Rulebook.accepts_context_iff.mpr hactive) e he
    with htechnical | ⟨record, rfl⟩
  · rw [Failure.Refuses, Failure.status_of_technical htechnical]
    decide
  · exact (by decide : 400 ≤ 403)

theorem ends_permitted (hactive : c.status = .active) (action : UserAction) :
    ((access logging (.resolved c.context)).permitted action).Ends Failure.Refuses
      (fun context => context = c.context) := by
  refine ends_bind (fun d => ?_) fun d context hcontext => ?_
  · rw [outcome_authenticated hactive d]
    exact failsWith_ok _
  · rw [outcome_authenticated hactive d] at hcontext
    cases hcontext
    exact ends_bind (failsWith_decide_refuses hactive _) fun _ _ _ _ => rfl

theorem ends_may (hactive : c.status = .active) (action : UserAction) (u : User) :
    ((access logging (.resolved c.context)).may c.context action u).Ends Failure.Refuses
      (fun _ => True) :=
  ends_bind (failsWith_decide_refuses hactive _) fun _ _ _ _ => trivial

end Access

namespace UserRoutes

theorem ends_checkAssigned (hactive : c.status = .active) (ids : List String) :
    (checkAssigned (access logging (.resolved c.context)) c.context ids).Ends Failure.Refuses
      (fun _ => True) := by
  induction ids with
  | nil => exact fun _ => trivial
  | cons id rest ih =>
    refine ends_bind (fun _ => failsWith_mapError fun _ _ => (by decide : 400 ≤ 500)) ?_
    intro _ found _
    cases found with
    | none => exact fun _ => (by decide : 400 ≤ 422)
    | some u => exact ends_bind (Access.ends_may hactive _ _).failsWith fun _ _ _ => ih

theorem ends_add (id : String) (u : User) :
    (add id u).Ends Failure.Refuses (fun _ => True) := by
  refine ends_bind (fun _ => failsWith_ok _) fun _ answer _ => ?_
  split
  · exact fun _ => trivial
  · exact fun _ => (by decide : 400 ≤ 409)
  · exact fun _ => (by decide : 400 ≤ 500)

theorem ends_shown (status : Nat) (u : User) :
    (shown status u).Ends Failure.Refuses (fun _ => True) :=
  ends_bind (fun _ => failsWith_mapError fun _ _ => (by decide : 400 ≤ 500)) fun _ _ _ _ => trivial

/-- **No failure of a creation** has a status like that of a success. -/
theorem ends_create (hactive : c.status = .active) (body : Option Value) :
    (create (access logging (.resolved c.context)) body).Ends Failure.Refuses (fun _ => True) := by
  refine ends_bind (Access.ends_permitted hactive _).failsWith fun d context hcontext => ?_
  have hcaller : context = c.context := by
    have hpermitted := @Access.ends_permitted c logging hactive .create d
    rw [hcontext] at hpermitted
    exact hpermitted
  rw [hcaller]
  refine ends_bind (fun _ => failsWith_read_of (fun _ => (by decide : 400 ≤ 422)) _ _) ?_
  intro _ new _
  refine ends_bind (Access.ends_may hactive _ _).failsWith fun _ _ _ => ?_
  refine ends_bind (ends_checkAssigned hactive _).failsWith fun _ _ _ => ?_
  exact ends_bind (ends_add _ _).failsWith fun _ _ _ => ends_shown _ _

/-- A user that has been added is in the directory that is left. -/
theorem add_of_ok {id : String} {u : User} (h : ((add id u).run d).outcome = .ok ()) :
    d.add u = .ok ((add id u).run d).directory := by
  rw [directory_add, Directory.perform]
  cases hadd : d.add u with
  | ok next => rfl
  | error e =>
    have htried : ((tryCall (.add u)).run d).outcome = .ok (.error e) := by
      rw [run_tryCall, Directory.perform, hadd]
    rw [add, outcome_bind_of_ok htried] at h
    cases e <;> cases h

/-- **A creation that has come to its end** has read a user from the body, has added it and shows
it. -/
theorem created_of_ok {a : Access} (ha : a.Harmless)
    (h : ((create a body).run d).outcome = .ok response) :
    ∃ new v, UserBody.read UserBody.readNewUser body = .ok new ∧
      d.add new.user = .ok ((create a body).run d).directory ∧ present new.user = .ok v ∧
      response = Response.json 201 v := by
  rw [create] at h ⊢
  obtain ⟨context, -, hrun⟩ := (Access.quiet_permitted ha .create).run_of_ok h
  simp only [hrun] at h ⊢
  obtain ⟨new, hnew, hrun⟩ := (quiet_ofExcept _).run_of_ok h
  simp only [hrun] at h ⊢
  obtain ⟨⟨⟩, -, hrun⟩ := (Access.quiet_may ha _ _ _).run_of_ok h
  simp only [hrun] at h ⊢
  obtain ⟨⟨⟩, -, hrun⟩ := (quiet_checkAssigned ha _ _).run_of_ok h
  simp only [hrun] at h ⊢
  cases hadded : ((add new.userId new.user).run d).outcome with
  | error f =>
    rw [outcome_bind_of_error hadded] at h
    cases h
  | ok u =>
    rw [outcome_bind_of_ok hadded, outcome_shown] at h
    obtain ⟨v, hv, rfl⟩ := map_eq_ok_iff.mp h
    rw [directory_bind_of_quiet _ fun _ => quiet_shown _ _]
    exact ⟨new, v, hnew, add_of_ok hadded, hv, rfl⟩

end UserRoutes

/-! ## 3. Requests -/

/-- The response shows a record with this id. -/
def Response.ShowsId (response : Response) (id : String) : Prop :=
  ∃ entries, response.content = .json (.map entries) ∧
    Value.find? (.text "user_id") entries = some (.text id)

/-- The response is what comes of showing an account. -/
structure Response.Presents (response : Response) (t : Account) : Prop where
  status : response.status = statusOf ((present t.user).map (Response.json 200))
  content : ∀ v, present t.user = .ok v → response.content = .json v

/-- An account is shown with its id first. -/
theorem exists_entries_of_present {v : Value} (h : present t.user = .ok v) :
    ∃ entries, v = .map entries ∧
      Value.find? (.text "user_id") entries = some (.text t.userId) := by
  obtain ⟨entries, hall, rfl⟩ := map_eq_ok_iff.mp (mapError_eq_ok_iff.mp h)
  rw [Checked.all, Checked.also_eq_ok_iff] at hall
  obtain ⟨g, rest, hfirst, -, rfl⟩ := hall
  cases hfirst
  exact ⟨_, rfl, rfl⟩

/-- What comes of showing an account is never that there is none. -/
theorem Response.Presents.status_cases (h : response.Presents t) :
    response.status = 200 ∨ response.status = 500 := by
  have hfails : FailsWith (fun f => f.status = 500) (present t.user) :=
    failsWith_mapError fun _ _ => rfl
  rw [h.status]
  cases hshown : present t.user with
  | ok v => exact Or.inl rfl
  | error f => exact Or.inr (hfails f hshown)

namespace Server

variable {method : String} {e : Endpoint} {id : String}

/-- **A creation** that is answered with 201 has added an account, and shows it. -/
theorem Running.created (hs : s.Running settings accounts)
    (hr : r.MadeBy "POST" settings accounts c) (hpath : r.path = "/api/v1/users")
    (hstatus : (s.serve .standard r).2.response.status = 201) :
    ∃ (new : NewUser) (v : Value),
      (s.serve .standard r).1.Running settings (accounts ++ [new.account]) ∧
      (∀ b ∈ accounts, b.userId ≠ new.userId) ∧ new.userId ≠ "" ∧
      (Endpoint.endsIn "me" new.userId = true ↔ new.userId = "me") ∧
      present new.account.user = .ok v ∧ (s.serve .standard r).2.response.content = .json v := by
  obtain ⟨result, hresult, hserver, hserved, hcontent⟩ :=
    hs.answers hr (by decide) (Endpoint.route_createUser hr.method hpath)
  rw [hserved] at hstatus
  have ha := harmless_access settings.authzLogging (.resolved c.context)
  rcases Endpoint.createUser.handle_cases s.publishedRegistry
    (access settings.authzLogging (.resolved c.context)) r with
    ⟨body, hhandle⟩ | ⟨f, -, hf, hhandle⟩
  · rw [hhandle, Endpoint.handleWith] at hresult
    rw [hresult] at hserver hstatus hcontent
    cases houtcome : ((UserRoutes.create (access settings.authzLogging (.resolved c.context))
      body).run s.directory).outcome with
    | error f =>
      have hrefuses := (UserRoutes.ends_create hr.active body).failsWith _ f houtcome
      rw [houtcome] at hstatus
      exact absurd (hstatus ▸ hrefuses : 400 ≤ 201) (by decide)
    | ok response =>
      obtain ⟨new, v, hnew, hadd, hv, rfl⟩ := UserRoutes.created_of_ok ha houtcome
      obtain ⟨hfresh, hholds⟩ := Directory.holds_of_add (a := new.account) hs.holds hadd
      obtain ⟨hid, hme⟩ := UserBody.userId_of_read hnew
      refine ⟨new, v, ?_, hfresh, hid, hme, hv, hcontent _ houtcome⟩
      rw [hserver]
      exact ⟨hs.settings_eq, hs.registry_eq, hs.published_eq, hholds⟩
  · have hrefuses := r.failsWith_readBody_of (P := Failure.Refuses) (by decide : 400 ≤ 400)
      (fun _ => (by decide : 400 ≤ 422)) f hf
    rw [hresult, hhandle] at hstatus
    exact absurd (hstatus ▸ hrefuses : 400 ≤ 201) (by decide)

/-- A request at an endpoint that only looks leaves the server as it is. -/
theorem Running.presents (hs : s.Running settings accounts)
    (hr : r.MadeBy "GET" settings accounts c) (hroute : Endpoint.route r = .ok e)
    (hwrites : e.writes = false) (hbody : e.takesBody = false)
    (houtcome : ((e.handleWith s.publishedRegistry (access settings.authzLogging
      (.resolved c.context)) r none).run s.directory).outcome =
        (present t.user).map (Response.json 200)) :
    (s.serve .standard r).1 = s ∧ (s.serve .standard r).2.response.Presents t := by
  obtain ⟨result, hresult, hserver, hstatus, hcontent⟩ := hs.answers hr (by decide) hroute
  rw [Endpoint.handle, if_neg (ne_true_of_eq_false hbody)] at hresult
  have hquiet := Endpoint.quiet_handleWith (harmless_access settings.authzLogging
    (.resolved c.context)) s.publishedRegistry r none hwrites s.directory
  rw [hresult] at hserver hstatus hcontent
  rw [hquiet] at hserver
  refine ⟨hserver, ?_, fun v hv => ?_⟩
  · rw [hstatus, houtcome]
  · rw [hv] at houtcome
    exact hcontent _ houtcome

variable {id : String}

/-- **Reading a user** under an id that is a segment and not the word for the caller. -/
theorem Running.read_presents (hs : s.Running settings accounts)
    (hr : r.MadeBy "GET" settings accounts c) (hpath : r.path = "/api/v1/users/" ++ t.userId)
    (hid : IsSegment t.userId) (hme : Endpoint.endsIn "me" t.userId = false)
    (ht : t ∈ accounts) (hmay : c.May .read t) :
    (s.serve .standard r).1 = s ∧ (s.serve .standard r).2.response.Presents t :=
  hs.presents hr (Endpoint.route_readUser hr.method hid hme hpath) rfl rfl
    (UserRoutes.outcome_read_of_mem hr.active hs.holds ht hid.nonempty hmay)

/-- **Reading under the word for the caller** shows the caller's own record. -/
theorem Running.me_presents (hs : s.Running settings accounts)
    (hr : r.MadeBy "GET" settings accounts c) (hpath : r.path = "/api/v1/users/" ++ "me")
    (hmay : c.May .read c) :
    (s.serve .standard r).1 = s ∧ (s.serve .standard r).2.response.Presents c :=
  hs.presents hr (Endpoint.route_ownRecord hr.method hpath) rfl rfl
    (UserRoutes.outcome_me hr.active hs.holds hr.caller.1 hr.caller.2.1 hmay)

/-- **Reading a user that is not there.** -/
theorem Running.read_missing (hs : s.Running settings accounts)
    (hr : r.MadeBy "GET" settings accounts c) (hpath : r.path = "/api/v1/users/" ++ id)
    (hid : IsSegment id) (hme : Endpoint.endsIn "me" id = false)
    (hfree : ∀ b ∈ accounts, b.userId ≠ id) (hne : Rulebook.levelsOf c.role .read ≠ []) :
    (s.serve .standard r).2.response.status = 404 := by
  obtain ⟨result, rfl, -, hstatus, -⟩ :=
    hs.answers hr (by decide) (Endpoint.route_readUser hr.method hid hme hpath)
  have hmissing : (((Endpoint.readUser id).handle s.publishedRegistry (access settings.authzLogging
      (.resolved c.context)) r).run s.directory).outcome = .error (.noUser (.text id)) :=
    UserRoutes.outcome_read_of_free hr.active hs.holds hfree hid.nonempty hne
  rw [hstatus, hmissing]
  rfl

/-- **Removing a user** under an id that is a segment. -/
theorem Running.remove_removes (hs : s.Running settings (before ++ t :: after))
    (hr : r.MadeBy "DELETE" settings (before ++ t :: after) c)
    (hpath : r.path = "/api/v1/users/" ++ t.userId) (hid : IsSegment t.userId)
    (hmay : c.May .delete t) :
    (s.serve .standard r).1.Running settings (before ++ after) ∧
      (s.serve .standard r).2.response.status = 204 := by
  obtain ⟨result, hresult, hserver, hstatus, -⟩ :=
    hs.answers hr (by decide) (Endpoint.route_removeUser hr.method hid hpath)
  have hremoved : result.directory = (s.directory.remove (.text t.userId)).1 ∧
      result.outcome = .ok ⟨204, [], .empty⟩ := by
    rw [hresult]
    exact UserRoutes.run_remove_of_mem hr.active hs.holds (by simp) hid.nonempty hmay
  rw [hserver, hstatus, hremoved.2]
  refine ⟨⟨hs.settings_eq, hs.registry_eq, hs.published_eq, ?_⟩, rfl⟩
  rw [hremoved.1]
  exact Directory.holds_of_remove hs.holds

/-- A request below the users for an id with a slash in it leads nowhere. -/
theorem Running.slash_unrouted (hs : s.Running settings accounts)
    (hr : r.MadeBy method settings accounts c) (hmethod : method ≠ "OPTIONS")
    (hpath : r.path = "/api/v1/users/" ++ id) (hslash : '/' ∈ id.toList) :
    (s.serve .standard r).1 = s ∧ ((s.serve .standard r).2.response.status = 307 ∨
      (s.serve .standard r).2.response.status = 404) := by
  obtain ⟨response, hroute, hstatus⟩ := Endpoint.status_of_slash hslash hpath
  obtain ⟨hserver, hserved⟩ := hs.answers_unrouted (hs.admits hr hmethod) hroute
  rw [hserved]
  exact ⟨hserver, hstatus⟩

end Server

theorem Request.MadeBy.append {method : String} (hr : r.MadeBy method settings accounts c)
    (added : List Account) : r.MadeBy method settings (accounts ++ added) c :=
  ⟨hr.method, hr.host, ⟨List.mem_append_left _ hr.caller.1, hr.caller.2⟩, hr.active⟩

/-! ## 4. The round trip -/

/-- What has been created is read as it has been shown, and once it has been removed it is gone. -/
structure RoundTrip (s : Server) (created : Response) (read remove : Request) : Prop where
  found : (s.serve .standard read).2.response.status = 200
  same : (s.serve .standard read).2.response.content = created.content
  removed : ((s.serve .standard read).1.serve .standard remove).2.response.status = 204
  gone : (((s.serve .standard read).1.serve .standard remove).1.serve .standard
    read).2.response.status = 404

/-- Who asks for what has been created is shown the own record, before it is removed and after. -/
structure ShownOwn (s : Server) (c : Account) (read remove : Request) : Prop where
  before : (s.serve .standard read).2.response.Presents c
  removed : ((s.serve .standard read).1.serve .standard remove).2.response.status = 204
  after : (((s.serve .standard read).1.serve .standard remove).1.serve .standard
    read).2.response.Presents c

/-- What has been created is found neither for reading nor for removing. -/
structure Unreachable (s : Server) (read remove : Request) : Prop where
  unread : (s.serve .standard read).2.response.status = 307 ∨
    (s.serve .standard read).2.response.status = 404
  unremoved : ((s.serve .standard read).1.serve .standard remove).2.response.status = 307 ∨
    ((s.serve .standard read).1.serve .standard remove).2.response.status = 404

variable {read remove : Request} {created : Response}

theorem ShownOwn.not_roundTrip (h : ShownOwn s c read remove) :
    ¬ RoundTrip s created read remove := by
  intro htrip
  rcases h.after.status_cases with hstatus | hstatus
  · rw [htrip.gone] at hstatus
    cases hstatus
  · rw [htrip.gone] at hstatus
    cases hstatus

theorem Unreachable.not_roundTrip (h : Unreachable s read remove) :
    ¬ RoundTrip s created read remove := by
  intro htrip
  rcases h.unread with hstatus | hstatus
  · rw [htrip.found] at hstatus
    cases hstatus
  · rw [htrip.found] at hstatus
    cases hstatus

namespace Server

section Created

variable (hs : s.Running settings (accounts ++ [t]))
  (hread : read.MadeBy "GET" settings accounts c)
  (hremove : remove.MadeBy "DELETE" settings accounts c)
  (hreadPath : read.path = "/api/v1/users/" ++ t.userId)
  (hremovePath : remove.path = "/api/v1/users/" ++ t.userId)

include hs hread hremove hreadPath hremovePath

/-- An account at the end is read and removed under an id that is a segment and not the word for
the caller. -/
theorem Running.roundTrip_of_segment (hrole : c.role = .superAdmin) (hid : IsSegment t.userId)
    (hme : Endpoint.endsIn "me" t.userId = false) (hfresh : ∀ b ∈ accounts, b.userId ≠ t.userId)
    {v : Value} (hv : present t.user = .ok v) (hcreated : created.content = .json v) :
    RoundTrip s created read remove := by
  have hmay := Rulebook.may_superAdmin hrole
  obtain ⟨hserver, hshown⟩ :=
    hs.read_presents (hread.append [t]) hreadPath hid hme (by simp) (hmay .read t)
  obtain ⟨hs', hremoved⟩ :=
    hs.remove_removes (hremove.append [t]) hremovePath hid (hmay .delete t)
  rw [List.append_nil] at hs'
  have hne : Rulebook.levelsOf c.role .read ≠ [] := (hmay .read t).levels_ne_nil
  refine ⟨?_, ?_, ?_, ?_⟩
  · rw [hshown.status, hv]
    rfl
  · rw [hshown.content v hv, hcreated]
  · rw [hserver, hremoved]
  · rw [hserver]
    exact hs'.read_missing hread hreadPath hid hme hfresh hne

/-- An account at the end whose id is the word for the caller is not read, though it is removed. -/
theorem Running.shownOwn_of_me (hrole : c.role = .superAdmin) (hme : t.userId = "me") :
    ShownOwn s c read remove := by
  have hmay := Rulebook.may_superAdmin hrole
  have hid : IsSegment t.userId := by
    rw [hme]
    exact ⟨by decide, by decide⟩
  have hown : read.path = "/api/v1/users/" ++ "me" := by rw [hreadPath, hme]
  obtain ⟨hserver, hshown⟩ := hs.me_presents (hread.append [t]) hown (hmay .read c)
  obtain ⟨hs', hremoved⟩ :=
    hs.remove_removes (hremove.append [t]) hremovePath hid (hmay .delete t)
  rw [List.append_nil] at hs'
  refine ⟨hshown, ?_, ?_⟩
  · rw [hserver, hremoved]
  · rw [hserver]
    exact (hs'.me_presents hread hown (hmay .read c)).2

/-- An account whose id has a slash in it is not found. -/
theorem Running.unreachable_of_slash (hslash : '/' ∈ t.userId.toList) :
    Unreachable s read remove := by
  obtain ⟨hserver, hstatus⟩ :=
    hs.slash_unrouted (hread.append [t]) (by decide) hreadPath hslash
  refine ⟨hstatus, ?_⟩
  rw [hserver]
  exact (hs.slash_unrouted (hremove.append [t]) (by decide) hremovePath hslash).2

end Created

end Server

/-- **The round trip.**  Take any seed that a server can be started with, let the server serve any
requests, and then a request of an active super admin to create a user.  If it is answered with
201, the response shows an id, and for whatever request of the same caller to read, and to remove,
the user under this id:

* the user is read exactly as it has been shown, it is removed, and then it is gone, if and only if
  the id is not `me` and there is no slash in it;
* if the id is `me`, the caller's own record is shown instead, and it still is when the user has
  been removed;
* if there is a slash in the id, the user is not found at all. -/
theorem round_trip_iff {location : String} {contents : Option (List UInt8)}
    (hstart : (Server.start settings location contents).2 = .ok s) (requests : List Request)
    {create : Request}
    (hcreate : create.MadeBy "POST" settings (s.accountsAfter requests) c)
    (hrole : c.role = .superAdmin) (hpath : create.path = "/api/v1/users")
    (hstatus : ((s.serveAll .standard requests).serve .standard create).2.response.status = 201) :
    ∃ id, ((s.serveAll .standard requests).serve .standard create).2.response.ShowsId id ∧
      ∀ read remove : Request, read.MadeBy "GET" settings (s.accountsAfter requests) c →
        remove.MadeBy "DELETE" settings (s.accountsAfter requests) c →
        read.path = "/api/v1/users/" ++ id → remove.path = "/api/v1/users/" ++ id →
        (RoundTrip ((s.serveAll .standard requests).serve .standard create).1
            ((s.serveAll .standard requests).serve .standard create).2.response read remove ↔
          id ≠ "me" ∧ '/' ∉ id.toList) ∧
        (id = "me" →
          ShownOwn ((s.serveAll .standard requests).serve .standard create).1 c read remove) ∧
        ('/' ∈ id.toList →
          Unreachable ((s.serveAll .standard requests).serve .standard create).1 read remove) := by
  obtain ⟨seeded, hseeded⟩ := Server.exists_running_of_start hstart
  have hs := hseeded.serveAll requests
  obtain ⟨new, v, hs', hfresh, hid, hends, hv, hcontent⟩ := hs.created hcreate hpath hstatus
  obtain ⟨entries, rfl, hfound⟩ := exists_entries_of_present hv
  refine ⟨new.userId, ⟨entries, hcontent, hfound⟩, ?_⟩
  intro read remove hread hremove hreadPath hremovePath
  have hown : new.userId = "me" → _ := fun hme =>
    hs'.shownOwn_of_me hread hremove hreadPath hremovePath hrole hme
  have hslashed : '/' ∈ new.userId.toList → _ := fun hslash =>
    hs'.unreachable_of_slash hread hremove hreadPath hremovePath hslash
  refine ⟨⟨fun htrip => ⟨fun hme => ?_, fun hslash => ?_⟩, ?_⟩, hown, hslashed⟩
  · exact (hown hme).not_roundTrip htrip
  · exact (hslashed hslash).not_roundTrip htrip
  · rintro ⟨hme, hslash⟩
    have hword : Endpoint.endsIn "me" new.userId = false :=
      Bool.eq_false_iff.mpr fun h => hme (hends.mp h)
    exact hs'.roundTrip_of_segment hread hremove hreadPath hremovePath hrole ⟨hid, hslash⟩ hword
      hfresh hv hcontent

/-- A seed with a super admin. -/
def founderSeed : List UInt8 :=
  "[\x7b\"user_id\":\"s1\",\"role\":\"SUPER_ADMIN\"\x7d]".toUTF8.toList

/-- The super admin creates an agent with an id. -/
def founding (id : String) : Request :=
  requestBy "s1" "POST" "/api/v1/users"
    ("\x7b\"user_id\":\"" ++ id ++ "\",\"email\":\"u@localhost\",\"role\":\"AGENT\"\x7d")

/-- The super admin asks for the user with an id. -/
def visiting (id : String) : Request := requestBy "s1" "GET" ("/api/v1/users/" ++ id) ""

/-- The super admin removes the user with an id. -/
def dismissing (id : String) : Request := requestBy "s1" "DELETE" ("/api/v1/users/" ++ id) ""

/-- The id in a response that shows a record. -/
def Response.shownId? (response : Response) : Option String :=
  match response.content with
  | .json (.map entries) => (Value.find? (.text "user_id") entries).bind Value.text?
  | _ => none

/-- The case of an agent, who is created, read and removed. -/
theorem round_trip_iff_agent :
    ∃ s c, (Server.start seededSettings "users.json" (some founderSeed)).2 = .ok s ∧
      (founding "g1").MadeBy "POST" seededSettings (s.accountsAfter []) c ∧
      (visiting "g1").MadeBy "GET" seededSettings (s.accountsAfter []) c ∧
      (dismissing "g1").MadeBy "DELETE" seededSettings (s.accountsAfter []) c ∧
      c.role = .superAdmin ∧ (s.serve .standard (founding "g1")).2.response.status = 201 ∧
      RoundTrip (s.serve .standard (founding "g1")).1
        (s.serve .standard (founding "g1")).2.response (visiting "g1") (dismissing "g1") := by
  have htested : (Server.start seededSettings "users.json" (some founderSeed)).2.toOption.any
      (fun s =>
        ((s.accountsAfter []).map fun a => (a.userId, a.role, a.status)) ==
          [("s1", .superAdmin, .active)] &&
        (s.serve .standard (founding "g1")).2.response.status == 201 &&
        (s.serve .standard (founding "g1")).2.response.shownId? == some "g1") = true := by
    decide +kernel
  obtain ⟨s, hstart, htested⟩ := exists_ok_of_any htested
  simp only [Bool.and_eq_true, beq_iff_eq] at htested
  obtain ⟨⟨haccounts, hstatus⟩, hshown⟩ := htested
  obtain ⟨c, hc, hfields⟩ := List.map_eq_singleton_iff.mp haccounts
  simp only [Prod.mk.injEq] at hfields
  obtain ⟨hid, hrole, hactive⟩ := hfields
  have hcaller : c ∈ s.accountsAfter [] ∧ c.userId ≠ "" := by
    rw [hc, hid]
    exact ⟨List.mem_singleton_self _, by decide⟩
  have hcreate : (founding "g1").MadeBy "POST" seededSettings (s.accountsAfter []) c :=
    ⟨rfl, by decide +kernel, ⟨hcaller.1, hcaller.2, by rw [hid]; decide +kernel⟩, hactive⟩
  have hread : (visiting "g1").MadeBy "GET" seededSettings (s.accountsAfter []) c :=
    ⟨rfl, by decide +kernel, ⟨hcaller.1, hcaller.2, by rw [hid]; decide +kernel⟩, hactive⟩
  have hremove : (dismissing "g1").MadeBy "DELETE" seededSettings (s.accountsAfter []) c :=
    ⟨rfl, by decide +kernel, ⟨hcaller.1, hcaller.2, by rw [hid]; decide +kernel⟩, hactive⟩
  obtain ⟨id, ⟨entries, hcontent, hfound⟩, htrip⟩ :=
    round_trip_iff hstart [] hcreate hrole rfl hstatus
  have hcontent' : (s.serve .standard (founding "g1")).2.response.content =
      .json (.map entries) := hcontent
  have hsame : id = "g1" := by
    rw [Response.shownId?, hcontent'] at hshown
    simp only [hfound] at hshown
    exact Option.some.inj hshown
  subst hsame
  refine ⟨s, c, hstart, hcreate, hread, hremove, hrole, hstatus, ?_⟩
  exact (htrip (visiting "g1") (dismissing "g1") hread hremove rfl rfl).1.mpr
    ⟨by decide, by decide⟩

/-- **Users that cannot be read back.**  A user with the id `me` is created, and who asks for it is
shown another record, even when it has been removed; a user with a slash in the id is not found. -/
theorem not_round_trip :
    ∃ s, (Server.start seededSettings "users.json" (some founderSeed)).2 = .ok s ∧
      (s.serve .standard (founding "me")).2.response.status = 201 ∧
      (s.serve .standard (founding "me")).2.response.shownId? = some "me" ∧
      ((s.serve .standard (founding "me")).1.serve .standard
        (visiting "me")).2.response.shownId? = some "s1" ∧
      ¬ RoundTrip (s.serve .standard (founding "me")).1
        (s.serve .standard (founding "me")).2.response (visiting "me") (dismissing "me") ∧
      (s.serve .standard (founding "a/b")).2.response.status = 201 ∧
      (s.serve .standard (founding "a/b")).2.response.shownId? = some "a/b" ∧
      ¬ RoundTrip (s.serve .standard (founding "a/b")).1
        (s.serve .standard (founding "a/b")).2.response (visiting "a/b") (dismissing "a/b") := by
  have htested : (Server.start seededSettings "users.json" (some founderSeed)).2.toOption.any
      (fun s =>
        (s.serve .standard (founding "me")).2.response.status == 201 &&
        (s.serve .standard (founding "me")).2.response.shownId? == some "me" &&
        ((s.serve .standard (founding "me")).1.serve .standard
          (visiting "me")).2.response.shownId? == some "s1" &&
        (s.serve .standard (founding "a/b")).2.response.status == 201 &&
        (s.serve .standard (founding "a/b")).2.response.shownId? == some "a/b" &&
        ((s.serve .standard (founding "a/b")).1.serve .standard
          (visiting "a/b")).2.response.status == 404) = true := by
    decide +kernel
  obtain ⟨s, hstart, htested⟩ := exists_ok_of_any htested
  simp only [Bool.and_eq_true, beq_iff_eq] at htested
  obtain ⟨⟨⟨⟨⟨hcreated, hme⟩, hown⟩, hslashed⟩, hshown⟩, hmissing⟩ := htested
  refine ⟨s, hstart, hcreated, hme, hown, fun htrip => ?_, hslashed, hshown, fun htrip => ?_⟩
  · rw [Response.shownId?, htrip.same, ← Response.shownId?, hme] at hown
    exact absurd (Option.some.inj hown) (by decide)
  · rw [htrip.found] at hmissing
    cases hmissing

end Http

end AccessControl
