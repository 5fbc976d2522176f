import AccessControl.Http.Server
import AccessControl.Proofs.Http.Routes

/-!
# How a request is served

Around every handler there are layers that look the same for all of them: the host is checked, the
caller is resolved, the request is routed, its body is read, a failure is turned into a response,
headers are added, and the answer is logged.  A statement about responses would have to go through
all of them each time.  Here this is done once.

* `serve_eq_of_admits`: what is done about a request that is looked at, as a function of what its
  dispatch has come to.
* `serve_of_admits`: the directory that a served request leaves behind, the status of its response
  and what has happened are those of its dispatch, and one line of the log comes on top.
* `directory_serve_of_not_admits`: a request that is not even looked at changes nothing.
* `handle_cases`: the body of the request is read, or that is the end of it.

The status of a failure is the one that the client sees (`Failure.status`), so that a failure for
which there is no response has the status 500.
-/

namespace AccessControl.Http

open Handler

variable {r : Request} {d : Directory}

/-! ## 1. Statuses -/

/-- The status that the client sees for a failure. -/
def Failure.status (f : Failure) : Nat :=
  (f.response?.map Response.status).getD 500

/-- The status that the client sees for an outcome. -/
def statusOf : Except Failure Response → Nat
  | .ok response => response.status
  | .error f => f.status

/-- A question about origins is answered with one of two statuses. -/
theorem status_preflight (settings : Settings) (r : Request) :
    (preflight settings r).status = 200 ∨ (preflight settings r).status = 400 := by
  rw [preflight]
  split
  · exact Or.inl rfl
  · exact Or.inr rfl

/-! ## 2. Through the layers -/

namespace Server

variable {s : Server}

/-- The request is looked at: its host is allowed, and it is not a question about origins. -/
structure Admits (s : Server) (r : Request) : Prop where
  host : hostAllowed s.settings r = true
  request : isPreflight r = false

/-- What is answered to an outcome: a failure for which there is a response becomes this response,
and a response gets the headers for the origin of the request. -/
def answerTo (s : Server) (r : Request) : Except Failure Response → Except Failure Response
  | .ok response => .ok (response.forOrigin s.settings r)
  | .error f =>
    match f.response? with
    | some response => .ok (response.forOrigin s.settings r)
    | none => .error f

/-- A request that is looked at is dispatched, its failure is answered, and the headers for its
origin are added. -/
theorem respond_eq_of_admits (h : s.Admits r) (i : Interpretation) :
    s.respond i r = ((answered (s.dispatch i r)).bind fun response =>
      Handler.pure (response.forOrigin s.settings r)) := by
  rw [respond, h.host, h.request]
  rfl

/-- The layers around the dispatch change nothing but the outcome. -/
theorem run_respond (h : s.Admits r) (i : Interpretation) (d : Directory) :
    (s.respond i r).run d =
      ⟨((s.dispatch i r).run d).directory, ((s.dispatch i r).run d).events,
        s.answerTo r ((s.dispatch i r).run d).outcome⟩ := by
  rw [respond_eq_of_admits h, Handler.bind, run_settle, answered, run_settle]
  cases ((s.dispatch i r).run d).outcome with
  | ok response => simp [answerTo, Handler.pure]
  | error f => cases hresponse : f.response? <;> simp [answerTo, Handler.pure, fail, hresponse]

/-- A request that is looked at is concluded with what is answered. -/
theorem serve_eq_of_admits (h : s.Admits r) (i : Interpretation) :
    s.serve i r =
      ({ s with directory := ((s.dispatch i r).run s.directory).directory },
        s.conclude r ⟨((s.dispatch i r).run s.directory).directory,
          ((s.dispatch i r).run s.directory).events,
          s.answerTo r ((s.dispatch i r).run s.directory).outcome⟩) := by
  rw [serve, run_respond h]

/-- **A request that is looked at** is answered as it has been dispatched, and one line is
logged. -/
theorem serve_of_admits (h : s.Admits r) (i : Interpretation) :
    (s.serve i r).1.directory = ((s.dispatch i r).run s.directory).directory ∧
      (s.serve i r).2.response.status =
        statusOf ((s.dispatch i r).run s.directory).outcome ∧
      ∃ line : LogRecord, line.audit = none ∧ (s.serve i r).2.events =
        ((s.dispatch i r).run s.directory).events ++ [.logged line] := by
  rw [serve_eq_of_admits h]
  refine ⟨rfl, ?_⟩
  cases ((s.dispatch i r).run s.directory).outcome with
  | ok response => exact ⟨rfl, _, rfl, rfl⟩
  | error f =>
    rw [answerTo, statusOf, Failure.status]
    cases f.response? with
    | some response => exact ⟨rfl, _, rfl, rfl⟩
    | none => exact ⟨rfl, _, rfl, rfl⟩

/-- A request that is not looked at is answered at once. -/
theorem exists_respond_of_not_admits (h : ¬ s.Admits r) (i : Interpretation) :
    ∃ response, (response = wrongHost ∨ response = preflight s.settings r) ∧
      s.respond i r = Handler.pure response := by
  rw [respond]
  by_cases hhost : hostAllowed s.settings r = true
  · have hpreflight : isPreflight r = true := by
      rw [← Bool.not_eq_false]
      exact fun hrequest => h ⟨hhost, hrequest⟩
    rw [hhost, hpreflight]
    exact ⟨_, Or.inr rfl, rfl⟩
  · rw [Bool.not_eq_true] at hhost
    rw [hhost]
    exact ⟨_, Or.inl rfl, rfl⟩

/-- **A request that is not looked at** changes nothing, and one line is logged. -/
theorem serve_of_not_admits (h : ¬ s.Admits r) (i : Interpretation) :
    (s.serve i r).1.directory = s.directory ∧
      ((s.serve i r).2.response.status = 200 ∨ (s.serve i r).2.response.status = 400) ∧
      ∃ line : LogRecord, line.audit = none ∧ (s.serve i r).2.events = [.logged line] := by
  obtain ⟨response, hresponse, hrespond⟩ := exists_respond_of_not_admits h i
  rw [serve, hrespond]
  refine ⟨rfl, ?_, _, rfl, rfl⟩
  rcases hresponse with rfl | rfl
  · exact Or.inr rfl
  · exact status_preflight s.settings r

/-- A request that is not looked at leaves the directory as it is. -/
theorem directory_serve_of_not_admits (h : ¬ s.Admits r) (i : Interpretation) :
    (s.serve i r).1.directory = s.directory :=
  (serve_of_not_admits h i).1

end Server

/-! ## 3. From a request to its endpoint -/

/-- An endpoint is handled with the body of the request, unless it takes one that cannot be
read. -/
theorem Endpoint.handle_cases (published : Option Registry) (a : Access) (r : Request)
    (e : Endpoint) :
    (∃ body, e.handle published a r = e.handleWith published a r body) ∨
      ∃ f, e.takesBody = true ∧ r.readBody = .error f ∧
        e.handle published a r = Handler.fail f := by
  rw [Endpoint.handle]
  by_cases htakes : e.takesBody = true
  · rw [if_pos htakes]
    cases hbody : r.readBody with
    | ok body => exact Or.inl ⟨body, rfl⟩
    | error f => exact Or.inr ⟨f, htakes, rfl, rfl⟩
  · rw [if_neg htakes]
    exact Or.inl ⟨none, rfl⟩

end AccessControl.Http
