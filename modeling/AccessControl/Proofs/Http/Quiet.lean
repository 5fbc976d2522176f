import AccessControl.Http.Handler
import AccessControl.Proofs.Decision.Events

/-!
# Handlers that only look

Most of what is done about a request does not touch the directory: the caller is looked up,
decisions are made, records are shown.  Such a handler is *quiet*: whatever directory it is run
from, it leaves that directory behind.

## 1.  Running one handler after the other

`run_settle` says what it means to go on with an outcome: the second handler runs from the
directory that the first has left, and the events are put together.  The handler is a tree of
calls, so this is an induction over the tree.

## 2.  Quiet handlers

They are closed under everything that handlers are made with, so that a handler is seen to be
quiet by looking at its parts.  The one event that is not quiet is the eviction of a user by a
sink.

## 3.  Peeling

If a quiet handler is followed by another, and the directory has changed in the end, then the
first has succeeded and the second has changed the directory from where it was
(`Quiet.run_of_changed`).  This is how a change is traced back through all that came before it.

## 4.  Silent handlers

Handlers in which nothing is logged or recorded; the calls that they make may well write.
-/

namespace AccessControl

namespace Http.Handler

variable {α β : Type} {d : Directory}

/-! ## 1. Running one handler after the other -/

theorem run_settle (d : Directory) (h : Handler α) (f : Except Failure α → Handler β) :
    (h.settle f).run d =
      ⟨((f (h.run d).outcome).run (h.run d).directory).directory,
        (h.run d).events ++ ((f (h.run d).outcome).run (h.run d).directory).events,
        ((f (h.run d).outcome).run (h.run d).directory).outcome⟩ := by
  induction h generalizing d with
  | done outcome => rfl
  | emit events next ih =>
    rw [settle, run, ih, run]
    simp only [List.append_assoc]
  | call c next ih =>
    rw [settle, run]
    exact ih _ _

/-- What the engine does inside a handler. -/
theorem run_ofRun (d : Directory) (r : Run α) :
    (ofRun r).run d =
      ⟨afterEvents d r.events, r.events, r.outcome.mapError Failure.fault⟩ := by
  simp only [ofRun, run, List.append_nil]

theorem afterEvents_append (d : Directory) (events later : List Event) :
    afterEvents d (events ++ later) = afterEvents (afterEvents d events) later :=
  List.foldl_append

theorem run_ask (d : Directory) (c : Directory.Call) :
    (ask c).run d = ⟨(d.perform c).1, [], (d.perform c).2.mapError Failure.directory⟩ := rfl

theorem run_tryCall (d : Directory) (c : Directory.Call) :
    (tryCall c).run d = ⟨(d.perform c).1, [], .ok (d.perform c).2⟩ := rfl

theorem bind_eq (h : Handler α) (f : α → Handler β) : (h >>= f) = h.bind f := rfl

/-- After a result the second handler runs from the directory that the first has left. -/
theorem run_bind_of_ok {h : Handler α} {a : α} (ha : (h.run d).outcome = .ok a)
    (f : α → Handler β) :
    (h >>= f).run d =
      ⟨((f a).run (h.run d).directory).directory,
        (h.run d).events ++ ((f a).run (h.run d).directory).events,
        ((f a).run (h.run d).directory).outcome⟩ := by
  rw [bind_eq, bind, run_settle, ha]

/-- After a failure nothing else happens. -/
theorem run_bind_of_error {h : Handler α} {e : Failure} (he : (h.run d).outcome = .error e)
    (f : α → Handler β) :
    (h >>= f).run d = ⟨(h.run d).directory, (h.run d).events, .error e⟩ := by
  rw [bind_eq, bind, run_settle, he]
  simp only [fail, run_done, List.append_nil]

/-- After an answer of the engine the handler goes on from where the engine's events lead. -/
theorem run_ofRun_bind {r : Run α} {a : α} (ha : r.outcome = .ok a) (f : α → Handler β)
    (d : Directory) :
    (ofRun r >>= f).run d =
      ⟨((f a).run (afterEvents d r.events)).directory,
        r.events ++ ((f a).run (afterEvents d r.events)).events,
        ((f a).run (afterEvents d r.events)).outcome⟩ := by
  have hok : ((ofRun r).run d).outcome = .ok a := by
    rw [run_ofRun, ha]
    rfl
  rw [run_bind_of_ok hok, run_ofRun]

theorem directory_bind_of_ok {h : Handler α} {a : α} (ha : (h.run d).outcome = .ok a)
    (f : α → Handler β) :
    ((h >>= f).run d).directory = ((f a).run (h.run d).directory).directory := by
  rw [run_bind_of_ok ha]

theorem outcome_bind_of_ok {h : Handler α} {a : α} (ha : (h.run d).outcome = .ok a)
    (f : α → Handler β) :
    ((h >>= f).run d).outcome = ((f a).run (h.run d).directory).outcome := by
  rw [run_bind_of_ok ha]

theorem directory_bind_of_error {h : Handler α} {e : Failure} (he : (h.run d).outcome = .error e)
    (f : α → Handler β) : ((h >>= f).run d).directory = (h.run d).directory := by
  rw [run_bind_of_error he]

theorem outcome_bind_of_error {h : Handler α} {e : Failure} (he : (h.run d).outcome = .error e)
    (f : α → Handler β) : ((h >>= f).run d).outcome = .error e := by
  rw [run_bind_of_error he]

/-- A handler that comes to a result has come to one at its first step. -/
theorem exists_of_bind_ok {h : Handler α} {f : α → Handler β} {c : β}
    (hc : ((h >>= f).run d).outcome = .ok c) :
    ∃ b, (h.run d).outcome = .ok b ∧ ((f b).run (h.run d).directory).outcome = .ok c := by
  cases hb : (h.run d).outcome with
  | error e =>
    rw [outcome_bind_of_error hb] at hc
    cases hc
  | ok b =>
    rw [outcome_bind_of_ok hb] at hc
    exact ⟨b, rfl, hc⟩

/-! ## 2. Quiet handlers -/

/-- Whatever directory the handler is run from, it leaves that directory behind. -/
def Quiet (h : Handler α) : Prop :=
  ∀ d, (h.run d).directory = d

/-- Harmless events leave the directory as it is. -/
theorem afterEvents_of_harmless {events : List Event} (h : ∀ e ∈ events, e.Harmless) :
    afterEvents d events = d := by
  induction events with
  | nil => rfl
  | cons e rest ih =>
    rw [List.forall_mem_cons] at h
    have he : afterEvent d e = d := by
      cases e with
      | evicted userId => exact absurd h.1 id
      | _ => rfl
    rw [afterEvents, List.foldl_cons, he]
    exact ih h.2

theorem quiet_done (outcome : Except Failure α) : (done outcome).Quiet := fun _ => rfl

theorem quiet_pure (a : α) : (Pure.pure a : Handler α).Quiet := fun _ => rfl

theorem quiet_emit {events : List Event} {next : Handler α} (hevents : ∀ e ∈ events, e.Harmless)
    (hnext : next.Quiet) : (emit events next).Quiet := by
  intro d
  simp only [run, afterEvents_of_harmless hevents]
  exact hnext d

theorem run_ofRun_of_harmless {r : Run α} (h : ∀ e ∈ r.events, e.Harmless) :
    (ofRun r).run d = ⟨d, r.events, r.outcome.mapError Failure.fault⟩ := by
  rw [run_ofRun, afterEvents_of_harmless h]

/-- What the engine does is quiet if its events are. -/
theorem quiet_ofRun {r : Run α} (h : ∀ e ∈ r.events, e.Harmless) : (ofRun r).Quiet :=
  quiet_emit h (quiet_done _)

/-- A call that can only look is quiet if what comes after it is. -/
theorem quiet_call {c : Directory.Call} (hc : c.isRead = true)
    {next : Except DirectoryFault c.Answer → Handler α} (hnext : ∀ answer, (next answer).Quiet) :
    (call c next).Quiet := by
  intro d
  simp only [run, Directory.perform_of_isRead hc]
  exact hnext _ d

theorem quiet_settle {h : Handler α} {f : Except Failure α → Handler β} (hh : h.Quiet)
    (hf : ∀ outcome, (f outcome).Quiet) : (h.settle f).Quiet := by
  intro d
  rw [run_settle]
  simp only [hh d, hf _ d]

theorem quiet_bind {h : Handler α} {f : α → Handler β} (hh : h.Quiet) (hf : ∀ a, (f a).Quiet) :
    (h >>= f).Quiet := by
  refine quiet_settle hh fun outcome => ?_
  cases outcome with
  | error e => exact quiet_done _
  | ok a => exact hf a

theorem quiet_each {f : α → Handler β} (hf : ∀ a, (f a).Quiet) (items : List α) :
    (each f items).Quiet := by
  induction items with
  | nil => exact quiet_pure _
  | cons a rest ih => exact quiet_bind (hf a) fun _ => quiet_bind ih fun _ => quiet_pure _

/-- One quiet handler after the other, if their outcomes do not depend on the directory. -/
theorem outcome_each_of_quiet {f : α → Handler β} {g : α → Except Failure β}
    (hf : ∀ a, (f a).Quiet) (hg : ∀ a d, ((f a).run d).outcome = g a) (items : List α) :
    ((each f items).run d).outcome = items.mapM g := by
  induction items with
  | nil => rfl
  | cons a rest ih =>
    rw [List.mapM_cons, each]
    have hfirst := hg a d
    cases hga : g a with
    | error e =>
      rw [hga] at hfirst
      rw [outcome_bind_of_error hfirst, error_bind]
    | ok b =>
      rw [hga] at hfirst
      rw [outcome_bind_of_ok hfirst, hf a d, ok_bind]
      cases hrest : rest.mapM g with
      | error e => rw [outcome_bind_of_error (ih.trans hrest), error_bind]
      | ok bs =>
        rw [outcome_bind_of_ok (ih.trans hrest), ok_bind]
        rfl

theorem quiet_ofExcept (x : Except Failure α) : (ofExcept x).Quiet := quiet_done x

theorem quiet_ask {c : Directory.Call} (hc : c.isRead = true) : (ask c).Quiet :=
  quiet_call hc fun _ => quiet_done _

/-! ## 3. Peeling -/

/-- What follows quietly leaves the directory that was there before. -/
theorem directory_bind_of_quiet (h : Handler α) {f : α → Handler β} (hf : ∀ a, (f a).Quiet) :
    ((h >>= f).run d).directory = (h.run d).directory := by
  cases ha : (h.run d).outcome with
  | error e => rw [directory_bind_of_error ha]
  | ok a => rw [directory_bind_of_ok ha, hf a]

/-- If the directory has changed after a quiet handler, this handler has succeeded, and what follows
has been run from where it was. -/
theorem Quiet.run_of_changed {h : Handler α} {f : α → Handler β} (hh : h.Quiet)
    (hchanged : ((h >>= f).run d).directory ≠ d) :
    ∃ a, (h.run d).outcome = .ok a ∧
      (h >>= f).run d =
        ⟨((f a).run d).directory, (h.run d).events ++ ((f a).run d).events,
          ((f a).run d).outcome⟩ := by
  cases ha : (h.run d).outcome with
  | error e =>
    rw [directory_bind_of_error ha, hh d] at hchanged
    exact absurd rfl hchanged
  | ok a =>
    refine ⟨a, rfl, ?_⟩
    rw [run_bind_of_ok ha, hh d]

/-- If there is a result after a quiet handler, this handler has succeeded, and what follows has
been run from where it was. -/
theorem Quiet.run_of_ok {h : Handler α} {f : α → Handler β} {b : β} (hh : h.Quiet)
    (hb : ((h >>= f).run d).outcome = .ok b) :
    ∃ a, (h.run d).outcome = .ok a ∧
      (h >>= f).run d =
        ⟨((f a).run d).directory, (h.run d).events ++ ((f a).run d).events,
          ((f a).run d).outcome⟩ := by
  cases ha : (h.run d).outcome with
  | error e =>
    rw [outcome_bind_of_error ha] at hb
    cases hb
  | ok a =>
    refine ⟨a, rfl, ?_⟩
    rw [run_bind_of_ok ha, hh d]

/-- A result after a quiet handler comes from what follows it. -/
theorem Quiet.exists_of_ok {h : Handler α} {f : α → Handler β} {b : β} (hh : h.Quiet)
    (hb : ((h >>= f).run d).outcome = .ok b) :
    ∃ a, (h.run d).outcome = .ok a ∧ ((f a).run d).outcome = .ok b := by
  obtain ⟨a, ha, hrun⟩ := hh.run_of_ok hb
  rw [hrun] at hb
  exact ⟨a, ha, hb⟩

/-! ## 4. Silent handlers -/

/-- Nothing happens beside calls: nothing is logged or recorded. -/
def Silent (h : Handler α) : Prop :=
  ∀ d, (h.run d).events = []

theorem silent_done (outcome : Except Failure α) : (done outcome).Silent := fun _ => rfl

theorem silent_ask (c : Directory.Call) : (ask c).Silent := fun _ => rfl

theorem silent_tryCall (c : Directory.Call) : (tryCall c).Silent := fun _ => rfl

theorem silent_bind {h : Handler α} {f : α → Handler β} (hh : h.Silent) (hf : ∀ a, (f a).Silent) :
    (h >>= f).Silent := by
  intro d
  cases ha : (h.run d).outcome with
  | error e => rw [run_bind_of_error ha, hh d]
  | ok a => rw [run_bind_of_ok ha, hh d, hf a, List.append_nil]

end Http.Handler

end AccessControl
