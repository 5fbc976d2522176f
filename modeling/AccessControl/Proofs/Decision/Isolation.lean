import AccessControl.Decision
import AccessControl.Scope
import Mathlib.Data.List.Basic

/-!
# Threads do not see each other's contexts

Any number of threads share one variable for the context, one registry and one service.  A thread
opens scopes one within the other, leaves them normally or by an error, looks up the context and
asks for decisions; what it does next may depend on what it has been told.  The steps of the threads
interleave in any order, and a decision is no single step: the context is read, and then one event
after the other takes place while other threads go on.

Nevertheless a thread sees what it would see if it were alone, `isolated`: the context that it finds
is that of the innermost scope that it has not left, and its decisions, its errors and its records
are those of a run without any other thread.

## Two readings of a thread

The machine looks for no scope.  It has the variable, and for each open scope a token that holds
the value from before.  Against this stands the reading of a thread as a text, `Activity.meaning`:
here the context is an argument that is handed down into the body of a scope and to nowhere else, so
that there is nothing to restore.  The two readings agree because the tokens of the open scopes lead
back from the value of the variable, one context at a time, to a variable that is not set
(`Nested`).  This is also what keeps the threads apart: a token can only be given back to the thread
that it came from.

What the machine is to one of its threads is a `Scope`: the variable, and the tokens of the scopes
that are open.  A step of the thread enters a scope, leaves the innermost one, or leaves all as it
is (`Thread.scope_step`).
-/

namespace AccessControl

/-! ## 1. Threads -/

/-- A call of the service. -/
inductive ServiceCall
  | hasPermission (resource action filter : Value)
  | query (q : Query)
  /-- Does the context count? -/
  | authenticate

/-- What a call of the service returns. -/
inductive ServiceReply
  | answered (a : Answer)
  | authenticated (context : Value)

/-- The call with a given context. -/
def ServiceCall.run (i : Interpretation) (r : Registry) (context : Value) :
    ServiceCall → Run ServiceReply
  | hasPermission resource action filter =>
    (AccessControl.hasPermission i r context resource action filter).bind fun a =>
      Run.pure (.answered a)
  | query q => (q.decide i r context).bind fun a => Run.pure (.answered a)
  | authenticate =>
    (AccessControl.authenticate i r context).bind fun c => Run.pure (.authenticated c)

/-- What can be seen of a thread. -/
inductive Observation
  /-- This context was looked up. -/
  | got (context : Value)
  /-- This took place during a decision; records are among it. -/
  | event (e : Event)
  /-- A decision came to this result, or raised this error. -/
  | replied (outcome : Except Fault ServiceReply)

/-- What is seen of a decision. -/
def Run.observations (run : Run ServiceReply) : List Observation :=
  run.events.map .event ++ [.replied run.outcome]

/-- What a thread does. -/
inductive Activity
  /-- It comes to its end, normally or by an error. -/
  | done (how : Except Fault Unit)
  /-- It looks up the context. -/
  | get (next : Value → Activity)
  /-- It asks for a decision; an error that is raised may be caught. -/
  | ask (call : ServiceCall) (next : Except Fault ServiceReply → Activity)
  /-- It does something within a scope of its own, and then goes on; an error that left the scope
  may be caught or passed on. -/
  | within (context : Value) (body : Activity) (next : Except Fault Unit → Activity)

/-- A scope that is open, and what comes after it.  Its context is kept for the statements; the
machine goes by the token alone. -/
structure Frame where
  context : Value
  token : RequestContext.Token
  next : Except Fault Unit → Activity

/-- A thread that is under way. -/
structure Thread where
  /-- What has been decided but cannot be seen yet. -/
  pending : List Observation
  activity : Activity
  /-- The open scopes, the innermost first. -/
  frames : List Frame

/-- The context of the innermost scope; nothing if none is open. -/
def innermost (scopes : List Value) : Value :=
  scopes.headD .null

namespace Thread

/-- A thread that begins. -/
def begin (a : Activity) : Thread := ⟨[], a, []⟩

/-- The contexts of the open scopes, the innermost first. -/
def scopes (th : Thread) : List Value :=
  th.frames.map Frame.context

/-- One step: the variable and the thread afterwards, and what is seen. -/
def step (i : Interpretation) (r : Registry) (id : Nat) (c : RequestContext) :
    Thread → RequestContext × Thread × List Observation
  | ⟨o :: rest, activity, frames⟩ => (c, ⟨rest, activity, frames⟩, [o])
  | ⟨[], .get next, frames⟩ => (c, ⟨[], next (c.get id), frames⟩, [.got (c.get id)])
  | ⟨[], .ask call next, frames⟩ =>
    let run := call.run i r (c.get id)
    (c, ⟨run.observations, next run.outcome, frames⟩, [])
  | ⟨[], .within context body next, frames⟩ =>
    let bound := c.set id context
    (bound.1, ⟨[], body, ⟨context, bound.2, next⟩ :: frames⟩, [])
  | ⟨[], .done how, frame :: frames⟩ => (c.reset frame.token, ⟨[], frame.next how, frames⟩, [])
  | ⟨[], .done how, []⟩ => (c, ⟨[], .done how, []⟩, [])

/-- Some steps, while no other thread uses the variable. -/
def run (i : Interpretation) (r : Registry) (id : Nat) :
    Nat → RequestContext → Thread → RequestContext × Thread × List Observation
  | 0, c, th => (c, th, [])
  | n + 1, c, th =>
    let moved := th.step i r id c
    let after := run i r id n moved.1 moved.2.1
    (after.1, after.2.1, moved.2.2 ++ after.2.2)

end Thread

/-- Threads that share the variable, and what has been seen so far of which thread. -/
structure System where
  context : RequestContext
  threads : Nat → Thread
  trace : List (Nat × Observation)

namespace System

/-- All threads begin, and nothing is bound in any. -/
def start (activities : Nat → Activity) : System :=
  ⟨.unset, fun id => .begin (activities id), []⟩

/-- One thread takes a step. -/
def step (i : Interpretation) (r : Registry) (s : System) (id : Nat) : System :=
  let moved := (s.threads id).step i r id s.context
  ⟨moved.1, fun t => if t = id then moved.2.1 else s.threads t,
    s.trace ++ moved.2.2.map (id, ·)⟩

/-- The threads take steps in the order of a schedule. -/
def run (i : Interpretation) (r : Registry) (s : System) (schedule : List Nat) : System :=
  schedule.foldl (step i r) s

/-- What has been seen of one thread. -/
def seenBy (s : System) (id : Nat) : List Observation :=
  s.trace.filterMap fun seen => if seen.1 = id then some seen.2 else none

end System

/-! ## 2. The meaning of an activity -/

namespace Activity

/-- An activity read as a text: what is seen of it within some scopes, and how it ends. -/
def meaning (i : Interpretation) (r : Registry) :
    Activity → List Value → List Observation × Except Fault Unit
  | done how, _ => ([], how)
  | get next, scopes =>
    let after := (next (innermost scopes)).meaning i r scopes
    (.got (innermost scopes) :: after.1, after.2)
  | ask call next, scopes =>
    let run := call.run i r (innermost scopes)
    let after := (next run.outcome).meaning i r scopes
    (run.observations ++ after.1, after.2)
  | within context body next, scopes =>
    let inside := body.meaning i r (context :: scopes)
    let after := (next inside.2).meaning i r scopes
    (inside.1 ++ after.1, after.2)

/-- The meaning of an activity together with what comes after the open scopes. -/
def meaningIn (i : Interpretation) (r : Registry) (a : Activity) :
    List Frame → List Observation × Except Fault Unit
  | [] => a.meaning i r []
  | frame :: frames =>
    let inside := a.meaning i r ((frame :: frames).map Frame.context)
    let after := (frame.next inside.2).meaningIn i r frames
    (inside.1 ++ after.1, after.2)

end Activity

/-- What is still to be seen of a thread, and how it will end. -/
def Thread.future (i : Interpretation) (r : Registry) (th : Thread) :
    List Observation × Except Fault Unit :=
  let after := th.activity.meaningIn i r th.frames
  (th.pending ++ after.1, after.2)

/-! ## 3. Tokens -/

/-- The tokens of the open scopes of a thread lead from the value of its variable, by way of
the contexts of all the scopes, to a variable that is not set. -/
def Nested (id : Nat) : Option Value → List Frame → Prop
  | value, [] => value = none
  | value, frame :: frames =>
    value = some frame.context ∧ frame.token.thread = id ∧ Nested id frame.token.previous frames

section

variable {i : Interpretation} {r : Registry} {id other : Nat} {c c' : RequestContext} {th : Thread}

/-- **The variable holds the innermost context.** -/
theorem get_of_nested (h : Nested id (c.values id) th.frames) :
    c.get id = innermost th.scopes := by
  obtain ⟨pending, activity, frames⟩ := th
  cases frames with
  | nil =>
    have hvalue : c.values id = none := h
    rw [RequestContext.get, hvalue]
    rfl
  | cons frame rest =>
    have hvalue : c.values id = some frame.context := h.1
    rw [RequestContext.get, hvalue]
    rfl

namespace Thread

/-- The scope that a thread is in: the variable as the thread uses it, with the tokens of the scopes
that are open. -/
def scope (id : Nat) (c : RequestContext) (th : Thread) : Scope :=
  ⟨c, id, th.frames.map Frame.token⟩

/-- What the next step of a thread does with its scope. -/
def rescope : Thread → Scope → Scope
  | ⟨[], .within context _ _, _⟩, s => s.enter context
  | ⟨[], .done _, _⟩, s => s.leave
  | _, s => s

/-- **A step of a thread is a step of its scope.** -/
theorem scope_step :
    (th.step i r id c).2.1.scope id (th.step i r id c).1 = th.rescope (th.scope id c) := by
  obtain ⟨pending, activity, frames⟩ := th
  cases pending with
  | cons o rest => rfl
  | nil =>
    cases activity with
    | done how => cases frames <;> rfl
    | _ => rfl

/-- The context that counts in the scope of a thread is that of the innermost scope that is open. -/
theorem current_scope (h : Nested id (c.values id) th.frames) :
    (th.scope id c).current = innermost th.scopes :=
  get_of_nested h

variable (i r th) in
/-- Nestedness is kept by a step. -/
theorem nested_step (h : Nested id (c.values id) th.frames) :
    Nested id ((th.step i r id c).1.values id) (th.step i r id c).2.1.frames := by
  obtain ⟨pending, activity, frames⟩ := th
  cases pending with
  | cons o rest => exact h
  | nil =>
    cases activity with
    | get next => exact h
    | ask call next => exact h
    | within context body next =>
      refine ⟨?_, rfl, h⟩
      simp only [step, RequestContext.set, RequestContext.values_put_self]
    | done how =>
      cases frames with
      | nil => exact h
      | cons frame rest =>
        obtain ⟨-, hthread, hrest⟩ := h
        simpa only [step, RequestContext.reset, hthread, RequestContext.values_put_self] using hrest

/-- **A step does not reach another thread.** -/
theorem values_step_of_ne (h : Nested id (c.values id) th.frames) (hne : other ≠ id) :
    (th.step i r id c).1.values other = c.values other := by
  obtain ⟨pending, activity, frames⟩ := th
  cases pending with
  | cons o rest => rfl
  | nil =>
    cases activity with
    | get next => rfl
    | ask call next => rfl
    | within context body next => exact RequestContext.values_put_of_ne hne _
    | done how =>
      cases frames with
      | nil => rfl
      | cons frame rest =>
        have hthread : frame.token.thread = id := h.2.1
        exact RequestContext.values_put_of_ne (by rwa [hthread]) _

/-- **A step depends on the value in its own thread only.** -/
theorem step_congr (h : Nested id (c.values id) th.frames)
    (hvalue : c.values id = c'.values id) :
    (th.step i r id c).2 = (th.step i r id c').2 ∧
      (th.step i r id c).1.values id = (th.step i r id c').1.values id := by
  have hget : c.get id = c'.get id := by rw [RequestContext.get, hvalue, RequestContext.get]
  obtain ⟨pending, activity, frames⟩ := th
  cases pending with
  | cons o rest => exact ⟨rfl, hvalue⟩
  | nil =>
    cases activity with
    | get next => exact ⟨by simp only [step, hget], hvalue⟩
    | ask call next => exact ⟨by simp only [step, hget], hvalue⟩
    | within context body next =>
      simp only [step, RequestContext.set, hvalue, RequestContext.values_put_self, and_self]
    | done how =>
      cases frames with
      | nil => exact ⟨rfl, hvalue⟩
      | cons frame rest =>
        have hthread : frame.token.thread = id := h.2.1
        refine ⟨rfl, ?_⟩
        simp only [step, RequestContext.reset, hthread, RequestContext.values_put_self]

end Thread

/-! ## 4. The machine runs the text -/

/-- With the scopes at hand, an activity that looks no further ends where the text does. -/
theorem Activity.meaningIn_done (how : Except Fault Unit) (frame : Frame) (frames : List Frame) :
    (Activity.done how).meaningIn i r (frame :: frames) =
      (frame.next how).meaningIn i r frames := by
  simp only [meaningIn, meaning, List.nil_append]

theorem Activity.meaningIn_get (next : Value → Activity) (frames : List Frame) :
    (Activity.get next).meaningIn i r frames =
      let context := innermost (frames.map Frame.context)
      (.got context :: ((next context).meaningIn i r frames).1,
        ((next context).meaningIn i r frames).2) := by
  cases frames with
  | nil => rfl
  | cons frame rest => rfl

theorem Activity.meaningIn_ask (call : ServiceCall)
    (next : Except Fault ServiceReply → Activity) (frames : List Frame) :
    (Activity.ask call next).meaningIn i r frames =
      let run := call.run i r (innermost (frames.map Frame.context))
      (run.observations ++ ((next run.outcome).meaningIn i r frames).1,
        ((next run.outcome).meaningIn i r frames).2) := by
  cases frames with
  | nil => rfl
  | cons frame rest => simp only [meaningIn, meaning, List.append_assoc]

theorem Activity.meaningIn_within (context : Value) (body : Activity)
    (next : Except Fault Unit → Activity) (token : RequestContext.Token) (frames : List Frame) :
    (Activity.within context body next).meaningIn i r frames =
      body.meaningIn i r (⟨context, token, next⟩ :: frames) := by
  cases frames with
  | nil => rfl
  | cons frame rest => simp only [meaningIn, meaning, List.map_cons, List.append_assoc]

/-- **One step** shows the next part of what is to be seen. -/
theorem Thread.future_step (h : Nested id (c.values id) th.frames) :
    th.future i r =
      ((th.step i r id c).2.2 ++ ((th.step i r id c).2.1.future i r).1,
        ((th.step i r id c).2.1.future i r).2) := by
  have hget := get_of_nested h
  obtain ⟨pending, activity, frames⟩ := th
  cases pending with
  | cons o rest => rfl
  | nil =>
    cases activity with
    | get next =>
      simp only [step, future, List.nil_append, Activity.meaningIn_get, hget, scopes]
      rfl
    | ask call next =>
      simp only [step, future, List.nil_append, Activity.meaningIn_ask, hget, scopes]
    | within context body next =>
      simp only [step, future, List.nil_append,
        Activity.meaningIn_within context body next (c.set id context).2]
    | done how =>
      cases frames with
      | nil => rfl
      | cons frame rest => simp only [step, future, List.nil_append, Activity.meaningIn_done]

variable (i r id c th) in
/-- **Several steps** show the beginning of what is to be seen. -/
theorem Thread.future_run (n : Nat) (h : Nested id (c.values id) th.frames) :
    th.future i r =
      ((th.run i r id n c).2.2 ++ ((th.run i r id n c).2.1.future i r).1,
        ((th.run i r id n c).2.1.future i r).2) := by
  induction n generalizing c th with
  | zero => rfl
  | succ n ih =>
    rw [future_step h, ih _ _ (nested_step i r th h), Thread.run]
    simp only [List.append_assoc]

/-! ## 5. Every thread comes to its end -/

theorem Thread.nested_run (n : Nat) (h : Nested id (c.values id) th.frames) :
    Nested id ((th.run i r id n c).1.values id) (th.run i r id n c).2.1.frames := by
  induction n generalizing c th with
  | zero => exact h
  | succ n ih => exact ih (nested_step i r th h)

/-- A thread that has come to its end stays there. -/
theorem Thread.run_of_le {m n : Nat} {how : Except Fault Unit} {seen : List Observation}
    (h : th.run i r id m c = (c', ⟨[], .done how, []⟩, seen)) (hle : m ≤ n) :
    th.run i r id n c = (c', ⟨[], .done how, []⟩, seen) := by
  induction n generalizing m c th seen with
  | zero =>
    obtain rfl : m = 0 := Nat.le_zero.mp hle
    exact h
  | succ n ih =>
    cases m with
    | zero =>
      cases h
      rw [run, step, ih (m := 0) rfl (Nat.zero_le n), List.nil_append]
    | succ m =>
      simp only [run, Prod.mk.injEq] at h
      rw [run, ih (Prod.ext h.1 (Prod.ext h.2.1 rfl)) (Nat.le_of_succ_le_succ hle), ← h.2.2]

namespace Thread

/-- Some steps lead from one state of the thread and its variable to another. -/
def Reaches (i : Interpretation) (r : Registry) (id : Nat) (c : RequestContext) (th : Thread)
    (c' : RequestContext) (th' : Thread) : Prop :=
  ∃ n seen, th.run i r id n c = (c', th', seen)

variable {th' th'' : Thread} {c'' : RequestContext}

theorem Reaches.refl : Reaches i r id c th c th := ⟨0, [], rfl⟩

theorem Reaches.after_step
    (h : Reaches i r id (th.step i r id c).1 (th.step i r id c).2.1 c' th') :
    Reaches i r id c th c' th' := by
  obtain ⟨n, seen, hrun⟩ := h
  exact ⟨n + 1, (th.step i r id c).2.2 ++ seen, by rw [run, hrun]⟩

theorem Reaches.trans (h : Reaches i r id c th c' th') (h' : Reaches i r id c' th' c'' th'') :
    Reaches i r id c th c'' th'' := by
  obtain ⟨n, seen, hrun⟩ := h
  induction n generalizing c th seen with
  | zero =>
    cases hrun
    exact h'
  | succ n ih =>
    simp only [run, Prod.mk.injEq] at hrun
    exact (ih _ (Prod.ext hrun.1 (Prod.ext hrun.2.1 rfl))).after_step

theorem Reaches.nested (h : Reaches i r id c th c' th') (hc : Nested id (c.values id) th.frames) :
    Nested id (c'.values id) th'.frames := by
  obtain ⟨n, seen, hrun⟩ := h
  have hn := nested_run (i := i) (r := r) n hc
  rwa [hrun] at hn

/-- What has been decided is seen, one event after the other. -/
theorem reaches_of_pending (pending : List Observation) (a : Activity) (frames : List Frame) :
    Reaches i r id c ⟨pending, a, frames⟩ c ⟨[], a, frames⟩ := by
  induction pending with
  | nil => exact .refl
  | cons o rest ih => exact .after_step ih

variable (i r id c) in
/-- **Whatever is done within some scopes comes to its end there**: the scopes that were opened on
the way have all been left. -/
theorem exists_reaches_done (a : Activity) (frames : List Frame)
    (h : Nested id (c.values id) frames) :
    ∃ c' how, Reaches i r id c ⟨[], a, frames⟩ c' ⟨[], .done how, frames⟩ := by
  induction a generalizing c frames with
  | done how => exact ⟨c, how, .refl⟩
  | get next ih =>
    obtain ⟨c', how, hdone⟩ := ih (c.get id) c frames h
    exact ⟨c', how, .after_step hdone⟩
  | ask call next ih =>
    obtain ⟨c', how, hdone⟩ := ih (call.run i r (c.get id)).outcome c frames h
    exact ⟨c', how, .after_step ((reaches_of_pending _ _ _).trans hdone)⟩
  | within context body next ihbody ihnext =>
    let frame : Frame := ⟨context, (c.set id context).2, next⟩
    have hopened : Nested id ((c.set id context).1.values id) (frame :: frames) :=
      nested_step i r ⟨[], .within context body next, frames⟩ h
    obtain ⟨inside, how, hbody⟩ := ihbody _ (frame :: frames) hopened
    -- The scope is left in one more step, with the error if there is one.
    have hleft : Nested id ((inside.reset frame.token).values id) frames :=
      nested_step i r ⟨[], .done how, frame :: frames⟩ (hbody.nested hopened)
    obtain ⟨c', how', hnext⟩ := ihnext how _ frames hleft
    exact ⟨c', how', .after_step (hbody.trans (.after_step hnext))⟩

end Thread

/-! ## 6. Many threads -/

end

namespace System

variable {i : Interpretation} {r : Registry} {s : System} {id other : Nat} {c : RequestContext}

/-- The scopes of all threads are nested. -/
def Sound (s : System) : Prop :=
  ∀ id, Nested id (s.context.values id) (s.threads id).frames

theorem sound_start (activities : Nat → Activity) : (start activities).Sound :=
  fun _ => rfl

theorem threads_step_self :
    (s.step i r id).threads id = ((s.threads id).step i r id s.context).2.1 := if_pos rfl

theorem threads_step_of_ne (hne : other ≠ id) :
    (s.step i r id).threads other = s.threads other := if_neg hne

theorem seenBy_step_self :
    (s.step i r id).seenBy id = s.seenBy id ++ ((s.threads id).step i r id s.context).2.2 := by
  simp [seenBy, step, List.filterMap_append, List.filterMap_map]

theorem seenBy_step_of_ne (hne : other ≠ id) : (s.step i r id).seenBy other = s.seenBy other := by
  simp [seenBy, step, List.filterMap_append, List.filterMap_map, hne.symm]

/-- Soundness is kept by a step. -/
theorem Sound.step (h : s.Sound) (id : Nat) : (s.step i r id).Sound := by
  intro t
  rcases eq_or_ne t id with rfl | hne
  · rw [threads_step_self]
    exact Thread.nested_step i r _ (h t)
  · rw [threads_step_of_ne hne]
    have hvalue := Thread.values_step_of_ne (i := i) (r := r) (h id) hne
    change Nested t (((s.threads id).step i r id s.context).1.values t) _
    rw [hvalue]
    exact h t

/-- Soundness is kept along every schedule. -/
theorem Sound.run (h : s.Sound) (schedule : List Nat) : (s.run i r schedule).Sound := by
  induction schedule generalizing s with
  | nil => exact h
  | cons t rest ih => exact ih (h.step t)

/-- **In a schedule a thread goes through its own steps**, whatever the others do in between. -/
theorem run_eq_alone (id : Nat) (h : s.Sound) (schedule : List Nat)
    (hvalue : c.values id = s.context.values id) :
    let after := s.run i r schedule
    let alone := (s.threads id).run i r id (schedule.count id) c
    alone.1.values id = after.context.values id ∧ after.threads id = alone.2.1 ∧
      after.seenBy id = s.seenBy id ++ alone.2.2 := by
  induction schedule generalizing s c with
  | nil => exact ⟨hvalue, rfl, (List.append_nil _).symm⟩
  | cons t rest ih =>
    rcases eq_or_ne t id with rfl | hne
    · obtain ⟨hsame, hsamevalue⟩ := Thread.step_congr (i := i) (r := r)
        (by rw [hvalue]; exact h t) hvalue
      obtain ⟨hv, hth, hseen⟩ := ih (h.step t) (c := ((s.threads t).step i r t c).1) hsamevalue
      rw [List.count_cons_self, Thread.run]
      rw [threads_step_self, ← hsame] at hv hth hseen
      refine ⟨hv, hth, ?_⟩
      rw [seenBy_step_self, ← hsame, List.append_assoc] at hseen
      exact hseen
    · have hother := Thread.values_step_of_ne (i := i) (r := r) (h t) hne.symm
      obtain ⟨hv, hth, hseen⟩ := ih (h.step t) (c := c) (hvalue.trans hother.symm)
      rw [List.count_cons_of_ne hne]
      rw [threads_step_of_ne hne.symm] at hv hth hseen
      refine ⟨hv, hth, ?_⟩
      rw [seenBy_step_of_ne hne.symm] at hseen
      exact hseen

end System

/-- One of several threads that share the variable, the registry and the service is isolated.

* Whenever it looks up the context, it finds that of the innermost scope that it has not left, or
  nothing.
* What is seen of it is what would be seen of it alone, after as many steps of its own.
* What is seen of it is the beginning of what its text says.
* With enough steps of its own it comes to its end, and then everything that its text says has been
  seen, and the end is that of the text. -/
structure Isolated (i : Interpretation) (r : Registry) (activities : Nat → Activity) (id : Nat) :
    Prop where
  innermost : ∀ schedule : List Nat,
    let after := (System.start activities).run i r schedule
    after.context.get id = AccessControl.innermost (after.threads id).scopes
  alone : ∀ schedule : List Nat,
    ((System.start activities).run i r schedule).seenBy id =
      ((Thread.begin (activities id)).run i r id (schedule.count id) .unset).2.2
  read : ∀ schedule : List Nat,
    ((System.start activities).run i r schedule).seenBy id <+: ((activities id).meaning i r []).1
  ended : ∃ n, ∀ schedule : List Nat, n ≤ schedule.count id →
    let after := (System.start activities).run i r schedule
    after.seenBy id = ((activities id).meaning i r []).1 ∧
      after.threads id = ⟨[], .done ((activities id).meaning i r []).2, []⟩

/-- **Threads are isolated**, however many there are, whatever they do and in whatever order their
steps interleave. -/
theorem isolated (i : Interpretation) (r : Registry) (activities : Nat → Activity) (id : Nat) :
    Isolated i r activities id where
  innermost := by
    intro schedule
    exact Thread.current_scope ((System.sound_start activities).run schedule id)
  alone := by
    intro schedule
    exact (System.run_eq_alone id (System.sound_start activities) schedule rfl).2.2
  read := by
    intro schedule
    have hmeaning := Thread.future_run i r id .unset (.begin (activities id))
      (schedule.count id) rfl
    rw [(System.run_eq_alone id (System.sound_start activities) schedule rfl).2.2]
    exact ⟨_, (congrArg Prod.fst hmeaning).symm⟩
  ended := by
    obtain ⟨c', how, n, seen, hrun⟩ :=
      Thread.exists_reaches_done i r id .unset (activities id) [] rfl
    have hmeaning : (activities id).meaning i r [] = (seen, how) := by
      have h := Thread.future_run i r id .unset (.begin (activities id)) n rfl
      rw [Thread.begin, hrun] at h
      rw [← List.append_nil seen]
      exact h
    refine ⟨n, fun schedule hn => ?_⟩
    obtain ⟨-, hthread, hseen⟩ :=
      System.run_eq_alone (i := i) (r := r) id (System.sound_start activities) schedule rfl
    have hdone : ((System.start activities).threads id).run i r id (schedule.count id)
        (System.start activities).context = (c', ⟨[], .done how, []⟩, seen) :=
      Thread.run_of_le hrun hn
    rw [hdone] at hthread hseen
    rw [hmeaning]
    exact ⟨hseen, hthread⟩

/-- The case of a scope that is left by an error, while another thread has opened a scope and looks
into it. -/
example (i : Interpretation) (r : Registry) (outer inner another : Value) (e : Fault) :
    let first := Activity.within outer
      (.within inner (.done (.error e)) fun _ => .get fun _ => .done (.ok ())) .done
    let second := Activity.within another (.get fun _ => .done (.ok ())) .done
    let s := System.start fun id => if id = 0 then first else second
    (s.run i r [0, 1, 0, 1, 0, 0]).seenBy 0 = [.got outer] := rfl

end AccessControl
