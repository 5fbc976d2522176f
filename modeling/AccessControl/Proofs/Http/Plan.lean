import AccessControl.Http.Concurrent
import AccessControl.Proofs.Http.Deed
import AccessControl.Proofs.Http.Serving

/-!
# What a handler comes down to

A handler that writes looks users up, one after the other, and in the end it does one thing.  What
it logs and records on the way makes no difference to the directory, nor does it to the status of
the response.  What is left if this is forgotten is a `Plan`: look-ups, each with what follows from
it, and one deed in the end.  `Carries` says that a handler comes down to a plan.

## Two plans at the same time

A plan does not touch the directory before its deed.  So if two plans are carried out over one
directory, step by step and in any order, then one of them is the first to do its deed, and it might
as well have been carried out without any interruption.  The other one has made some look-ups before
that deed and makes the rest after it.  This is `Plan.meanwhile`, and `possible_interleave` says
that it is all that can happen: the many ways in which two handlers can take turns are reduced to
one number, the number of look-ups before the deed of the other.
-/

namespace AccessControl.Http

open Handler

variable {d : Directory} {h : Handler Response} {p q : Plan} {deed : Deed}
  {status : Except Failure Response → Nat}

/-! ## 1. Plans -/

/-- Look-ups, one after the other, and a deed. -/
inductive Plan
  | look (id : String) (next : Option User → Plan)
  | act (deed : Deed)

namespace Plan

/-- The end of a request that does nothing, or nothing more. -/
def ends (status : Nat) : Plan := act (.idle status)

/-- Carries out the plan. -/
def run (d : Directory) : Plan → Directory × Nat
  | look id next => (next (d.look id)).run d
  | act deed => deed.perform d

/-- What is left of the plan after so many look-ups; the deed is never done. -/
def advance (d : Directory) : Nat → Plan → Plan
  | n + 1, look id next => (next (d.look id)).advance d n
  | _, p => p

@[simp] theorem run_ends (d : Directory) (status : Nat) : (ends status).run d = (d, status) := rfl

@[simp] theorem advance_zero (d : Directory) (p : Plan) : p.advance d 0 = p := by
  cases p <;> rfl

@[simp] theorem advance_act (d : Directory) (n : Nat) (deed : Deed) :
    (act deed).advance d n = act deed := by
  cases n <;> rfl

/-- Nothing is lost between the look-ups if the directory is still the same. -/
theorem run_advance (d : Directory) (n : Nat) (p : Plan) : (p.advance d n).run d = p.run d := by
  induction n generalizing p with
  | zero => rw [advance_zero]
  | succ n ih =>
    cases p with
    | look id next => exact ih (next (d.look id))
    | act deed => rfl

theorem presentable_run (hd : d.Presentable) (p : Plan) : (p.run d).1.Presentable := by
  induction p with
  | look id next ih => exact ih (d.look id)
  | act deed => exact Deed.presentable_perform hd deed

/-- One plan is carried out when the other has made so many look-ups; then the other is carried
out to its end.  The directory in the end, and the two statuses. -/
def meanwhile (p q : Plan) (d : Directory) (n : Nat) : Directory × Nat × Nat :=
  let first := p.run d
  let second := (q.advance d n).run first.1
  (second.1, first.2, second.2)

/-- What two plans can come to over one directory: either of them is carried out while the other one
makes its look-ups. -/
def Possible (p q : Plan) (d final : Directory) (one two : Nat) : Prop :=
  (∃ n, (final, one, two) = p.meanwhile q d n) ∨ ∃ n, (final, two, one) = q.meanwhile p d n

theorem Possible.symm {final : Directory} {one two : Nat} (h : Possible p q d final one two) :
    Possible q p d final two one :=
  Or.symm h

/-- What a step makes of a plan and of the directory: either it was a look-up, or the deed is
done. -/
def Steps (d : Directory) (p : Plan) (d' : Directory) (p' : Plan) : Prop :=
  (d' = d ∧ p'.run d = p.run d ∧ ∀ n, ∃ m, p'.advance d n = p.advance d m) ∨
    ∃ status, p' = ends status ∧ p.run d = (d', status)

theorem Steps.refl (d : Directory) (p : Plan) : Steps d p d p :=
  Or.inl ⟨rfl, rfl, fun n => ⟨n, rfl⟩⟩

/-- **One step.**  What is possible after a step of one plan was possible before it. -/
theorem Steps.possible {p' : Plan} {d' final : Directory} {one two : Nat}
    (hstep : Steps d p d' p') (h : Possible p' q d' final one two) :
    Possible p q d final one two := by
  rcases hstep with ⟨rfl, hrun, hadvance⟩ | ⟨status, rfl, hrun⟩
  · rcases h with ⟨n, hn⟩ | ⟨n, hn⟩
    · refine Or.inl ⟨n, ?_⟩
      rw [hn, meanwhile, hrun, meanwhile]
    · obtain ⟨m, hm⟩ := hadvance n
      refine Or.inr ⟨m, ?_⟩
      rw [hn, meanwhile, hm, meanwhile]
  · -- the deed is done, so nothing that follows is in the way of the other plan
    have hq : (final, one, two) = ((q.run d').1, status, (q.run d').2) := by
      rcases h with ⟨n, hn⟩ | ⟨n, hn⟩
      · rw [hn, meanwhile, run_ends, run_advance]
      · rw [meanwhile, ends, advance_act, ← ends, run_ends] at hn
        simp only [Prod.mk.injEq] at hn ⊢
        exact ⟨hn.1, hn.2.2, hn.2.1⟩
    refine Or.inl ⟨0, ?_⟩
    rw [hq, meanwhile, hrun, advance_zero]

end Plan

/-! ## 2. Handlers that come down to plans -/

/-- The handler comes down to the plan, where every outcome stands for a status.  A call that writes
does the deed from every directory whose users can be shown, and after it nothing is left but the
status. -/
inductive Carries (status : Except Failure Response → Nat) : Handler Response → Plan → Prop
  | done (outcome : Except Failure Response) :
      Carries status (.done outcome) (.ends (status outcome))
  | emit {events : List Event} {next : Handler Response} {p : Plan}
      (harmless : ∀ e ∈ events, e.Harmless) (rest : Carries status next p) :
      Carries status (.emit events next) p
  | look {id : String} {next : Except DirectoryFault (Option User) → Handler Response}
      {after : Option User → Plan}
      (rest : ∀ found : Option User, (∀ u ∈ found, u.Presentable) →
        Carries status (next (.ok found)) (after found)) :
      Carries status (.call (.get (.text id)) next) (.look id after)
  | act {c : Directory.Call} {next : Except DirectoryFault c.Answer → Handler Response}
      {deed : Deed}
      (performs : ∀ d : Directory, d.Presentable → (d.perform c).1 = (deed.perform d).1)
      (rest : ∀ d : Directory, d.Presentable →
        Carries status (next (d.perform c).2) (.ends (deed.perform d).2)) :
      Carries status (.call c next) (.act deed)

namespace Carries

theorem look_presentable (hd : d.Presentable) (id : String) : ∀ u ∈ d.look id, u.Presentable :=
  fun _ hu => hd _ (Directory.mem_of_look hu)

/-- **A handler that runs alone** leaves the directory of its plan, with its status. -/
theorem run (hcarries : Carries status h p) (hd : d.Presentable) :
    (h.run d).directory = (p.run d).1 ∧ status (h.run d).outcome = (p.run d).2 := by
  induction hcarries generalizing d with
  | done outcome => exact ⟨rfl, rfl⟩
  | emit harmless rest ih =>
    rw [Handler.run, afterEvents_of_harmless harmless]
    exact ih hd
  | @look id next after rest ih =>
    rw [Handler.run, Directory.perform_get hd]
    exact ih (d.look id) (look_presentable hd id) hd
  | @act c next deed performs rest ih =>
    have hafter : (d.perform c).1.Presentable := by
      rw [performs d hd]
      exact Deed.presentable_perform hd deed
    obtain ⟨hdirectory, hstatus⟩ := ih d hd hafter
    rw [Handler.run]
    exact ⟨hdirectory.trans (performs d hd), hstatus⟩

/-- **A step of a handler** is a step of its plan. -/
theorem step {progress : Progress Response} (hcarries : Carries status progress.rest p)
    (hd : d.Presentable) :
    ∃ p', Carries status (progress.step d).2.rest p' ∧ p.Steps d (progress.step d).1 p' ∧
      (progress.step d).1.Presentable := by
  obtain ⟨events, rest⟩ := progress
  rw [Progress.step]
  cases hcarries with
  | done outcome => exact ⟨_, .done outcome, .refl d _, hd⟩
  | emit harmless rest =>
    simp only [afterEvents_of_harmless harmless]
    exact ⟨p, rest, .refl d p, hd⟩
  | @look id next after rest =>
    simp only [Directory.perform_get hd]
    exact ⟨after (d.look id), rest _ (look_presentable hd id),
      Or.inl ⟨rfl, rfl, fun n => ⟨n + 1, rfl⟩⟩, hd⟩
  | @act c next deed performs rest =>
    simp only [performs d hd]
    exact ⟨_, rest d hd, Or.inr ⟨_, rfl, rfl⟩, Deed.presentable_perform hd deed⟩

end Carries

/-! ## 3. From the parts of a handler -/

section Parts

variable {α β : Type} {g : Handler α} {f : α → Handler Response}

/-- The handler comes to an outcome without any call. -/
inductive Comes : Handler α → Except Failure α → Prop
  | done (outcome : Except Failure α) : Comes (.done outcome) outcome
  | emit {events : List Event} {next : Handler α} {outcome : Except Failure α}
      (harmless : ∀ e ∈ events, e.Harmless) (rest : Comes next outcome) :
      Comes (.emit events next) outcome

namespace Comes

variable {outcome : Except Failure α} {outcome' : Except Failure β} {a : α} {failure : Failure}

/-- It comes to this outcome from every directory. -/
theorem outcome_run (h : Comes g outcome) (d : Directory) : (g.run d).outcome = outcome := by
  induction h generalizing d with
  | done outcome => rfl
  | emit harmless rest ih =>
    rw [run]
    exact ih _

theorem ofRun {r : Run α} (h : ∀ e ∈ r.events, e.Harmless) :
    Comes (Handler.ofRun r) (r.outcome.mapError Failure.fault) :=
  .emit h (.done _)

/-- What is true of a handler with harmless events before it, if it is true of the handler, is true
of what follows the outcome. -/
theorem settle {P : Handler β → Prop} {k : Except Failure α → Handler β}
    (hemit : ∀ {events : List Event} {next : Handler β}, (∀ e ∈ events, e.Harmless) → P next →
      P (.emit events next)) (hg : Comes g outcome) (hk : P (k outcome)) : P (g.settle k) := by
  induction hg with
  | done outcome => exact hk
  | emit harmless rest ih => exact hemit harmless (ih hk)

/-- After a result it comes to the outcome of what follows. -/
theorem bind_ok {k : α → Handler β} (hg : Comes g (.ok a)) (hk : Comes (k a) outcome') :
    Comes (g >>= k) outcome' :=
  hg.settle (P := (Comes · outcome')) .emit hk

theorem bind_error {k : α → Handler β} (hg : Comes g (.error failure)) :
    Comes (g >>= k) (.error failure) :=
  hg.settle (P := (Comes · (.error failure))) .emit (.done _)

/-- What comes before the first call is forgotten if it has a result. -/
theorem carries_ok (hg : Comes g (.ok a)) (hf : Carries statusOf (f a) p) :
    Carries statusOf (g >>= f) p :=
  hg.settle (P := (Carries statusOf · p)) .emit hf

/-- A failure before the first call is all that there is. -/
theorem carries_error (hg : Comes g (.error failure)) :
    Carries statusOf (g >>= f) (.ends failure.status) :=
  hg.settle (P := (Carries statusOf · (.ends failure.status))) .emit (.done (.error failure))

end Comes

/-- What is made of the outcome in the end does not matter if the status stays what it is. -/
theorem Carries.settle {status status' : Except Failure Response → Nat}
    {k : Except Failure Response → Handler Response} (hcarries : Carries status h p)
    (hk : ∀ outcome, ∃ outcome', k outcome = .done outcome' ∧ status' outcome' = status outcome) :
    Carries status' (h.settle k) p := by
  induction hcarries with
  | done outcome =>
    obtain ⟨outcome', heq, hstatus⟩ := hk outcome
    rw [settle_done, heq, ← hstatus]
    exact .done outcome'
  | emit harmless rest ih => exact .emit harmless ih
  | look rest ih => exact .look ih
  | act performs rest ih => exact .act performs ih

end Parts

/-! ## 4. Two handlers at the same time -/

/-- What two handlers that are on their way come to in the end is possible for their plans. -/
theorem possible_finish {pair : Pair Response} (hone : Carries status pair.one.rest p)
    (htwo : Carries status pair.two.rest q) (hd : pair.directory.Presentable) :
    p.Possible q pair.directory pair.finish.2.directory (status pair.finish.1.outcome)
      (status pair.finish.2.outcome) := by
  obtain ⟨hdirectory, hstatus⟩ := hone.run hd
  have hafter : (pair.one.rest.run pair.directory).directory.Presentable := by
    rw [hdirectory]
    exact Plan.presentable_run hd p
  obtain ⟨hdirectory', hstatus'⟩ := htwo.run hafter
  refine Or.inl ⟨0, ?_⟩
  rw [Plan.meanwhile, Plan.advance_zero, ← hdirectory, ← hdirectory', ← hstatus, ← hstatus']
  rfl

theorem possible_turns (turns : List Turn) (pair : Pair Response)
    (hone : Carries status pair.one.rest p) (htwo : Carries status pair.two.rest q)
    (hd : pair.directory.Presentable) :
    p.Possible q pair.directory (turns.foldl Pair.step pair).finish.2.directory
      (status (turns.foldl Pair.step pair).finish.1.outcome)
      (status (turns.foldl Pair.step pair).finish.2.outcome) := by
  induction turns generalizing p q pair with
  | nil => exact possible_finish hone htwo hd
  | cons turn rest ih =>
    rw [List.foldl_cons]
    cases turn with
    | first =>
      obtain ⟨p', hp', hstep, hd'⟩ := hone.step hd
      exact hstep.possible (ih (pair.step .first) hp' htwo hd')
    | second =>
      obtain ⟨q', hq', hstep, hd'⟩ := htwo.step hd
      exact (hstep.possible (ih (pair.step .second) hone hq' hd').symm).symm

/-- **Two handlers at the same time** come to what is possible for their plans, whatever turns
they take. -/
theorem possible_interleave {one two : Handler Response} (hone : Carries status one p)
    (htwo : Carries status two q) (hd : d.Presentable) (turns : List Turn) :
    p.Possible q d (interleave d turns one two).2.directory
      (status (interleave d turns one two).1.outcome)
      (status (interleave d turns one two).2.outcome) :=
  possible_turns turns ⟨d, .start one, .start two⟩ hone htwo hd

end AccessControl.Http
