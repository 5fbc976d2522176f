import AccessControl.Proofs.Http.Writing

/-!
# Two writes at the same time

Two requests that create, change or remove users are handled at the same time, and their steps are
taken in any order.  They are *serialisable* if they come to what they come to one after the other:
to the same directory, with the same statuses.  Neither the handlers nor the directory see to this,
as the directory is locked for a single call only; and yet most requests are serialisable, whatever
the users in the directory are (`writes_serialisable`).

## Why it holds

One of the two does its deed first, and the other one has made some look-ups by then
(`possible_interleave`).  What matters is whether these would have come to the same after the deed.

* A new user was not there before, and a look-up that finds nobody ends the request.  A change of an
  address or of a name is not seen by any decision.  So the look-ups are kept (`Keeps`): the request
  has ended before without doing anything, and might as well have come first, or it might as well
  have begun later.
* A removal is seen if it is the removed user who has been looked up.  Then the request with the
  look-up counts as the first of the two.  Its own deed is about somebody else, and the two deeds
  can be done in either order (`Deed.perform_without`).

## Where it fails

The second argument is at an end where a request relies on the removed user twice.  It has found
the user as its caller, and does not find the user that is to be changed; or it has found a user who
is to be assigned, and adds a user under the same id, which has become free.  And two requests that
remove each other's callers have both found a caller who is not there for whoever comes second.
Finally a removal does not look at whether there was anybody to be removed, so that two requests can
remove the same user.  These are the exceptions of `Request.Apart`, and `races_not_serialisable` has
a case of each.
-/

namespace AccessControl.Http

open Handler

variable {a b : Errand} {d d' : Directory} {c : Caller} {id : String} {ids : List String} {n : Nat}

/-! ## 1. Errands whose look-ups are kept -/

/-- Whoever is found under the id in the first directory is found under it in the second one, too,
perhaps with another address and another name. -/
def Keeps (d d' : Directory) (id : String) : Prop :=
  ∀ u, d.look id = some u → ∃ v, d'.look id = some v ∧ u.Alike v

theorem Keeps.refl (d : Directory) (id : String) : Keeps d d id :=
  fun u hu => ⟨u, hu, .refl u⟩

namespace Errand

/-- A target that does not end the request does not do so later. -/
theorem Proper.reply_of_keeps (hb : b.Proper) (hkeeps : Keeps d d' id)
    (hreply : b.reply c (d.look id) = none) : b.reply c (d'.look id) = none := by
  cases hu : d.look id with
  | none =>
    rw [hu] at hreply
    cases hreply
  | some u =>
    obtain ⟨v, hv, halike⟩ := hkeeps u hu
    rw [hu, reply, hb.ruling_alike c u v halike] at hreply
    rw [hv, reply, hreply]

theorem Proper.check_of_keeps (hb : b.Proper) (hkeeps : ∀ id ∈ ids, Keeps d d' id)
    (hcheck : b.check c d ids = none) : b.check c d' ids = none := by
  rw [check, List.findSome?_eq_none_iff] at hcheck ⊢
  exact fun id hid => hb.reply_of_keeps (hkeeps id hid) (hcheck id hid)

/-- A caller who gets past the gate is the same caller later. -/
theorem Proper.callerAt_of_keeps (hb : b.Proper)
    (hkeeps : ∀ id, b.caller = some id → Keeps d d' id)
    (hgate : b.gate (b.callerAt d) = none) : b.callerAt d' = b.callerAt d := by
  cases hcaller : b.caller with
  | none => rw [callerAt, callerAt, hcaller, Option.bind_none, Option.bind_none]
  | some id =>
    rw [callerAt, hcaller, Option.bind_some] at hgate
    rw [callerAt, callerAt, hcaller, Option.bind_some, Option.bind_some]
    cases hu : d.look id with
    | none =>
      rw [hu] at hgate
      exact absurd hgate hb.anonymous
    | some u =>
      obtain ⟨v, hv, halike⟩ := hkeeps id hcaller u hu
      rw [hv, Caller.ofUser?_alike halike]

/-- **An errand that comes to its deed** still does so if its look-ups are kept. -/
theorem Proper.verdict_of_keeps (hb : b.Proper)
    (hcaller : ∀ id, b.caller = some id → Keeps d d' id)
    (htargets : ∀ id ∈ b.targets, Keeps d d' id) (hverdict : b.verdict d = none) :
    b.verdict d' = none := by
  obtain ⟨hgate, hcheck⟩ := Option.or_eq_none_iff.mp hverdict
  rw [verdict, hb.callerAt_of_keeps hcaller hgate, hgate, hb.check_of_keeps htargets hcheck]
  rfl

/-- **Kept look-ups.**  An errand during which the directory changes in this way comes to what it
comes to afterwards, or it has ended before without doing anything. -/
theorem Proper.advance_of_keeps (hb : b.Proper) (hkeeps : ∀ id, Keeps d d' id) (n : Nat) :
    (b.plan.advance d n).run d' = b.plan.run d' ∨
      ∃ status, (b.plan.advance d n).run d' = (d', status) ∧ b.plan.run d = (d, status) := by
  rcases b.advance_plan d d' n with hlater | ⟨k, hrun⟩
  · exact Or.inl hlater
  have hrun' : b.plan.run d = _ := b.run_plan d
  rw [verdict, b.check_take_drop _ d b.targets k] at hrun'
  cases hgate : b.gate (b.callerAt d) with
  | some status =>
    rw [hgate] at hrun hrun'
    exact Or.inr ⟨status, hrun, hrun'⟩
  | none =>
    rw [hgate, Option.none_or] at hrun hrun'
    cases hfirst : b.check (b.callerAt d) d (b.targets.take k) with
    | some status =>
      rw [hfirst] at hrun hrun'
      exact Or.inr ⟨status, hrun, hrun'⟩
    | none =>
      -- the look-ups made so far would have come to the same in the second directory
      have hcaller := hb.callerAt_of_keeps (fun id _ => hkeeps id) hgate
      have hfirst' := hb.check_of_keeps (fun id _ => hkeeps id) hfirst
      refine Or.inl ?_
      rw [hrun, hfirst, b.run_plan, verdict, b.check_take_drop _ d' b.targets k, hcaller, hgate,
        hfirst']
      rfl

/-! ## 2. Errands during which a user is removed -/

theorem check_without_of_not_mem (hid : id ∉ ids) :
    b.check c (d.without id) ids = b.check c d ids := by
  induction ids with
  | nil => rfl
  | cons other rest ih =>
    rw [List.mem_cons, not_or] at hid
    rw [check_cons, check_cons, ih hid.2, Directory.look_without_of_ne (Ne.symm hid.1)]

/-- Without one user, the targets come to the same, or one of them is missing. -/
theorem check_without (b : Errand) (c : Caller) (d : Directory) (id : String) (ids : List String) :
    b.check c (d.without id) ids = b.check c d ids ∨
      b.check c (d.without id) ids = some b.missing := by
  induction ids with
  | nil => exact Or.inl rfl
  | cons other rest ih =>
    rw [check_cons, check_cons]
    by_cases hother : other = id
    · rw [hother, Directory.look_without_self]
      exact Or.inr rfl
    · rw [Directory.look_without_of_ne hother]
      cases b.reply c (d.look other) with
      | none => exact ih
      | some status => exact Or.inl rfl

/-- If the user is removed between two targets, these come to what they come to before or to what
they come to afterwards. -/
theorem check_split (b : Errand) (c : Caller) (d : Directory) (id : String) (ids : List String)
    (k : Nat) :
    (b.check c d (ids.take k)).or (b.check c (d.without id) (ids.drop k)) = b.check c d ids ∨
      (b.check c d (ids.take k)).or (b.check c (d.without id) (ids.drop k)) =
        b.check c (d.without id) ids := by
  rw [b.check_take_drop c d ids k, b.check_take_drop c (d.without id) ids k]
  cases hfirst : b.check c d (ids.take k) with
  | some status => exact Or.inl rfl
  | none =>
    rcases b.check_without c d id (ids.drop k) with hrest | hrest
    · rw [hrest]
      exact Or.inl rfl
    · refine Or.inr ?_
      rcases b.check_without c d id (ids.take k) with hfirst' | hfirst'
      · rw [hfirst', hfirst]
      · rw [hfirst', hrest]
        rfl

/-- An errand is clear of the removal of a user if it does not remove the user itself, and relies on
the user no more than once: as the caller, as a target, or as the one to be created. -/
structure ClearOf (b : Errand) (id : String) : Prop where
  caller : b.caller = some id → id ∉ b.targets ∧ b.deed.subject? ≠ some id
  create : ∀ new, b.deed = .create new → new.userId = id → id ∉ b.targets
  remove : b.deed ≠ .remove id

/-- If it is not the caller who is removed, the caller is the same afterwards. -/
theorem callerAt_without (hcaller : b.caller ≠ some id) (d : Directory) :
    b.callerAt (d.without id) = b.callerAt d := by
  cases hother : b.caller with
  | none => rw [callerAt, callerAt, hother, Option.bind_none, Option.bind_none]
  | some other =>
    have hne : other ≠ id := fun heq => hcaller (by rw [hother, heq])
    rw [callerAt, callerAt, hother, Option.bind_some, Option.bind_some,
      Directory.look_without_of_ne hne]

/-- If a target is removed, the deed is not about it and does not remove anybody, or the target is
the only one, and the deed ends as the look-up would have ended. -/
theorem Proper.perform_of_target (hb : b.Proper) (hclear : b.ClearOf id) (hmem : id ∈ b.targets)
    (d : Directory) :
    (b.deed.subject? ≠ some id ∧ ∀ other, b.deed ≠ .remove other) ∨
      b.targets = [id] ∧ b.deed.perform (d.without id) = (d.without id, b.missing) := by
  cases hdeed : b.deed with
  | idle status =>
    refine Or.inl ⟨fun hsubject => ?_, fun other hremove => ?_⟩
    · cases hsubject
    · cases hremove
  | create new =>
    refine Or.inl ⟨fun hsubject => ?_, fun other hremove => ?_⟩
    · exact hclear.create new hdeed (Option.some.inj hsubject) hmem
    · cases hremove
  | change userId changes =>
    obtain ⟨htargets, hmissing⟩ := hb.change userId changes hdeed
    rw [htargets, List.mem_singleton] at hmem
    refine Or.inr ⟨by rw [htargets, hmem], ?_⟩
    rw [hmissing, Deed.perform, ← hmem, Directory.stored?_without_self]
  | remove userId =>
    rw [hb.remove userId hdeed, List.mem_singleton] at hmem
    exact absurd (hdeed.trans (by rw [hmem])) hclear.remove

/-- **A removal.**  An errand that is clear of it comes to what it comes to afterwards, or it comes
to what it comes to before; and in this case, if it comes to a deed then not to one about this user,
and not to a removal unless the user is the caller. -/
theorem Proper.advance_of_removal (hb : b.Proper) (hclear : b.ClearOf id) (d : Directory)
    (n : Nat) :
    (b.plan.advance d n).run (d.without id) = b.plan.run (d.without id) ∨
      ((b.plan.advance d n).run (d.without id) = b.close (d.without id) (b.verdict d) ∧
        (b.verdict d = none → b.deed.subject? ≠ some id ∧
          ∀ other, b.deed = .remove other → b.caller = some id)) := by
  rcases b.advance_plan d (d.without id) n with hlater | ⟨k, hrun⟩
  · exact Or.inl hlater
  by_cases hcaller : b.caller = some id
  · obtain ⟨htargets, hsubject⟩ := hclear.caller hcaller
    have hrest : id ∉ b.targets.drop k := fun h => htargets (List.mem_of_mem_drop h)
    rw [check_without_of_not_mem hrest, ← check_append, List.take_append_drop] at hrun
    exact Or.inr ⟨hrun, fun _ => ⟨hsubject, fun _ _ => hcaller⟩⟩
  have hlater : b.plan.run (d.without id) = b.close (d.without id)
      ((b.gate (b.callerAt d)).or (b.check (b.callerAt d) (d.without id) b.targets)) := by
    rw [b.run_plan, verdict, callerAt_without hcaller]
  rcases b.check_split (b.callerAt d) d id b.targets k with hsplit | hsplit
  · rw [hsplit] at hrun
    by_cases hmem : id ∈ b.targets
    · rcases hb.perform_of_target hclear hmem d with ⟨hsubject, hremove⟩ | ⟨htargets, hperform⟩
      · exact Or.inr ⟨hrun, fun _ => ⟨hsubject, fun other h => absurd h (hremove other)⟩⟩
      cases hverdict : b.verdict d with
      | some status =>
        rw [← hverdict]
        exact Or.inr ⟨hrun, fun h => absurd (hverdict.symm.trans h) (Option.some_ne_none status)⟩
      | none =>
        -- the user was there when it was looked up and is gone when it is to be changed
        obtain ⟨hgate, hcheck⟩ := Option.or_eq_none_iff.mp hverdict
        refine Or.inl ?_
        rw [hrun, hlater, hgate, hcheck, htargets, check_cons, Directory.look_without_self]
        exact hperform
    · refine Or.inl ?_
      rw [hrun, hlater, check_without_of_not_mem hmem]
  · refine Or.inl ?_
    rw [hrun, hsplit, hlater]

end Errand

/-! ## 3. Two errands -/

/-- What two plans come to one after the other, in one order or in the other. -/
def Plan.Serial (p q : Plan) (d final : Directory) (one two : Nat) : Prop :=
  (final, one, two) = p.meanwhile q d 0 ∨ (final, two, one) = q.meanwhile p d 0

theorem Plan.Serial.symm {p q : Plan} {final : Directory} {one two : Nat}
    (h : p.Serial q d final one two) : q.Serial p d final two one :=
  Or.symm h

namespace Errand

variable {final : Directory} {one two : Nat}

/-- An errand that has ended without doing anything might as well have come first. -/
theorem serial_of_ended {status : Nat} (hrun : b.plan.run d = (d, status))
    (hfinal : (final, one, two) = ((a.plan.run d).1, (a.plan.run d).2, status)) :
    a.plan.Serial b.plan d final one two := by
  simp only [Prod.mk.injEq] at hfinal
  obtain ⟨rfl, rfl, rfl⟩ := hfinal
  refine Or.inr ?_
  rw [Plan.meanwhile, Plan.advance_zero, hrun]

theorem Proper.serial_of_keeps (hb : b.Proper)
    (hkeeps : ∀ id, Keeps d (a.plan.run d).1 id)
    (hfinal : (final, one, two) = a.plan.meanwhile b.plan d n) :
    a.plan.Serial b.plan d final one two := by
  rw [Plan.meanwhile] at hfinal
  rcases hb.advance_of_keeps hkeeps n with hlater | ⟨status, hrun, hended⟩
  · refine Or.inl ?_
    rw [hfinal, Plan.meanwhile, Plan.advance_zero, hlater]
  · rw [hrun] at hfinal
    exact serial_of_ended hended hfinal

theorem run_plan_of_removes (hdeed : a.deed = .remove id) (hverdict : a.verdict d = none) :
    a.plan.run d = (d.without id, 204) := by
  rw [run_plan_of_passes hverdict, hdeed]
  rfl

/-- An errand that removes a user still comes to its deed after the deed of another one, unless this
removes the caller or is about the same user. -/
theorem Proper.removes_after (ha : a.Proper) (hdeed : a.deed = .remove id)
    (hverdict : a.verdict d = none) {deed : Deed} (hsubject : deed.subject? ≠ some id)
    (hcaller : ∀ other, deed = .remove other → a.caller ≠ some other) :
    a.verdict (deed.perform d).1 = none := by
  refine ha.verdict_of_keeps (fun other hother u hu => ?_) (fun other hother u hu => ?_) hverdict
  · exact deed.look_perform (fun hremove => hcaller other hremove hother) hu
  · rw [ha.remove id hdeed, List.mem_singleton] at hother
    refine deed.look_perform (fun hremove => hsubject ?_) hu
    rw [hremove, hother]
    rfl

/-- The first errand removes a user, and the second is clear of this; and the second does not remove
the caller of the first while it is itself in the name of the user that is removed. -/
theorem Proper.serial_of_removal (ha : a.Proper) (hb : b.Proper) (hdeed : a.deed = .remove id)
    (hverdict : a.verdict d = none) (hclear : b.ClearOf id)
    (hcallers : ∀ other, b.caller = some id → b.deed = .remove other → a.caller ≠ some other)
    (hfinal : (final, one, two) = a.plan.meanwhile b.plan d n) :
    a.plan.Serial b.plan d final one two := by
  rw [Plan.meanwhile, run_plan_of_removes hdeed hverdict] at hfinal
  rcases hb.advance_of_removal hclear d n with hlater | ⟨hrun, hdeeds⟩
  · refine Or.inl ?_
    rw [hfinal, Plan.meanwhile, Plan.advance_zero, run_plan_of_removes hdeed hverdict, hlater]
  rw [hrun] at hfinal
  cases hb' : b.verdict d with
  | some status =>
    rw [hb'] at hfinal
    refine serial_of_ended (run_plan_of_ends hb') ?_
    rw [run_plan_of_removes hdeed hverdict]
    exact hfinal
  | none =>
    -- both errands come to their deeds, which can be done in either order
    obtain ⟨hsubject, hcaller⟩ := hdeeds hb'
    have hafter : a.verdict (b.deed.perform d).1 = none :=
      ha.removes_after hdeed hverdict hsubject fun other hremove =>
        hcallers other (hcaller other hremove) hremove
    rw [hb', close, b.deed.perform_without hsubject] at hfinal
    simp only [Prod.mk.injEq] at hfinal
    obtain ⟨rfl, rfl, rfl⟩ := hfinal
    refine Or.inr ?_
    rw [Plan.meanwhile, Plan.advance_zero, run_plan_of_passes hb', run_plan_of_removes hdeed hafter]

/-- What has to be excluded about one errand that may remove a user and another one. -/
structure Undisturbed (a b : Errand) : Prop where
  clear : ∀ id, a.deed = .remove id → b.ClearOf id
  callers : ∀ id other, a.deed = .remove id → b.caller = some id → b.deed = .remove other →
    a.caller ≠ some other

/-- **Two errands.**  If one of them is carried out while the other makes its look-ups, they come to
what they come to one after the other. -/
theorem Proper.serial (ha : a.Proper) (hb : b.Proper) (hundisturbed : a.Undisturbed b)
    (hfinal : (final, one, two) = a.plan.meanwhile b.plan d n) :
    a.plan.Serial b.plan d final one two := by
  cases hverdict : a.verdict d with
  | some status =>
    refine hb.serial_of_keeps (fun id => ?_) hfinal
    rw [run_plan_of_ends hverdict]
    exact .refl d id
  | none =>
    by_cases hremove : ∃ id, a.deed = .remove id
    · obtain ⟨id, hdeed⟩ := hremove
      exact ha.serial_of_removal hb hdeed hverdict (hundisturbed.clear id hdeed)
        (fun other => hundisturbed.callers id other hdeed) hfinal
    · refine hb.serial_of_keeps (fun id u hu => ?_) hfinal
      rw [run_plan_of_passes hverdict]
      exact a.deed.look_perform (fun hdeed => hremove ⟨id, hdeed⟩) hu

end Errand

/-! ## 4. Two requests -/

variable {s : Server} {settings : Settings} {r r₁ r₂ : Request}

namespace Request

/-- The request relies on a user in two ways: as the caller, as the user that is to be created,
changed or removed, or as one that a new user is to manage. -/
def ReliesTwiceOn (r : Request) (settings : Settings) (id : String) : Prop :=
  r.callerId? settings = some id ∧ r.subject? = some id ∨
    r.callerId? settings = some id ∧ id ∈ r.assigned ∨
    r.subject? = some id ∧ id ∈ r.assigned

instance (r : Request) (settings : Settings) (id : String) :
    Decidable (r.ReliesTwiceOn settings id) :=
  inferInstanceAs (Decidable (_ ∨ _ ∨ _))

/-- The first request removes a user that the second one removes too, or relies on in two ways. -/
def Disturbs (r₁ r₂ : Request) (settings : Settings) : Prop :=
  ∃ id ∈ r₁.removed?, r₂.removed? = some id ∨ r₂.ReliesTwiceOn settings id

instance (r₁ r₂ : Request) (settings : Settings) : Decidable (r₁.Disturbs r₂ settings) :=
  inferInstanceAs (Decidable (∃ id ∈ r₁.removed?, _ ∨ _))

/-- Each of the two requests removes the caller of the other. -/
def RemoveEachOther (r₁ r₂ : Request) (settings : Settings) : Prop :=
  ∃ id₁ ∈ r₁.removed?, ∃ id₂ ∈ r₂.removed?,
    r₂.callerId? settings = some id₁ ∧ r₁.callerId? settings = some id₂

instance (r₁ r₂ : Request) (settings : Settings) : Decidable (r₁.RemoveEachOther r₂ settings) :=
  inferInstanceAs (Decidable (∃ id₁ ∈ r₁.removed?, ∃ id₂ ∈ r₂.removed?, _ ∧ _))

/-- Neither request disturbs the other, and they do not remove each other's callers. -/
structure Apart (r₁ r₂ : Request) (settings : Settings) : Prop where
  one : ¬ r₁.Disturbs r₂ settings
  two : ¬ r₂.Disturbs r₁ settings
  callers : ¬ r₁.RemoveEachOther r₂ settings

theorem Apart.symm (h : r₁.Apart r₂ settings) : r₂.Apart r₁ settings :=
  ⟨h.two, h.one, fun ⟨id₂, hremoved₂, id₁, hremoved₁, hcaller₁, hcaller₂⟩ =>
    h.callers ⟨id₁, hremoved₁, id₂, hremoved₂, hcaller₂, hcaller₁⟩⟩

end Request

/-- The errands of requests that are apart do not disturb each other. -/
theorem Errand.Of.undisturbed (ha : a.Of settings r₁) (hb : b.Of settings r₂)
    (hapart : r₁.Apart r₂ settings) : a.Undisturbed b where
  clear := fun id hdeed => by
    have hremoved := ha.remove id hdeed
    have hrelies : ¬ r₂.ReliesTwiceOn settings id := fun h =>
      hapart.one ⟨id, hremoved, Or.inr h⟩
    refine ⟨fun hcaller => ⟨fun hmem => hrelies ?_, fun hsubject => hrelies ?_⟩,
      fun new hcreate hid hmem => hrelies ?_, fun hremove => ?_⟩
    · rcases hb.targets id hmem with hsubject | hassigned
      · exact Or.inl ⟨hb.caller id hcaller, hsubject⟩
      · exact Or.inr (Or.inl ⟨hb.caller id hcaller, hassigned⟩)
    · exact Or.inl ⟨hb.caller id hcaller, hb.subject id hsubject⟩
    · refine Or.inr (Or.inr ⟨hb.subject id ?_, ?_⟩)
      · rw [hcreate, Deed.subject?, hid]
      · rw [← hb.create new hcreate]
        exact hmem
    · exact hapart.one ⟨id, hremoved, Or.inl (hb.remove id hremove)⟩
  callers := fun id other hdeed hcaller hremove hcaller' =>
    hapart.callers ⟨id, ha.remove id hdeed, other, hb.remove other hremove, hb.caller id hcaller,
      ha.caller other hcaller'⟩

namespace Server

/-- The same directory is left behind, and both requests are answered with the same statuses. -/
structure SameOutcome (x y : Server × Exchange × Exchange) : Prop where
  directory : x.1.directory = y.1.directory
  one : x.2.1.response.status = y.2.1.response.status
  two : x.2.2.response.status = y.2.2.response.status

/-- Two requests that are served at the same time come to what they come to one after the other, in
one order or in the other. -/
def Serialisable (s : Server) (i : Interpretation) (turns : List Turn) (r₁ r₂ : Request) : Prop :=
  let both := s.serveBoth i turns r₁ r₂
  let other := s.serveInTurn i r₂ r₁
  SameOutcome both (s.serveInTurn i r₁ r₂) ∨ SameOutcome both (other.1, other.2.2, other.2.1)

variable {p q : Plan}

/-- Two requests one after the other are two plans one after the other. -/
theorem meanwhile_of_serveInTurn (hone : Carries finalStatus (s.respond .standard r₁) p)
    (htwo : Carries finalStatus (s.respond .standard r₂) q) (hd : s.directory.Presentable) :
    ((s.serveInTurn .standard r₁ r₂).1.directory,
      (s.serveInTurn .standard r₁ r₂).2.1.response.status,
      (s.serveInTurn .standard r₁ r₂).2.2.response.status) = p.meanwhile q s.directory 0 := by
  obtain ⟨hdirectory, hstatus⟩ := hone.run hd
  have hafter : ((s.respond .standard r₁).run s.directory).directory.Presentable := by
    rw [hdirectory]
    exact Plan.presentable_run hd p
  obtain ⟨hdirectory', hstatus'⟩ := htwo.run hafter
  rw [Plan.meanwhile, Plan.advance_zero, ← hdirectory, ← hstatus, ← hdirectory', ← hstatus']
  simp only [serveInTurn, serve, status_conclude]
  rfl

/-- Requests are serialisable if their plans are. -/
theorem serialisable_of_serial {turns : List Turn}
    (hone : Carries finalStatus (s.respond .standard r₁) p)
    (htwo : Carries finalStatus (s.respond .standard r₂) q) (hd : s.directory.Presentable)
    (hserial : p.Serial q s.directory (s.serveBoth .standard turns r₁ r₂).1.directory
      (s.serveBoth .standard turns r₁ r₂).2.1.response.status
      (s.serveBoth .standard turns r₁ r₂).2.2.response.status) :
    s.Serialisable .standard turns r₁ r₂ := by
  rcases hserial with h | h
  · rw [← meanwhile_of_serveInTurn hone htwo hd] at h
    simp only [Prod.mk.injEq] at h
    exact Or.inl ⟨h.1, h.2.1, h.2.2⟩
  · rw [← meanwhile_of_serveInTurn htwo hone hd] at h
    simp only [Prod.mk.injEq] at h
    exact Or.inr ⟨h.1, h.2.2, h.2.1⟩

end Server

/-- **Writes are serialisable.**  Let every user in the directory be one that can be shown, and take
any two requests that create, change or remove a user.  Let neither of them remove a user that the
other one removes too or relies on in two ways, and let them not remove each other's callers.  Then,
whatever turns they take, they leave the directory and get the statuses that they would if they were
served one after the other, in one of the two orders. -/
theorem writes_serialisable (hs : s.Ready) (h₁ : r₁.Writes) (h₂ : r₂.Writes)
    (hapart : r₁.Apart r₂ s.settings) (turns : List Turn) :
    s.Serialisable .standard turns r₁ r₂ := by
  obtain ⟨a, ha, hof, hone⟩ := hs.exists_errand h₁
  obtain ⟨b, hb, hof', htwo⟩ := hs.exists_errand h₂
  refine Server.serialisable_of_serial hone htwo hs.presentable ?_
  simp only [Server.serveBoth, Server.status_conclude]
  rcases possible_interleave hone htwo hs.presentable turns with ⟨n, hfinal⟩ | ⟨n, hfinal⟩
  · exact ha.serial hb (hof.undisturbed hof' hapart) hfinal
  · exact (hb.serial ha (hof'.undisturbed hof hapart.symm) hfinal).symm

/-! ## 5. Races -/

/-- Two super admins and an agent. -/
def crew : List Account :=
  [⟨"s1", .text "", .superAdmin, 0, .active, .text "", []⟩,
    ⟨"s2", .text "", .superAdmin, 0, .active, .text "", []⟩,
    ⟨"g1", .text "", .agent, 3, .active, .text "", []⟩]

/-- A server for them. -/
def crewServer : Server where
  settings := Settings.default
  directory := ⟨crew.map Account.user⟩
  registry := Rulebook.registry Settings.default.authzLogging

theorem ready_crewServer : crewServer.Ready where
  registry_eq := rfl
  published_eq := rfl
  presentable := by
    intro u hu
    obtain ⟨account, haccount, rfl⟩ := List.mem_map.mp hu
    refine Account.presentable_user_iff.mpr ?_
    have htexts : ∀ account ∈ crew, account.email = .text "" ∧ account.displayName = .text "" := by
      simp [crew]
    obtain ⟨hemail, hname⟩ := htexts account haccount
    exact ⟨hemail ▸ Value.isReadable_text "", hname ▸ Value.isReadable_text ""⟩

/-- A user removes another one. -/
def deleting (caller userId : String) : Request :=
  requestBy caller "DELETE" ("/api/v1/users/" ++ userId) ""

/-- A user changes the name of another one. -/
def changing (caller userId : String) : Request :=
  requestBy caller "PATCH" ("/api/v1/users/" ++ userId) "\x7b\"display_name\":\"One\"\x7d"

/-- A user creates a manager for another one. -/
def recruiting (caller userId assigned : String) : Request :=
  requestBy caller "POST" "/api/v1/users"
    ("\x7b\"user_id\":\"" ++ userId ++ "\",\"email\":\"new@localhost\",\"role\":\"MANAGER\","
      ++ "\"assigned_users\":[\"" ++ assigned ++ "\"]\x7d")

/-- The two statuses. -/
def statuses (x : Server × Exchange × Exchange) : Nat × Nat :=
  (x.2.1.response.status, x.2.2.response.status)

/-- The case of an agent who has been looked up in order to be renamed, and is removed before that
is done: nobody is renamed, as if the removal had come first. -/
theorem writes_serialisable_crew :
    crewServer.Ready ∧ (deleting "s1" "g1").Writes ∧ (changing "s2" "g1").Writes ∧
      (deleting "s1" "g1").Apart (changing "s2" "g1") crewServer.settings ∧
      statuses (crewServer.serveBoth .standard (List.replicate 4 .second) (deleting "s1" "g1")
        (changing "s2" "g1")) = (204, 404) ∧
      crewServer.Serialisable .standard (List.replicate 4 .second) (deleting "s1" "g1")
        (changing "s2" "g1") := by
  have hdeleting : (deleting "s1" "g1").Writes := ⟨.removeUser "g1", rfl, rfl⟩
  have hchanging : (changing "s2" "g1").Writes := ⟨.changeUser "g1", rfl, rfl⟩
  have hapart : (deleting "s1" "g1").Apart (changing "s2" "g1") crewServer.settings :=
    ⟨by decide +kernel, by decide +kernel, by decide +kernel⟩
  exact ⟨ready_crewServer, hdeleting, hchanging, hapart, by decide +kernel,
    writes_serialisable ready_crewServer hdeleting hchanging hapart _⟩

/-- Statuses to which neither order leads. -/
theorem not_serialisable_of_statuses {turns : List Turn}
    (h : (statuses (s.serveBoth .standard turns r₁ r₂) !=
        statuses (s.serveInTurn .standard r₁ r₂) &&
      statuses (s.serveBoth .standard turns r₁ r₂) !=
        (statuses (s.serveInTurn .standard r₂ r₁)).swap) = true) :
    ¬ s.Serialisable .standard turns r₁ r₂ := by
  rw [Bool.and_eq_true_iff, bne_iff_ne, bne_iff_ne] at h
  rintro (hsame | hsame)
  · exact h.1 (Prod.ext hsame.one hsame.two)
  · exact h.2 (Prod.ext hsame.one hsame.two)

/-- **Races.**  Two requests that write and are not serialisable: an agent has been found as the
caller, is removed, and cannot be found by the same request.  The others are, in turn: a super admin
who is to be assigned to a new user by himself, an id that is taken by a user to be assigned, and is
free again, an id that is taken by the caller, two super admins who remove each other, and an agent
who is removed twice. -/
theorem races_not_serialisable :
    crewServer.Ready ∧ (deleting "s1" "g1").Writes ∧ (changing "g1" "g1").Writes ∧
    ¬ crewServer.Serialisable .standard [.second] (deleting "s1" "g1") (changing "g1" "g1") ∧
    ¬ crewServer.Serialisable .standard [.second] (deleting "s1" "s2")
      (recruiting "s2" "m1" "s2") ∧
    ¬ crewServer.Serialisable .standard (List.replicate 5 .second) (deleting "s1" "g1")
      (recruiting "s2" "g1" "g1") ∧
    ¬ crewServer.Serialisable .standard [.second] (deleting "s1" "s2")
      (recruiting "s2" "s2" "g1") ∧
    ¬ crewServer.Serialisable .standard [.second] (deleting "s1" "s2") (deleting "s2" "s1") ∧
    ¬ crewServer.Serialisable .standard (List.replicate 4 .second) (deleting "s1" "g1")
      (deleting "s2" "g1") := by
  refine ⟨ready_crewServer, ⟨.removeUser "g1", rfl, rfl⟩, ⟨.changeUser "g1", rfl, rfl⟩,
    ?_, ?_, ?_, ?_, ?_, ?_⟩
  all_goals exact not_serialisable_of_statuses (by decide +kernel)

end AccessControl.Http
