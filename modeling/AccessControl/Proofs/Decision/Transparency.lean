import AccessControl.Proofs.Decision.Events
import AccessControl.Proofs.Decision.Spelling
import Mathlib.Data.List.Forall2

/-!
# Members of enumerations are transparent

An application may name roles, resources, actions, access levels and relationships by texts, or by
members of enumerations of texts, and it may mix the two.  Let the same things be done twice, once
with one spelling of the names and once with another: registries are built and changed, their
contents are asked for, and decisions are made.  Then everything that can be seen is the same: the
answers and the errors, the events with the records among them, and the registries.

## Where the statement breaks

A list of names may be given by a single name.  A text that is given so is read as the list of
itself, and so is a member; but the member is kept as it is, while everywhere else the plain name
behind it is taken.  It ends up in the rulebook, and messages show it as a member:
`not_transparent` has two runs that differ in this alone.  So the theorem asks that no list of
names in a definition is a single member (`Act.Listed`); nothing else about definitions and options
is assumed, and what is not well-formed fails in the same way in both runs.

The predicates of an application are handed the context as it is, so the theorem also asks that
they do not tell a role from the same role spelled out (`Registry.Overlooks`).

## How it is shown

Doing something is the same as doing it with all names spelled out, `perform_spellOut`, and this
carries over to sequences by induction, `performAll_spellOut`.  Two sequences that are spelled
differently are the same sequence once they are spelled out.
-/

namespace AccessControl

/-- Something that is done with a registry. -/
inductive Act
  /-- A new registry is built from options; if that fails, the old one is kept. -/
  | build (options : Value)
  | change (command : Registry.Command)
  /-- The definition of a role is asked for. -/
  | roleDefinition (role : Value)
  /-- Everything that a role is granted is asked for. -/
  | roleInfo (role : Value)
  /-- The rulebook of a resource is asked for. -/
  | resourceDefinition (resource : Value)
  | isDeclared (resource : Value)
  /-- Is the action granted, and if the filter names levels, through all of these? -/
  | hasPermission (context resource action filter : Value)
  /-- Through which levels is the action granted? -/
  | levels (context resource action : Value)
  /-- Is the relationship held? -/
  | relationship (context resource relationship : Value)
  /-- May the action be applied to the instance? -/
  | instanceOf (context resource action inst : Value)

/-- What is seen of an act, apart from the registry that it leaves. -/
inductive Reply
  | built (run : Run Registry)
  | changed (run : Run Unit)
  | roleDefinition (found : Except Fault Value)
  | roleInfo (found : Except Fault (Option RoleInfo))
  | resourceDefinition (found : Except Fault (Option Metadata))
  | isDeclared (found : Except Fault Bool)
  | decided (run : Run Answer)

namespace Act

variable {i : Interpretation} {r : Registry} {a b : Act} {acts acts' : List Act}

/-- The registry after an act, and the reply. -/
def perform (i : Interpretation) (r : Registry) : Act → Registry × Reply
  | build options =>
    ((Registry.fromOptions options).outcome.toOption.getD r, .built (Registry.fromOptions options))
  | change command => ((command.apply r).1, .changed (command.apply r).2)
  | roleDefinition role => (r, .roleDefinition (r.roleDefinition role))
  | roleInfo role => (r, .roleInfo (r.roleInfo role))
  | resourceDefinition resource => (r, .resourceDefinition (r.resourceDefinition resource))
  | isDeclared resource => (r, .isDeclared (r.isDeclared resource))
  | hasPermission context resource action filter =>
    (r, .decided (AccessControl.hasPermission i r context resource action filter))
  | levels context resource action =>
    (r, .decided ((Query.levels resource action).decide i r context))
  | relationship context resource held =>
    (r, .decided ((Query.relationship resource held).decide i r context))
  | instanceOf context resource action inst =>
    (r, .decided ((Query.instanceOf resource action inst).decide i r context))

/-- The registry after several acts, one after the other, and the replies. -/
def performAll (i : Interpretation) (r : Registry) : List Act → Registry × List Reply
  | [] => (r, [])
  | a :: rest =>
    let after := performAll i (a.perform i r).1 rest
    (after.1, (a.perform i r).2 :: after.2)

/-! ## 1. Spellings of an act -/

/-- The act with all names in it spelled out, that of the role in the context among them. -/
def spellOut : Act → Act
  | build options => build (RootOptions.spellOut options)
  | change command => change command.spellOut
  | roleDefinition role => roleDefinition role.spellOut
  | roleInfo role => roleInfo role.spellOut
  | resourceDefinition resource => resourceDefinition resource.spellOut
  | isDeclared resource => isDeclared resource.spellOut
  | hasPermission context resource action filter =>
    hasPermission context.spellOutRole resource.spellOut action.spellOut filter.spellOutItems
  | levels context resource action =>
    levels context.spellOutRole resource.spellOut action.spellOut
  | relationship context resource held =>
    relationship context.spellOutRole resource.spellOut held.spellOut
  | instanceOf context resource action inst =>
    instanceOf context.spellOutRole resource.spellOut action.spellOut inst

/-- The two acts differ only in how names are spelled. -/
def Respelled (a b : Act) : Prop :=
  a.spellOut = b.spellOut

/-- No list of names in a definition is a single member. -/
def Listed : Act → Prop
  | change command => command.Listed
  | _ => True

/-- Every name in a definition is a text in one of its two spellings, and no list of names is a
single member. -/
def InTexts : Act → Prop
  | change command => command.InTexts
  | _ => True

/-- The context of a decision. -/
def context? : Act → Option Value
  | hasPermission context _ _ _ => some context
  | levels context _ _ => some context
  | relationship context _ _ => some context
  | instanceOf context _ _ _ => some context
  | _ => none

/-- In a sequence of acts, the predicates of the registry that a decision is made with do not see
how the role of its context is spelled. -/
def OverlookedAlong (i : Interpretation) (r : Registry) : List Act → Prop
  | [] => True
  | a :: rest =>
    (∀ context, a.context? = some context → r.Overlooks i context) ∧
      OverlookedAlong i (a.perform i r).1 rest

/-! ## 2. One act -/

/-- **An act does not see how names are spelled.** -/
theorem perform_spellOut (hlisted : a.Listed)
    (hoverlooks : ∀ context, a.context? = some context → r.Overlooks i context) :
    a.spellOut.perform i r = a.perform i r := by
  have hasked (q : Query) {context : Value} (hcontext : a.context? = some context) :
      (r, Reply.decided (q.spellOut.decide i r context.spellOutRole)) =
        (r, Reply.decided (q.decide i r context)) := by
    rw [decide_respelled (hoverlooks context hcontext)]
  cases a with
  | build options => rw [spellOut, perform, perform, Registry.fromOptions_spellOut]
  | change command => rw [spellOut, perform, perform, Registry.apply_spellOut r hlisted]
  | roleDefinition role => rw [spellOut, perform, perform, Registry.roleDefinition_spellOut]
  | roleInfo role => rw [spellOut, perform, perform, Registry.roleInfo_spellOut]
  | resourceDefinition resource =>
    rw [spellOut, perform, perform, Registry.resourceDefinition_spellOut]
  | isDeclared resource => rw [spellOut, perform, perform, Registry.isDeclared_spellOut]
  | hasPermission context resource action filter =>
    rw [spellOut, perform, perform, hasPermission_respelled (hoverlooks context rfl)]
  | levels context resource action => exact hasked (.levels resource action) rfl
  | relationship context resource held => exact hasked (.relationship resource held) rfl
  | instanceOf context resource action inst => exact hasked (.instanceOf resource action inst) rfl

/-- An act leaves plain texts in the rulebooks. -/
theorem spelledOut_perform (hr : r.SpelledOut) (ha : a.InTexts) : (a.perform i r).1.SpelledOut := by
  cases a with
  | build options =>
    rw [perform]
    cases hbuilt : (Registry.fromOptions options).outcome with
    | error e => exact hr
    | ok built =>
      obtain ⟨o, hbuild⟩ := Registry.exists_build_of_fromOptions hbuilt
      exact Registry.spelledOut_of_build hbuild
  | change command => exact hr.apply ha
  | _ => exact hr

/-! ## 3. Sequences of acts -/

/-- What is done with the names spelled out is what is done. -/
theorem performAll_spellOut (hlisted : ∀ a ∈ acts, a.Listed)
    (hoverlooked : OverlookedAlong i r acts) :
    performAll i r (acts.map spellOut) = performAll i r acts := by
  induction acts generalizing r with
  | nil => rfl
  | cons a rest ih =>
    rw [List.forall_mem_cons] at hlisted
    obtain ⟨ha, hrest⟩ := hoverlooked
    rw [List.map_cons, performAll, performAll, perform_spellOut hlisted.1 ha,
      ih hlisted.2 hrest]

theorem spelledOut_performAll (hr : r.SpelledOut) (hacts : ∀ a ∈ acts, a.InTexts) :
    (performAll i r acts).1.SpelledOut := by
  induction acts generalizing r with
  | nil => exact hr
  | cons a rest ih =>
    rw [List.forall_mem_cons] at hacts
    exact ih (spelledOut_perform hr hacts.1) hacts.2

theorem map_spellOut_eq (h : List.Forall₂ Respelled acts acts') :
    acts.map spellOut = acts'.map spellOut := by
  induction h with
  | nil => rfl
  | cons hab _ ih => rw [List.map_cons, List.map_cons, hab, ih]

/-- **Members of enumerations are transparent.**  Let two sequences of acts differ only in how
names are spelled, let no list of names in a definition be a single member, and let the predicates
of the registries overlook how the roles of contexts are spelled.  Then from any registry the two
sequences lead to the same registry, with the same replies; and if the names in the definitions are
texts, the rulebooks hold plain texts, however the names were spelled. -/
theorem performAll_respelled (hacts : List.Forall₂ Respelled acts acts')
    (hlisted : ∀ a ∈ acts, a.Listed) (hlisted' : ∀ a ∈ acts', a.Listed)
    (hoverlooked : OverlookedAlong i r acts) (hoverlooked' : OverlookedAlong i r acts') :
    performAll i r acts = performAll i r acts' ∧
      (r.SpelledOut → (∀ a ∈ acts, a.InTexts) → (performAll i r acts).1.SpelledOut) := by
  refine ⟨?_, spelledOut_performAll⟩
  -- both sequences meet at the one in which all names are spelled out
  rw [← performAll_spellOut hlisted hoverlooked, map_spellOut_eq hacts,
    performAll_spellOut hlisted' hoverlooked']

/-! ## 4. Two spellings of one session -/

/-- A name, as a member of an enumeration or as a text. -/
def named (asMember : Bool) (s : String) : Value :=
  if asMember then .member "Name" s (.text s) else .text s

/-- A predicate that accepts every instance. -/
def acceptAll : Callable :=
  .defined "accept" (.const (.bool true))

/-- The options of a root with one role and one resource, which keeps the records of decisions. -/
def clerkOptions (asMember : Bool) : Value :=
  .map [(.text "roles", .map [(named asMember "CLERK", .map [])]),
    (.text "default", named asMember "CLERK"),
    (.text "resources", .list [named asMember "Invoice"]),
    (.text "context_resolver", .callable (.resolver .broken)),
    (.text "log", .bool true), (.text "logger", .callable (.sink .capture))]

/-- The definition of invoices, which clerks may read through the listed levels. -/
def invoices (asMember : Bool) (granted : Value) : Value :=
  .record .definition [("identifier", .text "id"),
    ("actions", .list [named asMember "READ"]),
    ("access_levels", .map [(named asMember "OWN",
      .record .accessLevel [("fn", .callable acceptAll), ("priority", .int 0)])]),
    ("relationships", .list [named asMember "OWNER"]),
    ("roles", .map [(named asMember "CLERK", .map [
      (.text "permissions", .map [(named asMember "READ", granted)]),
      (.text "relationships", .list [named asMember "OWNER"])])])]

/-- The context of a clerk. -/
def clerk (asMember : Bool) : Value :=
  .record .principal [("user_id", .text "c1"), ("role", named asMember "CLERK")]

/-- A registry is built and invoices are defined; then it is asked what clerks are granted, and the
four questions are asked about a clerk. -/
def session (asMember : Bool) (granted : Value) : List Act :=
  [build (clerkOptions asMember),
    change (.addResource (named asMember "Invoice") (invoices asMember granted)),
    roleInfo (named asMember "CLERK"),
    hasPermission (clerk asMember) (named asMember "Invoice") (named asMember "READ")
      (.list [named asMember "OWN"]),
    levels (clerk asMember) (named asMember "Invoice") (named asMember "READ"),
    relationship (clerk asMember) (named asMember "Invoice") (named asMember "OWNER"),
    instanceOf (clerk asMember) (named asMember "Invoice") (named asMember "READ")
      (.map [(.text "id", .text "i1")])]

/-- The rulebook of invoices, with the level that is stored for reading them. -/
def invoiceMetadata (level : Value) : Metadata where
  identifier := "id"
  actions := [.text "READ"]
  levels := [(.text "OWN", ⟨acceptAll, 0⟩)]
  relationships := [.text "OWNER"]
  grants := [("CLERK", ⟨[(.text "READ", [level])], [.text "OWNER"]⟩)]

/-- The registry that the session leaves. -/
def clerkRegistry (level : Value) : Registry :=
  { Registry.empty with
    roles := [("CLERK", .map [])]
    resources := [("Invoice", some (invoiceMetadata level))]
    index := [("CLERK", ["Invoice"])]
    defaultRole := some "CLERK"
    logging := true
    sink := .sink .capture
    resolver := some (.resolver .broken) }

theorem everyName_invoices {K L : Value → Prop} {asMember : Bool} {granted : Value}
    (hK : ∀ s, K (named asMember s)) (hL : ∀ s, L (.list [named asMember s]))
    (hgranted : L granted) :
    Registry.DefinedBy (Definition.EveryName K L) (invoices asMember granted) := by
  intro d hd
  cases hd
  refine ⟨hL _, hL _, fun es hes => ?_, fun es hes => ?_⟩
  · cases hes
    rw [List.forall_mem_singleton]
    exact hK _
  · cases hes
    rw [List.forall_mem_singleton]
    intro parts hparts
    cases hparts
    refine ⟨fun es hes => ?_, hL _⟩
    cases hes
    rw [List.forall_mem_singleton]
    exact ⟨hK _, hgranted⟩

theorem overlooks_clerkRegistry (level context : Value) :
    (clerkRegistry level).Overlooks .standard context := by
  refine Registry.overlooks_of_standard (List.forall_mem_nil _) fun name m hm => ?_
  rw [Registry.metadata?, clerkRegistry, lookup_cons_eq_ite] at hm
  split at hm
  · cases hm
    rw [invoiceMetadata, List.forall_mem_singleton]
    trivial
  · cases hm

variable {asMember : Bool} {granted : Value}

/-- A condition on the definition that is added is one on the acts of the session. -/
theorem forall_mem_session {P : Act → Prop}
    (hother : ∀ a, (∀ c, a ≠ change c) → P a)
    (hchange : P (change (.addResource (named asMember "Invoice") (invoices asMember granted)))) :
    ∀ a ∈ session asMember granted, P a := by
  intro a ha
  cases a with
  | change c =>
    simp only [session, List.mem_cons, List.not_mem_nil, reduceCtorEq, false_or, or_false] at ha
    rw [ha]
    exact hchange
  | _ => exact hother _ fun c h => nomatch h

theorem listed_session (h : ¬ granted.IsLone) : ∀ a ∈ session asMember granted, a.Listed := by
  refine forall_mem_session (fun a ha => ?_) (everyName_invoices (fun _ => trivial) ?_ h)
  · cases a with
    | change c => exact absurd rfl (ha c)
    | _ => trivial
  · rintro s ⟨e, n, t, hlone⟩
    cases hlone

theorem inTexts_session (h : granted.ListsTexts) : ∀ a ∈ session asMember granted, a.InTexts := by
  have hnamed (s : String) : (named asMember s).IsText := by
    cases asMember <;> exact ⟨s, rfl⟩
  refine forall_mem_session (fun a ha => ?_) (everyName_invoices hnamed (fun s => ?_) h)
  · cases a with
    | change c => exact absurd rfl (ha c)
    | _ => trivial
  · exact List.forall_mem_singleton.mpr (hnamed s)

theorem overlookedAlong_session (level : Value)
    (h : (performAll .standard .empty ((session asMember granted).take 2)).1 =
      clerkRegistry level) :
    OverlookedAlong .standard .empty (session asMember granted) := by
  have hoverlooks (context : Value) :
      (performAll .standard .empty ((session asMember granted).take 2)).1.Overlooks .standard
        context := by
    rw [h]
    exact overlooks_clerkRegistry level context
  have hnone (context : Value) (hcontext : none = some context) (r : Registry) :
      r.Overlooks .standard context := nomatch hcontext
  exact ⟨fun _ h => hnone _ h _, fun _ h => hnone _ h _, fun _ h => hnone _ h _,
    fun _ _ => hoverlooks _, fun _ _ => hoverlooks _, fun _ _ => hoverlooks _,
    fun _ _ => hoverlooks _, trivial⟩

/-- The case of the session with members for all names, the single level in a list, and the same
session with texts. -/
theorem performAll_respelled_clerk :
    List.Forall₂ Respelled (session true (.list [named true "OWN"]))
      (session false (.list [named false "OWN"])) ∧
    performAll .standard .empty (session true (.list [named true "OWN"])) =
      performAll .standard .empty (session false (.list [named false "OWN"])) ∧
    (performAll .standard .empty (session true (.list [named true "OWN"]))).1.SpelledOut := by
  have hrespelled : List.Forall₂ Respelled (session true (.list [named true "OWN"]))
      (session false (.list [named false "OWN"])) :=
    .cons rfl (.cons rfl (.cons rfl (.cons rfl (.cons rfl (.cons rfl (.cons rfl .nil))))))
  have hlist (v : Value) : ¬ (Value.list [v]).IsLone := by
    rintro ⟨e, n, s, h⟩
    cases h
  have htexts : (Value.list [named true "OWN"]).ListsTexts :=
    List.forall_mem_singleton.mpr ⟨"OWN", rfl⟩
  obtain ⟨hsame, hspelled⟩ := performAll_respelled (i := .standard) (r := .empty) hrespelled
    (listed_session (hlist _)) (listed_session (hlist _))
    (overlookedAlong_session (.text "OWN") rfl)
    (overlookedAlong_session (.text "OWN") rfl)
  exact ⟨hrespelled, hsame, hspelled (fun _ _ hm => nomatch hm) (inTexts_session htexts)⟩

/-- The messages of the records that a decision leaves. -/
def messages : Reply → List Value
  | .decided run => run.events.filterMap fun e => e.audit?.map Audit.message
  | _ => []

/-- **A single member that is given in place of a list is kept.**  Where a text in its place would
be named in the record of the last decision, the record names the member. -/
theorem not_transparent :
    ¬ ∀ (i : Interpretation) (r : Registry) (acts acts' : List Act),
      List.Forall₂ Respelled acts acts' →
      OverlookedAlong i r acts → OverlookedAlong i r acts' →
      performAll i r acts = performAll i r acts' := by
  intro htransparent
  have hrespelled : List.Forall₂ Respelled (session false (named false "OWN"))
      (session false (named true "OWN")) :=
    .cons rfl (.cons rfl (.cons rfl (.cons rfl (.cons rfl (.cons rfl (.cons rfl .nil))))))
  have hsame := htransparent .standard .empty _ _ hrespelled
    (overlookedAlong_session (named false "OWN") rfl)
    (overlookedAlong_session (named true "OWN") rfl)
  have hrecorded : some [Value.text "Access granted through access level 'OWN'"] =
      some [.text "Access granted through access level 'Name.OWN'"] :=
    congrArg (fun done : Registry × List Reply => done.2.getLast?.map messages) hsame
  simp at hrecorded

end Act

end AccessControl
