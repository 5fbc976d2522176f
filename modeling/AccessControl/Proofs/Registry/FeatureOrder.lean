import AccessControl.Proofs.Registry.Index
import AccessControl.Proofs.Registry.Permanence

/-!
# Features in any order

The root declares the resources, and the features supply the rulebooks.  The features come from
different parts of an application, and there is no saying which of them is loaded first.  This
module shows that it does not matter, as long as no two features are about the same resource:
`features_in_any_order`.

## What could make a difference

A feature need not succeed.  Its options may be none, and then it does nothing; or one of its
entries is at fault, and then it has put the rulebooks before this one in place, and they stay.  So
a feature is not one step but a list of them, of which some beginning is carried out.

The list of resources does not remember the order: every resource has its place since it was
declared.  What does remember it is the index, since a resource that is filed under a role comes
last there.  But nobody sees more of the index than the sorted list of the resources of a role.  So
registries are compared up to this order, `SameButOrder`, and the report on a role does not tell
them apart by `indexed_eq_of_mem_iff`.

## Three inductions

Whether an entry is accepted depends on the roles and on the place of its own resource
(`rulebookOf_congr`).  Hence an entry that is accepted can be put in place before or after the
whole of another feature (`defineAll_install`, by induction on that feature); so one feature can go
before or after another (`defineAll_comm`, by induction on the first); and a permutation consists
of such exchanges.
-/

namespace AccessControl

variable {r s t : Registry} {e : FeatureEntry} {entries as bs : List FeatureEntry}
  {blocks order : List Value}

/-- The entries of a feature, if its options can be read. -/
def featureEntries (v : Value) : List FeatureEntry :=
  match FeatureOptions.parse v with
  | .ok options => options.resources
  | .error _ => []

/-- The resources that a feature is about. -/
def featureNames (v : Value) : List String :=
  (featureEntries v).map FeatureEntry.name

namespace Registry

/-- Puts a rulebook in place. -/
def install (r : Registry) (resource : String) (m : Metadata) : Registry :=
  { r with
    resources := assign resource (some m) r.resources
    index := indexResource resource (m.grants.map Prod.fst) r.index }

/-- The rulebook that an entry of a feature stands for, or what is at fault with it. -/
def rulebookOf (r : Registry) (e : FeatureEntry) : Except Fault Metadata :=
  if !r.hasResource e.name then .error (.unknownResource e.name)
  else if Text.blank e.name then .error (.config (.blank "Resource identifier"))
  else if (r.metadata? e.name).isSome then .error (.definition e.name .redefined)
  else (e.definition.validate r.hasRole).mapError (Defect.toFault e.name)

/-- The two registries differ in nothing but the order in which resources are filed. -/
def SameButOrder (r s : Registry) : Prop :=
  ∃ index, s = { r with index := index } ∧
    ∀ role resource, resource ∈ filed index role ↔ resource ∈ filed r.index role

/-- What comes of several commands, one after the other. -/
def Command.runAll (r : Registry) : List Command → List (Run Unit)
  | [] => []
  | c :: rest => (c.apply r).2 :: Command.runAll (c.apply r).1 rest

/-! ## 1. One entry -/

/-- Adding a resource that is declared puts in place what is accepted. -/
theorem addResource_eq_rulebookOf (h : r.hasResource e.name = true) :
    r.addResource (.text e.name) e.definition.toValue =
      (r.rulebookOf e).map (r.install e.name) := by
  have hread : Definition.ofValue? e.definition.toValue = some e.definition := rfl
  have hnull : e.definition.toValue.isNull = false := rfl
  rw [addResource, rulebookOf, h]
  by_cases hblank : Text.blank e.name = true
  · have hname : requireResource (.text e.name) =
        .error (.config (.blank "Resource identifier")) := by
      rw [requireResource, requireName, Value.name_text, Value.text?_text]
      simp only [hblank, if_true]
    rw [hname, if_pos hblank]
    rfl
  · have hname : requireResource (.text e.name) = .ok e.name :=
      requireName_text (Bool.eq_false_iff.mpr hblank)
    rw [hname, ok_bind, hnull, if_neg hblank, define]
    by_cases hdefined : (r.metadata? e.name).isSome = true
    · rw [if_pos hdefined, if_pos hdefined]
      rfl
    · rw [if_neg hdefined, if_neg hdefined, hread]
      simp only
      cases e.definition.validate r.hasRole with
      | error defect => rfl
      | ok m => rfl

theorem hasResource_of_rulebookOf {m : Metadata} (h : r.rulebookOf e = .ok m) :
    r.hasResource e.name = true := by
  rw [rulebookOf] at h
  split at h
  · cases h
  · rename_i hdeclared
    rw [Bool.not_eq_true', Bool.not_eq_false] at hdeclared
    exact hdeclared

/-- An entry that is at fault ends the feature. -/
theorem defineAll_of_rejected {fault : Fault} (h : r.rulebookOf e = .error fault) :
    r.defineAll (e :: entries) = (r, Run.fail fault) := by
  rw [defineAll]
  by_cases hdeclared : r.hasResource e.name = true
  · rw [addResource_eq_rulebookOf hdeclared, h, hdeclared]
    rfl
  · rw [Bool.not_eq_true] at hdeclared
    rw [rulebookOf, hdeclared] at h
    cases h
    rw [hdeclared]
    rfl

/-- An entry that is accepted is put in place, and the feature goes on from there. -/
theorem defineAll_of_accepted {m : Metadata} (h : r.rulebookOf e = .ok m) :
    r.defineAll (e :: entries) =
      (((r.install e.name m).defineAll entries).1,
        ⟨additionEvents e.name e.definition.toValue ++
            ((r.install e.name m).defineAll entries).2.events,
          ((r.install e.name m).defineAll entries).2.outcome⟩) := by
  have hdeclared := hasResource_of_rulebookOf h
  rw [defineAll, addResource_eq_rulebookOf hdeclared, h, hdeclared]
  rfl

/-- Whether an entry is accepted depends on the roles and on what is there in the place of its
resource. -/
theorem rulebookOf_congr (hroles : r.roles = s.roles)
    (hplace : r.resources.lookup e.name = s.resources.lookup e.name) :
    r.rulebookOf e = s.rulebookOf e := by
  have hrole : r.hasRole = s.hasRole := by
    funext role
    rw [hasRole, hasRole, hroles]
  have hresource : r.hasResource e.name = s.hasResource e.name := by
    rw [hasResource, hasResource, hplace]
  have hmetadata : r.metadata? e.name = s.metadata? e.name := by
    rw [metadata?, metadata?, hplace]
  rw [rulebookOf, rulebookOf, hrole, hresource, hmetadata]

theorem lookup_install {resource name : String} {m : Metadata} (hne : name ≠ resource) :
    (r.install resource m).resources.lookup name = r.resources.lookup name := by
  rw [install, lookup_assign, if_neg hne]

/-! ## 2. Up to order -/

namespace SameButOrder

theorem refl (r : Registry) : r.SameButOrder r := ⟨r.index, rfl, fun _ _ => Iff.rfl⟩

theorem trans (h : r.SameButOrder s) (h' : s.SameButOrder t) : r.SameButOrder t := by
  obtain ⟨index, rfl, hfiled⟩ := h
  obtain ⟨index', rfl, hfiled'⟩ := h'
  exact ⟨index', rfl, fun role resource => (hfiled' role resource).trans (hfiled role resource)⟩

theorem install (h : r.SameButOrder s) (resource : String) (m : Metadata) :
    (r.install resource m).SameButOrder (s.install resource m) := by
  obtain ⟨index, rfl, hfiled⟩ := h
  refine ⟨indexResource resource (m.grants.map Prod.fst) index, rfl, fun role x => ?_⟩
  have hbefore : x ∈ filed (r.install resource m).index role ↔
      x ∈ filed r.index role ∨ role ∈ m.grants.map Prod.fst ∧ x = resource :=
    mem_filed_indexResource
  rw [hbefore, mem_filed_indexResource, hfiled role x]

/-- The same comes of a feature, and it leaves the registries the same. -/
theorem defineAll (h : r.SameButOrder s) (entries : List FeatureEntry) :
    (r.defineAll entries).2 = (s.defineAll entries).2 ∧
      (r.defineAll entries).1.SameButOrder (s.defineAll entries).1 := by
  induction entries generalizing r s with
  | nil => exact ⟨rfl, h⟩
  | cons e rest ih =>
    have hentry : s.rulebookOf e = r.rulebookOf e := by
      obtain ⟨index, rfl, -⟩ := h
      exact rulebookOf_congr rfl rfl
    cases hr : r.rulebookOf e with
    | error fault =>
      rw [defineAll_of_rejected hr, defineAll_of_rejected (hentry.trans hr)]
      exact ⟨rfl, h⟩
    | ok m =>
      obtain ⟨hrun, hsame⟩ := ih (h.install e.name m)
      rw [defineAll_of_accepted hr, defineAll_of_accepted (hentry.trans hr)]
      simp only [hrun]
      exact ⟨trivial, hsame⟩

end SameButOrder

/-- The order in which two rulebooks are put in place is only seen in the index. -/
theorem install_comm {resource other : String} {m n : Metadata} (hne : resource ≠ other)
    (hdeclared : r.hasResource resource = true) :
    ((r.install resource m).install other n).SameButOrder
      ((r.install other n).install resource m) := by
  have hresources : assign resource (some m) (assign other (some n) r.resources) =
      assign other (some n) (assign resource (some m) r.resources) := by
    simp only [assign]
    exact upsert_comm hne _ _ (isSome_lookup_iff.mp hdeclared)
  refine ⟨((r.install other n).install resource m).index, ?_, fun role x => ?_⟩
  · simp only [install, hresources]
  · simp only [install, mem_filed_indexResource]
    exact or_right_comm

/-! ## 3. One feature and another -/

/-- A feature leaves alone the roles and the resources that it is not about. -/
theorem lookup_defineAll {name : String} (hname : name ∉ entries.map FeatureEntry.name) :
    (r.defineAll entries).1.roles = r.roles ∧
      (r.defineAll entries).1.resources.lookup name = r.resources.lookup name := by
  induction entries generalizing r with
  | nil => exact ⟨rfl, rfl⟩
  | cons e rest ih =>
    rw [List.map_cons, List.mem_cons, not_or] at hname
    obtain ⟨hne, hrest⟩ := hname
    cases hr : r.rulebookOf e with
    | error fault =>
      rw [defineAll_of_rejected hr]
      exact ⟨rfl, rfl⟩
    | ok m =>
      rw [defineAll_of_accepted hr]
      obtain ⟨hroles, hlookup⟩ := ih (r := r.install e.name m) hrest
      exact ⟨hroles, hlookup.trans (lookup_install hne)⟩

/-- A rulebook can be put in place before or after a feature that is not about its resource. -/
theorem defineAll_install {resource : String} {m : Metadata}
    (hresource : resource ∉ entries.map FeatureEntry.name)
    (hdeclared : r.hasResource resource = true) :
    ((r.install resource m).defineAll entries).2 = (r.defineAll entries).2 ∧
      ((r.install resource m).defineAll entries).1.SameButOrder
        ((r.defineAll entries).1.install resource m) := by
  induction entries generalizing r with
  | nil => exact ⟨rfl, .refl _⟩
  | cons e rest ih =>
    rw [List.map_cons, List.mem_cons, not_or] at hresource
    obtain ⟨hne, hrest⟩ := hresource
    have hentry : (r.install resource m).rulebookOf e = r.rulebookOf e :=
      rulebookOf_congr rfl (lookup_install (Ne.symm hne))
    cases hr : r.rulebookOf e with
    | error fault =>
      rw [defineAll_of_rejected hr, defineAll_of_rejected (hentry.trans hr)]
      exact ⟨rfl, .refl _⟩
    | ok m' =>
      have hstill : (r.install e.name m').hasResource resource = true := by
        rw [hasResource, lookup_install hne]
        exact hdeclared
      obtain ⟨hrun, hsame⟩ := ih hrest hstill
      -- past the first entry by an exchange of two rulebooks, past the rest by the induction
      have hswap : ((r.install resource m).install e.name m').SameButOrder
          ((r.install e.name m').install resource m) := install_comm hne hdeclared
      obtain ⟨hrun', hsame'⟩ := hswap.defineAll rest
      rw [defineAll_of_accepted hr, defineAll_of_accepted (hentry.trans hr)]
      simp only [hrun', hrun]
      exact ⟨trivial, hsame'.trans hsame⟩

/-- **Two features can be exchanged** if they are about different resources: the same comes of the
second one whether or not the first one went before, and both orders leave the registry the same
up to order. -/
theorem defineAll_comm
    (hdisjoint : (as.map FeatureEntry.name).Disjoint (bs.map FeatureEntry.name)) :
    ((r.defineAll as).1.defineAll bs).2 = (r.defineAll bs).2 ∧
      ((r.defineAll as).1.defineAll bs).1.SameButOrder ((r.defineAll bs).1.defineAll as).1 := by
  induction as generalizing r with
  | nil => exact ⟨rfl, .refl _⟩
  | cons e rest ih =>
    rw [List.map_cons, List.disjoint_cons_left] at hdisjoint
    obtain ⟨hnot, hrest⟩ := hdisjoint
    -- `bs` does not touch the place of `e`, so `e` fares the same after it
    have hentry : (r.defineAll bs).1.rulebookOf e = r.rulebookOf e := by
      obtain ⟨hroles, hplace⟩ := lookup_defineAll (r := r) hnot
      exact rulebookOf_congr hroles hplace
    cases hr : r.rulebookOf e with
    | error fault =>
      rw [defineAll_of_rejected hr, defineAll_of_rejected (hentry.trans hr)]
      exact ⟨rfl, .refl _⟩
    | ok m =>
      obtain ⟨hrun, hsame⟩ := ih (r := r.install e.name m) hrest
      obtain ⟨hrun', hsame'⟩ := defineAll_install (m := m) hnot (hasResource_of_rulebookOf hr)
      rw [defineAll_of_accepted hr, defineAll_of_accepted (hentry.trans hr)]
      exact ⟨hrun.trans hrun', hsame.trans (hsame'.defineAll rest).2⟩

/-! ## 4. The options of features -/

/-- What a feature makes of a registry, it makes by its entries. -/
theorem initResources_fst (r : Registry) (v : Value) :
    (r.initResources v).1 = (r.defineAll (featureEntries v)).1 := by
  rw [initResources, featureEntries]
  cases FeatureOptions.parse v with
  | error fault => rfl
  | ok options =>
    simp only
    split
    · rfl
    · rfl

/-- What comes of a feature is what comes of its entries. -/
theorem initResources_snd_congr {v : Value}
    (h : (r.defineAll (featureEntries v)).2 = (s.defineAll (featureEntries v)).2) :
    (r.initResources v).2 = (s.initResources v).2 := by
  rw [featureEntries] at h
  rw [initResources, initResources]
  cases hparse : FeatureOptions.parse v with
  | error fault => rfl
  | ok options =>
    rw [hparse] at h
    have hrun : (r.defineAll options.resources).2 = (s.defineAll options.resources).2 := h
    simp only [hrun]
    cases houtcome : (s.defineAll options.resources).2.outcome with
    | error fault => rfl
    | ok u => exact hrun

theorem SameButOrder.initResources (h : r.SameButOrder s) (v : Value) :
    (r.initResources v).1.SameButOrder (s.initResources v).1 := by
  rw [initResources_fst, initResources_fst]
  exact (h.defineAll _).2

theorem initResources_comm {v w : Value} (hdisjoint : (featureNames v).Disjoint (featureNames w)) :
    ((r.initResources v).1.initResources w).2 = (r.initResources w).2 ∧
      ((r.initResources v).1.initResources w).1.SameButOrder
        ((r.initResources w).1.initResources v).1 := by
  obtain ⟨hrun, hsame⟩ := defineAll_comm (r := r) hdisjoint
  constructor
  · apply initResources_snd_congr
    rw [initResources_fst]
    exact hrun
  · simp only [initResources_fst]
    exact hsame

/-! ## 5. Several features -/

theorem SameButOrder.applyAll (h : r.SameButOrder s) (blocks : List Value) :
    (Command.applyAll r (blocks.map .initResources)).SameButOrder
      (Command.applyAll s (blocks.map .initResources)) := by
  induction blocks generalizing r s with
  | nil => exact h
  | cons v rest ih => exact ih (h.initResources v)

/-- What comes of a feature does not depend on the features before it. -/
theorem runAll_eq_map
    (hdisjoint : blocks.Pairwise fun v w => (featureNames v).Disjoint (featureNames w)) :
    Command.runAll r (blocks.map .initResources) = blocks.map fun v => (r.initResources v).2 := by
  induction blocks generalizing r with
  | nil => rfl
  | cons v rest ih =>
    rw [List.pairwise_cons] at hdisjoint
    obtain ⟨hfirst, hrest⟩ := hdisjoint
    have halone : (rest.map fun w => ((r.initResources v).1.initResources w).2) =
        rest.map fun w => (r.initResources w).2 :=
      List.map_congr_left fun w hw => (initResources_comm (hfirst w hw)).1
    rw [List.map_cons, List.map_cons, Command.runAll, ← halone]
    exact congrArg ((r.initResources v).2 :: ·) (ih hrest)

/-- The features leave the registry the same in any order. -/
theorem sameButOrder_of_perm (hperm : blocks.Perm order)
    (hdisjoint : blocks.Pairwise fun v w => (featureNames v).Disjoint (featureNames w)) :
    (Command.applyAll r (blocks.map .initResources)).SameButOrder
      (Command.applyAll r (order.map .initResources)) := by
  induction hperm generalizing r with
  | nil => exact .refl r
  | cons v _ ih =>
    rw [List.pairwise_cons] at hdisjoint
    exact ih (r := (r.initResources v).1) hdisjoint.2
  | swap w v rest =>
    rw [List.pairwise_cons] at hdisjoint
    have hvw := hdisjoint.1 w (List.mem_cons_self ..)
    exact (initResources_comm hvw).2.applyAll rest
  | trans h _ ih ih' =>
    -- the order in between has to be disjoint too
    have hmiddle := (h.pairwise_iff fun hvw => List.disjoint_symm hvw).mp hdisjoint
    exact (ih hdisjoint).trans (ih' hmiddle)

theorem Reachable.applyAll (h : Reachable r) (commands : List Command) :
    Reachable (Command.applyAll r commands) := by
  induction commands generalizing r with
  | nil => exact h
  | cons c rest ih => exact ih (h.step c)

/-- **Features can come in any order.**  Let a registry have come about in any way, for instance
from the options of a root, and let several features be about different resources.

* The same comes of each feature in any order, namely what would come of it if it were the only
  one: whether it succeeds, and with which error it fails otherwise.
* Afterwards the registries list the same resources in the same order, have the same rulebooks,
  report the same on every role, and decide every question alike. -/
theorem features_in_any_order (hr : r.Reachable)
    (hdisjoint : blocks.Pairwise fun v w => (featureNames v).Disjoint (featureNames w))
    (hperm : blocks.Perm order) :
    Command.runAll r (blocks.map .initResources) = (blocks.map fun v => (r.initResources v).2) ∧
    Command.runAll r (order.map .initResources) = (order.map fun v => (r.initResources v).2) ∧
    (Command.applyAll r (blocks.map .initResources)).resourceNames =
      (Command.applyAll r (order.map .initResources)).resourceNames ∧
    (∀ resource, (Command.applyAll r (blocks.map .initResources)).resourceDefinition resource =
      (Command.applyAll r (order.map .initResources)).resourceDefinition resource) ∧
    (∀ role, (Command.applyAll r (blocks.map .initResources)).roleInfo role =
      (Command.applyAll r (order.map .initResources)).roleInfo role) ∧
    ∀ (i : Interpretation) (context : Value),
      (∀ q, (Command.applyAll r (blocks.map .initResources)).DecidesAs
        (Command.applyAll r (order.map .initResources)) i context q) ∧
      ∀ resource action filter,
        hasPermission i (Command.applyAll r (blocks.map .initResources)) context resource action
            filter =
          hasPermission i (Command.applyAll r (order.map .initResources)) context resource action
            filter := by
  have hruns := runAll_eq_map (r := r) hdisjoint
  have hruns' := runAll_eq_map (r := r)
    ((hperm.pairwise_iff fun hvw => List.disjoint_symm hvw).mp hdisjoint)
  have hfinal := hr.applyAll (blocks.map .initResources)
  have hfinal' := hr.applyAll (order.map .initResources)
  obtain ⟨index, hsame, hfiled⟩ := sameButOrder_of_perm (r := r) hperm hdisjoint
  generalize Command.applyAll r (blocks.map .initResources) = first at *
  generalize Command.applyAll r (order.map .initResources) = second at *
  subst hsame
  have hindexed : ∀ role, first.indexed role = { first with index := index }.indexed role :=
    fun role => indexed_eq_of_mem_iff (hfinal.nodup_filed role) (hfinal'.nodup_filed role)
      fun resource => (hfiled role resource).symm
  have hdecides : ∀ i context q, first.DecidesAs { first with index := index } i context q :=
    fun _ _ _ => decidesAs_of_resourceDefinition ⟨rfl, rfl, rfl, rfl, rfl⟩ rfl
  refine ⟨hruns, hruns', rfl, fun _ => rfl, fun role => ?_, fun i context => ?_⟩
  · simp only [roleInfo, ← hindexed]
    rfl
  · exact ⟨hdecides i context, fun _ _ _ => hasPermission_congr fun _ _ => hdecides i context _⟩

/-- A feature about a resource that the application does not declare. -/
def invoiceFeature : Value :=
  .map [(.text "resources", .list [.map [(.text "name", .text "Invoice"),
    (.text "definition", Rulebook.userDefinition.toValue)]])]

/-- The case of the feature of the application and one that fails: users get their rulebook also
if the other feature comes first, and this one fails also if it comes second. -/
theorem features_in_any_order_invoice :
    (Rulebook.declared true).Reachable ∧
    [Rulebook.userFeature, invoiceFeature].Pairwise
      (fun v w => (featureNames v).Disjoint (featureNames w)) ∧
    [Rulebook.userFeature, invoiceFeature].Perm [invoiceFeature, Rulebook.userFeature] ∧
    (Command.runAll (Rulebook.declared true)
        ([Rulebook.userFeature, invoiceFeature].map .initResources)).map Run.outcome =
      [.ok (), .error (.unknownResource "Invoice")] ∧
    (Command.runAll (Rulebook.declared true)
        ([invoiceFeature, Rulebook.userFeature].map .initResources)).map Run.outcome =
      [.error (.unknownResource "Invoice"), .ok ()] ∧
    (Command.applyAll (Rulebook.declared true)
        ([invoiceFeature, Rulebook.userFeature].map .initResources)).resourceDefinition
      Rulebook.userMember = .ok (some Rulebook.metadata) := by
  have hr : (Rulebook.declared true).Reachable :=
    .fromOptions (Rulebook.fromOptions_rootOptions true)
  have hnames : featureNames Rulebook.userFeature = [Rulebook.userResource] := rfl
  have hnames' : featureNames invoiceFeature = ["Invoice"] := rfl
  have hdisjoint : [Rulebook.userFeature, invoiceFeature].Pairwise
      fun v w => (featureNames v).Disjoint (featureNames w) := by
    rw [List.pairwise_pair, hnames, hnames']
    intro name huser hinvoice
    rw [List.mem_singleton] at huser hinvoice
    exact absurd (huser.symm.trans hinvoice) (by decide)
  have hperm : [Rulebook.userFeature, invoiceFeature].Perm
      [invoiceFeature, Rulebook.userFeature] := .swap _ _ _
  obtain ⟨hruns, hruns', -, hsame, -, -⟩ := features_in_any_order hr hdisjoint hperm
  obtain ⟨huser, houtcome⟩ := Rulebook.initResources_userFeature true
  have hinvoice : ((Rulebook.declared true).initResources invoiceFeature).2.outcome =
      .error (.unknownResource "Invoice") := rfl
  refine ⟨hr, hdisjoint, hperm, ?_, ?_, ?_⟩
  · rw [hruns]
    simp only [List.map_cons, List.map_nil, houtcome, hinvoice]
  · rw [hruns']
    simp only [List.map_cons, List.map_nil, houtcome, hinvoice]
  · refine (hsame Rulebook.userMember).symm.trans ?_
    have hlast : Command.applyAll (Rulebook.declared true)
        ([Rulebook.userFeature, invoiceFeature].map .initResources) =
          ((Rulebook.registry true).initResources invoiceFeature).1 := by
      rw [← huser]
      rfl
    rw [hlast]
    rfl

end Registry

end AccessControl
