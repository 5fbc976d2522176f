import AccessControl.Proofs.Registry.Declaration

/-!
# Which definitions are accepted

A definition may hold a value of any kind in any place, and it is read in several nested loops, each
of which can end the reading.  This module says without the loops which definitions get through.

`Definition.Acceptable` goes through the parts of a definition and says what each of them has to
be: the identifier, the two lists of names, the levels, and then for each role what it is granted,
which has to be among what is declared.  It says so of the definition as it is written; how a list
of names can be written is said by `Value.Lists`, and how the entry of a role can be written by
`Definition.Carries`.

The order in which validation looks at the parts decides which flaw is reported, and nothing else.
So for each loop it is enough to say what every one of its entries has to be; the loop over the
levels also leaves the names that later entries are compared with (`keys_readLevels`).

## Two questions of reading

Two words in a description of the rules can be taken in more than one way, and `Acceptable` has a
parameter for each.

* *Whose fields are known.*  A class of instances declares its fields, and a record has those that
  it has: `Value.DeclaresFields`.  Validation goes further, and takes a map under `model_fields` for
  the fields of whatever carries it: `Value.KnowsFields`.
* *What is left out.*  One may think of nothing, of the empty text and of empty collections:
  `Value.Vacant`.  Validation takes everything for empty that counts as false, so also the number
  zero.

With the reading of validation the rules are exact, `addResource_accepts_iff`; with the other one
they fail in both directions, `addResource_accepts_counterexample`.
-/

namespace AccessControl

namespace Value

/-- The value lists these names, and each of them can be a key. -/
def ListsKeys (v : Value) (names : List Value) : Prop :=
  v.Lists names ∧ ∀ n ∈ names, n.unhashable? = none

/-- The name is one of these: it can be a key, and in the set of the names there is one that is the
same. -/
def Among (names : List Value) (n : Value) : Prop :=
  n.unhashable? = none ∧ ∃ known ∈ distinct names, known.same n = true

/-- The value declares which fields there are: it is a model that says so, or it is itself an
instance of a declared type, which has the fields it has. -/
inductive DeclaresFields : Value → List String → Prop
  | model (m : Model) (h : m.closed = true ∨ m.fields ≠ []) :
      DeclaresFields (.callable (.model m)) m.fields
  | record (shape : Shape) (own : List (String × Value)) (h : shape ≠ .loose) :
      DeclaresFields (.record shape own) (own.map Prod.fst)

/-- The fields behind a value are known: it declares them, or it is a record of any fields that
carries a map of them. -/
inductive KnowsFields : Value → List String → Prop
  | declared {v : Value} {fields : List String} (h : v.DeclaresFields fields) : KnowsFields v fields
  | carried {own : List (String × Value)} {part : Value} {es : List (Value × Value)}
      (hpart : own.lookup "model_fields" = some part) (hes : part.entries? = some es) :
      KnowsFields (.record .loose own) (es.filterMap fun e => e.1.text?)

/-- Nothing, the empty text or an empty collection: what counts as false and is no number. -/
def Vacant (v : Value) : Prop :=
  v.truthy = false ∧ v.number?.isNone = true

end Value

namespace Definition

/-- An access level as it has to be: with a function, and with a whole number for a priority that
is not negative. -/
def LevelFits (entry : Value) : Prop :=
  ∃ fn n, entry.part? "fn" = some (.callable fn) ∧ entry.part? "priority" = some (.int n) ∧ 0 ≤ n

/-- The entry of a role carries permissions and relationships: a map may leave either of them out,
anything else has to have both as fields. -/
inductive Carries : Value → Value → Value → Prop
  | map {entry : Value} {es : List (Value × Value)} (h : entry.entries? = some es) :
      Carries entry ((Value.find? (.text "permissions") es).getD .null)
        ((Value.find? (.text "relationships") es).getD .null)
  | object {entry permissions held : Value} (h : entry.entries? = none)
      (hpermissions : entry.field? "permissions" = some permissions)
      (hheld : entry.field? "relationships" = some held) : Carries entry permissions held

/-- What a role is granted is left out, or is a map from declared actions to lists of declared
levels. -/
def PermissionsFit (absent : Value → Prop) (actions levels : List Value) (v : Value) : Prop :=
  absent v ∨ ∃ es, v.entries? = some es ∧ ∀ e ∈ es, Value.Among actions e.1.name ∧
    ∃ names, e.2.Lists names ∧ ∀ n ∈ names, Value.Among levels n

/-- What a role holds is left out, or lists declared relationships. -/
def RelationshipsFit (absent : Value → Prop) (relationships : List Value) (v : Value) : Prop :=
  absent v ∨ ∃ names, v.Lists names ∧ ∀ n ∈ names, Value.Among relationships n

/-- The definition is as it has to be.  The parameters say whose fields are known, what counts as
left out, and which roles are registered. -/
structure Acceptable (hasFields : Value → List String → Prop) (absent : Value → Prop)
    (isRole : String → Bool) (d : Definition) : Prop where
  /-- The identifier is a text that is not empty, and a field of the model if its fields are
  known. -/
  identifier : ∃ s, d.identifier.text? = some s ∧ s ≠ "" ∧
    (d.model ≠ .null → ∀ fields, hasFields d.model fields → s ∈ fields)
  /-- The other parts fit together. -/
  parts : ∃ actions relationships levels,
    d.actions.ListsKeys actions ∧ d.relationships.ListsKeys relationships ∧
    d.levels.entries? = some levels ∧
    (∀ e ∈ levels, e.1.name.unhashable? = none ∧ LevelFits e.2) ∧
    (absent d.roles ∨ ∃ roles, d.roles.entries? = some roles ∧ ∀ e ∈ roles,
      (∃ role, e.1.name.text? = some role ∧ isRole role = true) ∧
      ∃ permissions held, Carries e.2 permissions held ∧
        PermissionsFit absent actions (levels.map fun l => l.1.name) permissions ∧
        RelationshipsFit absent relationships held)

end Definition

/-! ## 1. Steps that succeed -/

/-- The step gives a result. -/
def Passes {ε α : Type} (x : Except ε α) : Prop :=
  ∃ a, x = .ok a

section Steps

variable {ε δ α β : Type}

theorem passes_ok (a : α) : Passes (.ok a : Except ε α) := ⟨a, rfl⟩

theorem not_passes_error (e : ε) : ¬ Passes (.error e : Except ε α) := by
  rintro ⟨a, h⟩
  cases h

theorem passes_bind_iff {x : Except ε α} {f : α → Except ε β} :
    Passes (x >>= f) ↔ ∃ a, x = .ok a ∧ Passes (f a) := by
  constructor
  · rintro ⟨b, h⟩
    obtain ⟨a, ha, hb⟩ := bind_eq_ok_iff.mp h
    exact ⟨a, ha, b, hb⟩
  · rintro ⟨a, ha, b, hb⟩
    exact ⟨b, bind_eq_ok_iff.mpr ⟨a, ha, hb⟩⟩

end Steps

/-! ## 2. Names -/

namespace Value

theorem unhashableItem?_eq_none_iff {items : List Value} :
    unhashableItem? items = none ↔ ∀ v ∈ items, v.unhashable? = none := by
  induction items with
  | nil => simp [unhashableItem?]
  | cons v rest ih =>
    rw [unhashableItem?, List.forall_mem_cons]
    cases hv : v.unhashable? with
    | some kind => simp
    | none => simp [ih]

theorem requireKeys_eq_ok_iff {items : List Value} :
    requireKeys items = .ok () ↔ ∀ v ∈ items, v.unhashable? = none := by
  rw [← unhashableItem?_eq_none_iff, requireKeys]
  cases unhashableItem? items with
  | some kind => simp
  | none => simp

/-- Nothing that can be a key is the same as a set. -/
theorem same_set_of_key {known : Value} (hkey : known.unhashable? = none) (items : List Value) :
    known.same (set items) = false := by
  cases known with
  | set xs => simp [unhashable?] at hkey
  | record shape fields => cases shape <;> rfl
  | member e n v => cases v <;> rfl
  | _ => rfl

/-- What is the same as a key can be looked up exactly if it can be a key; for a set is the same as
no key. -/
theorem requireElement_eq_ok_iff {ε : Type} {misuse : Misuse → ε} {known v : Value}
    (hkey : known.unhashable? = none) (hsame : known.same v = true) :
    v.requireElement misuse = .ok () ↔ v.unhashable? = none := by
  rw [requireElement_of_ne_set]
  · exact requireKey_eq_ok_iff
  · rintro items rfl
    rw [same_set_of_key hkey items] at hsame
    cases hsame

theorem requireNames_eq_ok_iff {v : Value} {names : List Value} :
    v.requireNames = .ok names ↔ v.Lists names := by
  refine ⟨lists_of_requireNames, fun h => ?_⟩
  rw [requireNames, lists_iff.mp h]

/-- What is taken for empty is empty, and anything else is taken as it is. -/
theorem requireEntries_eq_ok_iff {v : Value} {es : List (Value × Value)} :
    v.requireEntries = .ok es ↔ if v.truthy = true then v.entries? = some es else es = [] := by
  rw [requireEntries]
  cases v.truthy with
  | false => simp [eq_comm]
  | true =>
    cases v.entries? with
    | none => simp
    | some found => simp [eq_comm]

theorem requireEntries_orElse (v : Value) :
    (v.orElse (.map [])).requireEntries = v.requireEntries := by
  rw [orElse]
  split
  · rfl
  · rename_i hfalse
    rw [requireEntries, requireEntries, Bool.not_eq_true _ |>.mp hfalse]
    rfl

end Value

namespace Definition

open Value (Among)

variable {actions levels relationships names : List Value} {isRole : String → Bool} {d : Definition}

/-! ## 3. The parts, one by one -/

theorem nameSet_eq_ok_iff {v : Value} {known : List Value} :
    nameSet v = .ok known ↔ ∃ names, v.ListsKeys names ∧ known = Value.distinct names := by
  rw [nameSet, bind_eq_ok_iff]
  constructor
  · rintro ⟨names, hnames, h⟩
    obtain ⟨⟨⟩, hkeys, h⟩ := bind_eq_ok_iff.mp h
    cases h
    exact ⟨names, ⟨Value.requireNames_eq_ok_iff.mp hnames, Value.requireKeys_eq_ok_iff.mp hkeys⟩,
      rfl⟩
  · rintro ⟨names, ⟨hnames, hkeys⟩, rfl⟩
    refine ⟨names, Value.requireNames_eq_ok_iff.mpr hnames, ?_⟩
    rw [Value.requireKeys_eq_ok_iff.mpr hkeys, ok_bind, pure_eq_ok]

/-- Whose fields validation knows, it asks for the identifier. -/
theorem knowsFields_iff {v : Value} {fields : List String} :
    v.KnowsFields fields ↔ v.modelFields? = some fields := by
  constructor
  · intro h
    cases h with
    | declared h =>
      cases h with
      | model m h => exact if_pos (by simpa using h)
      | record shape own h =>
        cases shape with
        | loose => exact absurd rfl h
        | _ => rfl
    | carried hpart hes => rw [Value.modelFields?, hpart, Option.bind_some, hes, Option.map_some]
  · intro h
    rw [Value.modelFields?.eq_def] at h
    split at h
    · rename_i m
      split at h
      · rename_i hknown
        cases h
        exact .declared (.model m (by simpa using hknown))
      · cases h
    · rename_i own
      obtain ⟨part, hpart, h⟩ := Option.bind_eq_some_iff.mp h
      obtain ⟨es, hes, rfl⟩ := Option.map_eq_some_iff.mp h
      exact .carried hpart hes
    · rename_i shape own hshape
      cases h
      exact .declared (.record shape own fun hloose => hshape hloose)
    · cases h

theorem passes_identifierOf_iff :
    Passes d.identifierOf ↔ ∃ s, d.identifier.text? = some s ∧ s ≠ "" ∧
      (d.model ≠ .null → ∀ fields, d.model.KnowsFields fields → s ∈ fields) := by
  have hnull : d.model.isNull = true ↔ d.model = .null := by
    cases d.model <;> simp [Value.isNull]
  simp only [knowsFields_iff]
  rw [identifierOf]
  cases d.identifier.text? with
  | none => exact iff_of_false (not_passes_error _) fun ⟨s, h, _⟩ => by cases h
  | some s =>
    simp only [Option.some.injEq, exists_eq_left']
    by_cases hempty : s = ""
    · have hs : s.isEmpty = true := String.isEmpty_iff.mpr hempty
      rw [if_pos hs]
      exact iff_of_false (not_passes_error _) fun h => h.1 hempty
    · rw [if_neg fun hs => hempty (String.isEmpty_iff.mp hs)]
      by_cases hmodel : d.model = .null
      · rw [if_pos (hnull.mpr hmodel)]
        exact iff_of_true (passes_ok _) ⟨hempty, fun h => absurd hmodel h⟩
      · rw [if_neg fun h => hmodel (hnull.mp h)]
        cases d.model.modelFields? with
        | none => exact iff_of_true (passes_ok _) ⟨hempty, fun _ fields h => by cases h⟩
        | some known =>
          by_cases hs : s ∈ known
          · simp only [if_pos (List.contains_iff_mem.mpr hs)]
            refine iff_of_true (passes_ok _) ⟨hempty, fun _ fields h => ?_⟩
            cases h
            exact hs
          · simp only [if_neg fun h => hs (List.contains_iff_mem.mp h)]
            exact iff_of_false (not_passes_error _) fun h => hs (h.2 hmodel known rfl)

theorem passes_readLevel_iff {name entry : Value} :
    Passes (readLevel name entry) ↔ LevelFits entry := by
  have hsnd : (levelParts entry).2 = (entry.part? "priority").getD .null := by
    rw [levelParts, Value.part?]
    cases entry.entries? with
    | some es => rfl
    | none => rfl
  constructor
  · rintro ⟨l, h⟩
    have hparts := levelParts_of_readLevel h
    have hfn := levelParts_fst entry
    rw [hparts] at hfn hsnd
    have hgiven : ∀ key (w : Value), w ≠ .null → w = (entry.part? key).getD .null →
        entry.part? key = some w := by
      intro key w hw h
      cases hpart : entry.part? key with
      | none =>
        rw [hpart] at h
        exact absurd h hw
      | some u =>
        rw [hpart] at h
        exact congrArg some h.symm
    exact ⟨l.fn, l.priority, hgiven "fn" _ (fun h => by cases h) hfn,
      hgiven "priority" _ (fun h => by cases h) hsnd, Int.natCast_nonneg _⟩
  · rintro ⟨fn, n, hfn, hpriority, hn⟩
    refine ⟨⟨fn, n.toNat⟩, ?_⟩
    simp only [readLevel, levelParts_fst, hsnd, hfn, hpriority, Option.getD_some,
      Value.callable?, priority?, if_pos hn]

/-- Levels are read exactly when every entry fits and has a name that can be a key. -/
theorem passes_readLevels_iff {acc : List (Value × AccessLevel)} {entries : List (Value × Value)} :
    Passes (readLevels acc entries) ↔
      ∀ e ∈ entries, e.1.name.unhashable? = none ∧ LevelFits e.2 := by
  induction entries generalizing acc with
  | nil => simp [readLevels, passes_ok]
  | cons first rest ih =>
    obtain ⟨key, entry⟩ := first
    rw [readLevels, passes_bind_iff, List.forall_mem_cons]
    constructor
    · rintro ⟨level, hlevel, h⟩
      obtain ⟨⟨⟩, hkey, hrest⟩ := passes_bind_iff.mp h
      exact ⟨⟨Value.requireKey_eq_ok_iff.mp hkey,
        passes_readLevel_iff.mp ⟨level, hlevel⟩⟩, ih.mp hrest⟩
    · rintro ⟨⟨hkey, hfits⟩, hrest⟩
      obtain ⟨level, hlevel⟩ := passes_readLevel_iff.mpr hfits
      refine ⟨level, hlevel, passes_bind_iff.mpr ⟨(), ?_, ih.mpr hrest⟩⟩
      exact Value.requireKey_eq_ok_iff.mpr hkey

theorem keys_put {α : Type} (key : Value) (a : α) (acc : List (Value × α)) :
    (Value.put key a acc).map Prod.fst = Value.addTo (acc.map Prod.fst) key := by
  induction acc with
  | nil => rfl
  | cons first rest ih =>
    obtain ⟨k, b⟩ := first
    rw [Value.put, Value.addTo, List.map_cons, List.any_cons]
    by_cases hk : Value.same k key = true
    · rw [if_pos hk, hk, Bool.true_or, if_pos rfl, List.map_cons]
    · rw [if_neg hk, Bool.eq_false_iff.mpr hk, Bool.false_or, List.map_cons, ih, Value.addTo]
      split
      · rfl
      · rfl

/-- The names of the levels that are read are those of the entries, each of them once. -/
theorem keys_readLevels {acc read : List (Value × AccessLevel)} {entries : List (Value × Value)}
    (h : readLevels acc entries = .ok read) :
    read.map Prod.fst = (entries.map fun e => e.1.name).foldl Value.addTo (acc.map Prod.fst) := by
  induction entries generalizing acc with
  | nil =>
    cases h
    rfl
  | cons first rest ih =>
    obtain ⟨key, entry⟩ := first
    rw [readLevels, bind_eq_ok_iff] at h
    obtain ⟨level, -, h⟩ := h
    obtain ⟨⟨⟩, -, h⟩ := bind_eq_ok_iff.mp h
    rw [ih h, keys_put]
    rfl

theorem levelsOf_eq_ok_iff {v : Value} {read : List (Value × AccessLevel)} :
    levelsOf v = .ok read ↔
      ∃ entries, v.entries? = some entries ∧ readLevels [] entries = .ok read := by
  rw [levelsOf]
  cases v.entries? with
  | none => simp
  | some es => simp

/-- Levels that are read are a map all of whose entries fit, and the names that grants can list are
those of the entries. -/
theorem levelsOf_spec {v : Value} {read : List (Value × AccessLevel)} (h : levelsOf v = .ok read) :
    ∃ entries, v.entries? = some entries ∧
      (∀ e ∈ entries, e.1.name.unhashable? = none ∧ LevelFits e.2) ∧
      read.map Prod.fst = Value.distinct (entries.map fun e => e.1.name) := by
  obtain ⟨entries, hentries, hread⟩ := levelsOf_eq_ok_iff.mp h
  exact ⟨entries, hentries, passes_readLevels_iff.mp ⟨read, hread⟩, keys_readLevels hread⟩

theorem exists_levelsOf {v : Value} {entries : List (Value × Value)}
    (hentries : v.entries? = some entries)
    (hfit : ∀ e ∈ entries, e.1.name.unhashable? = none ∧ LevelFits e.2) :
    ∃ read, levelsOf v = .ok read ∧
      read.map Prod.fst = Value.distinct (entries.map fun e => e.1.name) := by
  obtain ⟨read, hread⟩ : Passes (readLevels [] entries) := passes_readLevels_iff.mpr hfit
  exact ⟨read, levelsOf_eq_ok_iff.mpr ⟨entries, hentries, hread⟩, keys_readLevels hread⟩

/-! ## 4. What a role is granted -/

/-- Names pass exactly when each of them is among the declared ones, if a declared name is looked up
with success exactly when it can be a key. -/
theorem allKnown_eq_ok_iff {lookUp : Value → Except Defect Unit} {declared : List Value}
    {unknown : Value → DefinitionFlaw}
    (hlookUp : ∀ known ∈ Value.distinct declared, ∀ n, known.same n = true →
      (lookUp n = .ok () ↔ n.unhashable? = none)) :
    allKnown lookUp (Value.distinct declared) unknown names = .ok () ↔
      ∀ n ∈ names, Among declared n := by
  induction names with
  | nil => simp [allKnown]
  | cons n rest ih =>
    rw [allKnown, bind_eq_ok_iff, List.forall_mem_cons, ← ih]
    constructor
    · rintro ⟨⟨⟩, hkey, h⟩
      split at h
      · rename_i hknown
        obtain ⟨known, hmem, hsame⟩ := List.any_eq_true.mp hknown
        exact ⟨⟨(hlookUp known hmem n hsame).mp hkey, known, hmem, hsame⟩, h⟩
      · cases h
    · rintro ⟨⟨hkey, known, hmem, hsame⟩, hrest⟩
      refine ⟨(), (hlookUp known hmem n hsame).mpr hkey, ?_⟩
      rw [if_pos (List.any_eq_true.mpr ⟨known, hmem, hsame⟩)]
      exact hrest

theorem allKeys_eq_ok_iff {declared : List Value} {unknown : Value → DefinitionFlaw} :
    allKnown (Value.requireKey .misuse) (Value.distinct declared) unknown names = .ok () ↔
      ∀ n ∈ names, Among declared n :=
  allKnown_eq_ok_iff fun _ _ _ _ => Value.requireKey_eq_ok_iff

theorem allElements_eq_ok_iff {declared : List Value} {unknown : Value → DefinitionFlaw}
    (hdeclared : ∀ n ∈ declared, n.unhashable? = none) :
    allKnown (Value.requireElement .misuse) (Value.distinct declared) unknown names = .ok () ↔
      ∀ n ∈ names, Among declared n :=
  allKnown_eq_ok_iff fun known hmem _ hsame =>
    Value.requireElement_eq_ok_iff (hdeclared known (Value.mem_of_mem_distinct hmem)) hsame

section Grants

variable (hactions : ∀ n ∈ actions, n.unhashable? = none)
  (hrelationships : ∀ n ∈ relationships, n.unhashable? = none)

include hactions in
theorem passes_readPermissions_iff {acc : List (Value × List Value)}
    {entries : List (Value × Value)} :
    Passes (readPermissions (Value.distinct actions) (Value.distinct levels) acc entries) ↔
      ∀ e ∈ entries, Among actions e.1.name ∧
        ∃ names, e.2.Lists names ∧ ∀ n ∈ names, Among levels n := by
  induction entries generalizing acc with
  | nil => simp [readPermissions, passes_ok]
  | cons first rest ih =>
    obtain ⟨key, listed⟩ := first
    rw [readPermissions, passes_bind_iff, List.forall_mem_cons]
    constructor
    · rintro ⟨⟨⟩, haction, h⟩
      obtain ⟨names, hnames, h⟩ := passes_bind_iff.mp h
      obtain ⟨⟨⟩, hlevels, hrest⟩ := passes_bind_iff.mp h
      refine ⟨⟨?_, names, ?_, allKeys_eq_ok_iff.mp hlevels⟩, ih.mp hrest⟩
      · exact (allElements_eq_ok_iff hactions).mp haction key.name (List.mem_singleton_self _)
      · exact Value.requireNames_eq_ok_iff.mp (mapError_eq_ok_iff.mp hnames)
    · rintro ⟨⟨haction, names, hnames, hlevels⟩, hrest⟩
      refine ⟨(), (allElements_eq_ok_iff hactions).mpr (List.forall_mem_singleton.mpr haction), ?_⟩
      refine passes_bind_iff.mpr ⟨names, ?_, ?_⟩
      · exact mapError_eq_ok_iff.mpr (Value.requireNames_eq_ok_iff.mpr hnames)
      · exact passes_bind_iff.mpr ⟨(), allKeys_eq_ok_iff.mpr hlevels, ih.mpr hrest⟩

/-- The two parts of an entry are what it carries, with what counts as false taken for empty. -/
theorem grantParts_eq_ok_iff {entry : Value} {parts : Value × Value} :
    grantParts entry = .ok parts ↔ ∃ permissions held, Carries entry permissions held ∧
      parts = (permissions.orElse (.map []), held.orElse (.tuple [])) := by
  have hfield : ∀ key v, entry.requireField key = .ok v ↔ entry.field? key = some v := by
    intro key v
    rw [Value.requireField]
    cases entry.field? key with
    | some w => simp
    | none => simp
  rw [grantParts]
  cases hentries : entry.entries? with
  | some es =>
    simp only
    constructor
    · intro h
      cases h
      exact ⟨_, _, .map hentries, rfl⟩
    · rintro ⟨permissions, held, hcarries, rfl⟩
      cases hcarries with
      | map h =>
        rw [hentries] at h
        cases h
        rfl
      | object h =>
        rw [hentries] at h
        cases h
  | none =>
    simp only
    constructor
    · intro h
      obtain ⟨permissions, hpermissions, h⟩ := bind_eq_ok_iff.mp h
      obtain ⟨held, hheld, h⟩ := bind_eq_ok_iff.mp h
      cases h
      exact ⟨permissions, held,
        .object hentries ((hfield _ _).mp hpermissions) ((hfield _ _).mp hheld), rfl⟩
    · rintro ⟨permissions, held, hcarries, rfl⟩
      cases hcarries with
      | map h =>
        rw [hentries] at h
        cases h
      | object h hpermissions hheld =>
        rw [(hfield _ _).mpr hpermissions, (hfield _ _).mpr hheld]
        rfl

include hactions in
/-- Permissions are read exactly when they fit. -/
theorem passes_permissions_iff {v : Value} :
    (∃ es, (v.orElse (.map [])).requireEntries = .ok es ∧
      Passes (readPermissions (Value.distinct actions) (Value.distinct levels) [] es)) ↔
      PermissionsFit (fun v => v.truthy = false) actions levels v := by
  simp only [Value.requireEntries_orElse, Value.requireEntries_eq_ok_iff,
    passes_readPermissions_iff hactions, PermissionsFit]
  cases v.truthy with
  | true => simp
  | false => simp

include hrelationships in
/-- Relationships are read exactly when they fit. -/
theorem passes_relationships_iff {unknown : Value → DefinitionFlaw} {v : Value} :
    (∃ held, (v.orElse (.tuple [])).requireNames = .ok held ∧
      allKnown (Value.requireElement .misuse) (Value.distinct relationships) unknown held =
        .ok ()) ↔
      RelationshipsFit (fun v => v.truthy = false) relationships v := by
  simp only [Value.requireNames_eq_ok_iff, allElements_eq_ok_iff hrelationships, RelationshipsFit,
    Value.orElse]
  cases v.truthy with
  | true => simp
  | false =>
    simp only [Bool.false_eq_true, if_false, true_or, iff_true]
    exact ⟨[], .tuple [], fun n hn => by cases hn⟩

include hactions hrelationships in
theorem passes_readGrant_iff {entry : Value} :
    Passes (readGrant (Value.distinct actions) (Value.distinct levels)
        (Value.distinct relationships) entry) ↔
      ∃ permissions held, Carries entry permissions held ∧
        PermissionsFit (fun v => v.truthy = false) actions levels permissions ∧
        RelationshipsFit (fun v => v.truthy = false) relationships held := by
  rw [readGrant, passes_bind_iff]
  constructor
  · rintro ⟨parts, hparts, h⟩
    obtain ⟨permissions, held, hcarries, rfl⟩ :=
      grantParts_eq_ok_iff.mp (mapError_eq_ok_iff.mp hparts)
    obtain ⟨es, hes, h⟩ := passes_bind_iff.mp h
    obtain ⟨read, hread, h⟩ := passes_bind_iff.mp h
    obtain ⟨names, hnames, h⟩ := passes_bind_iff.mp h
    obtain ⟨⟨⟩, hknown, -⟩ := passes_bind_iff.mp h
    exact ⟨permissions, held, hcarries,
      (passes_permissions_iff hactions).mp ⟨es, mapError_eq_ok_iff.mp hes, read, hread⟩,
      (passes_relationships_iff hrelationships).mp ⟨names, mapError_eq_ok_iff.mp hnames, hknown⟩⟩
  · rintro ⟨permissions, held, hcarries, hpermissions, hheld⟩
    obtain ⟨es, hes, read, hread⟩ := (passes_permissions_iff hactions).mpr hpermissions
    obtain ⟨names, hnames, hknown⟩ := (passes_relationships_iff hrelationships).mpr hheld
    refine ⟨_, mapError_eq_ok_iff.mpr (grantParts_eq_ok_iff.mpr ⟨_, _, hcarries, rfl⟩), ?_⟩
    refine passes_bind_iff.mpr ⟨es, mapError_eq_ok_iff.mpr hes, ?_⟩
    refine passes_bind_iff.mpr ⟨read, hread, ?_⟩
    refine passes_bind_iff.mpr ⟨names, mapError_eq_ok_iff.mpr hnames, ?_⟩
    exact passes_bind_iff.mpr ⟨(), hknown, passes_ok _⟩

include hactions hrelationships in
/-- The grants of all roles are read exactly when every role is registered and what it is granted
fits. -/
theorem passes_readGrants_iff {acc : List (String × Grant)} {entries : List (Value × Value)} :
    Passes (readGrants isRole (Value.distinct actions) (Value.distinct levels)
        (Value.distinct relationships) acc entries) ↔
      ∀ e ∈ entries, (∃ role, e.1.name.text? = some role ∧ isRole role = true) ∧
        ∃ permissions held, Carries e.2 permissions held ∧
          PermissionsFit (fun v => v.truthy = false) actions levels permissions ∧
          RelationshipsFit (fun v => v.truthy = false) relationships held := by
  induction entries generalizing acc with
  | nil => simp [readGrants, passes_ok]
  | cons first rest ih =>
    obtain ⟨key, entry⟩ := first
    rw [readGrants, passes_bind_iff, List.forall_mem_cons,
      ← passes_readGrant_iff hactions hrelationships]
    constructor
    · rintro ⟨⟨⟩, hkey, h⟩
      split at h
      · exact absurd h (not_passes_error _)
      · rename_i role hrole
        split at h
        · rename_i hregistered
          obtain ⟨g, hg, hrest⟩ := passes_bind_iff.mp h
          exact ⟨⟨⟨role, hrole, hregistered⟩, g, hg⟩, ih.mp hrest⟩
        · exact absurd h (not_passes_error _)
    · rintro ⟨⟨⟨role, hrole, hregistered⟩, g, hg⟩, hrest⟩
      refine ⟨(), Value.requireKey_of_isText ⟨role, hrole⟩, ?_⟩
      simp only [hrole, if_pos hregistered]
      exact passes_bind_iff.mpr ⟨g, hg, ih.mpr hrest⟩

end Grants

/-! ## 5. The whole definition -/

/-- **A definition is accepted exactly when it is as it has to be.** -/
theorem passes_validate_iff :
    Passes (d.validate isRole) ↔
      d.Acceptable Value.KnowsFields (fun v => v.truthy = false) isRole := by
  have hroles : ∀ {actions levels relationships : List Value},
      (∀ n ∈ actions, n.unhashable? = none) → (∀ n ∈ relationships, n.unhashable? = none) →
      ((∃ es, d.roles.requireEntries = .ok es ∧
        Passes (readGrants isRole (Value.distinct actions) (Value.distinct levels)
          (Value.distinct relationships) [] es)) ↔
        (d.roles.truthy = false ∨ ∃ roles, d.roles.entries? = some roles ∧ ∀ e ∈ roles,
          (∃ role, e.1.name.text? = some role ∧ isRole role = true) ∧
          ∃ permissions held, Carries e.2 permissions held ∧
            PermissionsFit (fun v => v.truthy = false) actions levels permissions ∧
            RelationshipsFit (fun v => v.truthy = false) relationships held)) := by
    intro actions levels relationships hactions hrelationships
    simp only [Value.requireEntries_eq_ok_iff, passes_readGrants_iff hactions hrelationships]
    cases d.roles.truthy with
    | true => simp
    | false => simp
  rw [validate, passes_bind_iff]
  constructor
  · rintro ⟨identifier, hidentifier, h⟩
    obtain ⟨_, hactionSet, h⟩ := passes_bind_iff.mp h
    obtain ⟨_, hrelationshipSet, h⟩ := passes_bind_iff.mp h
    obtain ⟨_, hlevels, h⟩ := passes_bind_iff.mp h
    obtain ⟨es, hes, h⟩ := passes_bind_iff.mp h
    obtain ⟨grants, hgrants, -⟩ := passes_bind_iff.mp h
    obtain ⟨actions, hactions, rfl⟩ := nameSet_eq_ok_iff.mp (mapError_eq_ok_iff.mp hactionSet)
    obtain ⟨relationships, hrelationships, rfl⟩ :=
      nameSet_eq_ok_iff.mp (mapError_eq_ok_iff.mp hrelationshipSet)
    obtain ⟨levels, hentries, hfit, hkeys⟩ := levelsOf_spec hlevels
    rw [hkeys] at hgrants
    exact ⟨passes_identifierOf_iff.mp ⟨identifier, mapError_eq_ok_iff.mp hidentifier⟩,
      actions, relationships, levels, hactions, hrelationships, hentries, hfit,
      (hroles hactions.2 hrelationships.2).mp ⟨es, mapError_eq_ok_iff.mp hes, grants, hgrants⟩⟩
  · rintro ⟨hidentifier, actions, relationships, levels, hactions, hrelationships, hentries, hfit,
      hgrants⟩
    obtain ⟨identifier, hidentifier⟩ := passes_identifierOf_iff.mpr hidentifier
    obtain ⟨read, hread, hkeys⟩ := exists_levelsOf hentries hfit
    obtain ⟨es, hes, grants, hgrants⟩ := (hroles hactions.2 hrelationships.2).mpr hgrants
    refine ⟨identifier, mapError_eq_ok_iff.mpr hidentifier, ?_⟩
    refine passes_bind_iff.mpr
      ⟨_, mapError_eq_ok_iff.mpr (nameSet_eq_ok_iff.mpr ⟨actions, hactions, rfl⟩), ?_⟩
    refine passes_bind_iff.mpr
      ⟨_, mapError_eq_ok_iff.mpr (nameSet_eq_ok_iff.mpr ⟨relationships, hrelationships, rfl⟩), ?_⟩
    refine passes_bind_iff.mpr ⟨read, hread, ?_⟩
    refine passes_bind_iff.mpr ⟨es, mapError_eq_ok_iff.mpr hes, ?_⟩
    rw [hkeys]
    exact passes_bind_iff.mpr ⟨grants, hgrants, passes_ok _⟩

end Definition

namespace Registry

variable {r : Registry} {resource v : Value} {name : String} {d : Definition}

/-- **A definition is accepted exactly when it is as it has to be.**  Let a resource that is not
defined yet be given a definition, under a name that is not blank.  The registry takes it exactly
when its parts fit together and fit the roles that are registered, where

* the fields of a model are those that it declares, or those of a map that it carries under
  `model_fields`;
* roles, permissions and relationships are left out when they count as false. -/
theorem addResource_accepts_iff (hname : resource.name.text? = some name)
    (hblank : Text.blank name = false) (hfree : r.metadata? name = none)
    (hd : Definition.ofValue? v = some d) :
    (∃ s, r.addResource resource v = .ok s) ↔
      d.Acceptable Value.KnowsFields (fun part => part.truthy = false) r.hasRole := by
  have hrequire : requireResource resource = .ok name := by
    rw [requireResource, requireName, hname]
    simp only [hblank, Bool.false_eq_true, if_false]
  have hnull : v.isNull = false := by
    cases v with
    | null => cases hd
    | _ => rfl
  have hundefined : ¬ (r.metadata? name).isSome = true := by
    rw [hfree]
    exact Bool.false_ne_true
  rw [← Definition.passes_validate_iff, addResource, hrequire, ok_bind, hnull, if_neg
    Bool.false_ne_true, define, if_neg hundefined, hd]
  simp only
  cases d.validate r.hasRole with
  | error defect => exact iff_of_false (not_passes_error _) (not_passes_error _)
  | ok m => exact iff_of_true (passes_ok _) (passes_ok _)

/-- The case of the rulebook for users: it is accepted, so every action, level and relationship that
it grants is one that it declares. -/
theorem addResource_accepts_iff_user :
    Rulebook.userMember.name.text? = some Rulebook.userResource ∧
    Text.blank Rulebook.userResource = false ∧
    (Rulebook.declared true).metadata? Rulebook.userResource = none ∧
    Definition.ofValue? Rulebook.userDefinition.toValue = some Rulebook.userDefinition ∧
    Rulebook.userDefinition.Acceptable Value.KnowsFields (fun part => part.truthy = false)
      (Rulebook.declared true).hasRole := by
  have hblank : Text.blank Rulebook.userResource = false := by decide
  refine ⟨rfl, hblank, rfl, rfl, ?_⟩
  have hread : Definition.ofValue? Rulebook.userDefinition.toValue =
      some Rulebook.userDefinition := rfl
  have hname : requireResource Rulebook.userMember = .ok Rulebook.userResource := rfl
  have haccepted : (Rulebook.declared true).addResource Rulebook.userMember
      Rulebook.userDefinition.toValue = .ok (Rulebook.registry true) := by
    rw [addResource, hname, ok_bind]
    exact Rulebook.define_userResource true
  exact (addResource_accepts_iff rfl hblank rfl hread).mp ⟨_, haccepted⟩

/-- A definition with one action and nothing else, whose model is a record that carries a map under
`model_fields`. -/
def carryingDefinition : Definition where
  identifier := .text "id"
  actions := .list [.text "READ"]
  levels := .map []
  relationships := .tuple []
  roles := .map []
  model := .record .loose [("model_fields", .map [(.text "code", .int 1)])]

/-- A definition with one action and the number zero in the place of the roles. -/
def rolelessDefinition : Definition where
  identifier := .text "id"
  actions := .list [.text "READ"]
  levels := .map []
  relationships := .tuple []
  roles := .int 0
  model := .null

/-- If only declared fields count, and only what is vacant is left out, then the rules are not
exact.  The first of these definitions keeps them and is not accepted; the second one breaks them
and is accepted. -/
theorem addResource_accepts_counterexample :
    (carryingDefinition.Acceptable Value.DeclaresFields Value.Vacant
        (Rulebook.declared true).hasRole ∧
      ¬ ∃ s, (Rulebook.declared true).addResource (.text Rulebook.userResource)
        carryingDefinition.toValue = .ok s) ∧
    ¬ rolelessDefinition.Acceptable Value.DeclaresFields Value.Vacant
        (Rulebook.declared true).hasRole ∧
      ∃ s, (Rulebook.declared true).addResource (.text Rulebook.userResource)
        rolelessDefinition.toValue = .ok s := by
  have hnames : (Value.list [.text "READ"]).ListsKeys [.text "READ"] :=
    ⟨.list _, by simp⟩
  have hnone : (Value.tuple []).ListsKeys [] := ⟨.tuple [], by simp⟩
  refine ⟨⟨⟨⟨"id", rfl, by decide, fun _ fields h => ?_⟩, ?_⟩, fun ⟨s, h⟩ => by cases h⟩, ?_,
    _, rfl⟩
  · cases h with
    | record shape own hshape => exact absurd rfl hshape
  · exact ⟨_, _, [], hnames, hnone, rfl, by simp, .inl ⟨rfl, rfl⟩⟩
  · rintro ⟨-, -, -, -, -, -, -, -, ⟨-, hnumber⟩ | ⟨roles, hroles, -⟩⟩
    · cases hnumber
    · cases hroles

end Registry

end AccessControl
