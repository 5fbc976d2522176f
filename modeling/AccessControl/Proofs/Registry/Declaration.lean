import AccessControl.Proofs.Registry.References

/-!
# What a definition says

A definition may be written in many ways.  A list of names is an enumeration, a map, a collection or
a single text; the entry of a role is a record or a map, and so is an access level.  Validation
makes one table of all this, in three loops that are nested and that put entries into accumulators.

Here the definition is read without any of it.  `Value.Lists` says what a value lists, one
constructor for each way of writing a list, and `Value.under` says what a map has under a name.
From these two it can be said at once which levels the definition lists for a role and an action
(`Definition.Grants`), which relationships it declares for a role (`Definition.Relates`), and which
function it declares under the name of a level (`Definition.functionOf?`).

## What validation makes of it

`readAs_of_validate`: the rulebook has these levels in this order, these relationships and these
functions, and has them under no other names.  For each loop it is shown what is found in the
accumulator in the end: what the last of its entries of this name puts in, or else what was there
at first.

## The empty text

There is one list that is not kept.  A single text lists itself, also if it is empty; but what
counts as false in the place of the relationships of a role is taken for an empty list, and the
empty text does.
-/

namespace AccessControl

namespace Value

/-! ## 1. Lists of names -/

/-- What a value lists. -/
inductive Lists : Value → List Value → Prop
  /-- A text, or a member of an enumeration of texts, lists itself. -/
  | single {v : Value} (h : v.IsText) : Lists v [v]
  | list (items : List Value) : Lists (list items) (items.map name)
  | tuple (items : List Value) : Lists (tuple items) (items.map name)
  | set (items : List Value) : Lists (set items) (items.map name)
  | bytes (data : List UInt8) : Lists (bytes data) (data.map fun b => int b.toNat)
  /-- A map lists its values. -/
  | map (es : List (Value × Value)) : Lists (map es) (es.map fun e => e.2.name)
  | view (es : List (Value × Value)) : Lists (view es) (es.map fun e => e.2.name)
  /-- An enumeration lists the values of its members, without further names for one of them. -/
  | enumeration (e : String) (members : List (String × Value)) :
    Lists (callable (.enumeration e members)) ((distinctMembers same [] members).map Prod.snd)

/-- A list is read as it is written. -/
theorem lists_iff {v : Value} {names : List Value} : v.Lists names ↔ v.names? = some names := by
  constructor
  · intro h
    cases h with
    | single h =>
      obtain ⟨s, hs⟩ := h
      rcases eq_of_text? hs with rfl | ⟨e, n, rfl⟩
      · rfl
      · rfl
    | bytes data => simp [names?, items?, Function.comp_def, name]
    | enumeration e members => simp [names?, items?, Function.comp_def]
    | _ => rfl
  · intro h
    cases v with
    | list items =>
      obtain rfl : items.map name = names := Option.some.inj h
      exact .list items
    | tuple items =>
      obtain rfl : items.map name = names := Option.some.inj h
      exact .tuple items
    | set items =>
      obtain rfl : items.map name = names := Option.some.inj h
      exact .set items
    | bytes data =>
      obtain rfl : (data.map fun b => int b.toNat).map name = names := Option.some.inj h
      rw [List.map_map]
      exact .bytes data
    | map es =>
      obtain rfl : (es.map fun e => e.2.name) = names := Option.some.inj h
      exact .map es
    | view es =>
      obtain rfl : (es.map fun e => e.2.name) = names := Option.some.inj h
      exact .view es
    | text s =>
      obtain rfl : [text s] = names := Option.some.inj h
      exact .single (isText_text s)
    | member e n w =>
      cases w with
      | text s =>
        obtain rfl : [member e n (text s)] = names := Option.some.inj h
        exact .single ⟨s, rfl⟩
      | _ => exact nomatch (show none = some names from h)
    | callable f =>
      cases f with
      | enumeration e members =>
        obtain rfl : ((distinctMembers same [] members).map
          fun m => member e m.1 m.2).map name = names := Option.some.inj h
        rw [List.map_map]
        exact .enumeration e members
      | _ => exact nomatch (show none = some names from h)
    | _ => exact nomatch (show none = some names from h)

theorem lists_of_requireNames {v : Value} {names : List Value} (h : v.requireNames = .ok names) :
    v.Lists names := by
  rw [requireNames] at h
  split at h
  · rename_i found hfound
    cases h
    exact lists_iff.mpr hfound
  · cases h

/-- A value lists one thing only. -/
theorem Lists.unique {v : Value} {names names' : List Value} (h : v.Lists names)
    (h' : v.Lists names') : names = names' :=
  Option.some.inj ((lists_iff.mp h).symm.trans (lists_iff.mp h'))

/-! ## 2. Maps and records -/

/-- The last entry with this name. -/
def lastUnder {α : Type} (name : String) (es : List (Value × α)) : Option α :=
  (es.reverse.find? fun e => e.1.name.text? == some name).map Prod.snd

theorem lastUnder_cons {α : Type} (name : String) (key : Value) (a : α)
    (rest : List (Value × α)) : lastUnder name ((key, a) :: rest) =
      (lastUnder name rest).or (if key.name.text? = some name then some a else none) := by
  rw [lastUnder, lastUnder, List.reverse_cons, List.find?_append]
  cases rest.reverse.find? fun e => e.1.name.text? == some name with
  | some e => rfl
  | none =>
    by_cases h : key.name.text? = some name
    · simp [h]
    · simp [h]

/-- What a map has under a name; if the name is that of several entries, which no map has, the last
of them counts. -/
def under (name : String) (v : Value) : Option Value :=
  lastUnder name (v.entries?.getD [])

/-- A part of what is written as a map or as a record. -/
def part? (key : String) (v : Value) : Option Value :=
  match v.entries? with
  | some es => find? (.text key) es
  | none => v.field? key

theorem under_of_not_truthy {name : String} {v : Value} (h : v.truthy = false) :
    v.under name = none := by
  cases v with
  | map es =>
    rw [truthy, Bool.not_eq_false', List.isEmpty_iff] at h
    rw [h]
    rfl
  | view es =>
    rw [truthy, Bool.not_eq_false', List.isEmpty_iff] at h
    rw [h]
    rfl
  | _ => rfl

theorem under_of_requireEntries {name : String} {v : Value} {es : List (Value × Value)}
    (h : v.requireEntries = .ok es) : v.under name = lastUnder name es := by
  rw [requireEntries] at h
  split at h
  · rename_i hfalse
    cases h
    exact under_of_not_truthy (by simpa using hfalse)
  · split at h
    · rename_i found hfound
      cases h
      rw [under, hfound]
      rfl
    · cases h

theorem under_orElse (name : String) (v : Value) :
    (v.orElse (.map [])).under name = v.under name := by
  rw [orElse]
  split
  · rfl
  · rename_i hfalse
    rw [under_of_not_truthy (Bool.eq_false_iff.mpr hfalse)]
    rfl

/-! ## 3. Accumulators -/

theorem any_addTo {v : Value} (hv : v.IsText) (acc : List Value) (w : Value) :
    (addTo acc w).any (same · v) = (acc.any (same · v) || same w v) := by
  rw [addTo]
  by_cases hthere : acc.any (same · w) = true
  · rw [if_pos hthere]
    cases hw : same w v with
    | false => rw [Bool.or_false]
    | true =>
      -- The element that was there already is the same as the text, too.
      obtain ⟨x, hx, hxw⟩ := List.any_eq_true.mp hthere
      have htext : w.IsText := by
        rw [IsText, (same_eq_true_iff_of_isText hv).mp hw]
        exact hv
      rw [Bool.or_true, List.any_eq_true]
      exact ⟨x, hx, same_trans_of_isText htext hv hxw hw⟩
  · rw [if_neg hthere, List.any_append, List.any_cons, List.any_nil, Bool.or_false]

/-- A text is in a list without repetitions if it was in the list. -/
theorem any_distinct {v : Value} (hv : v.IsText) (items : List Value) :
    (distinct items).any (same · v) = items.any (same · v) := by
  have hfold : ∀ acc : List Value,
      (items.foldl addTo acc).any (same · v) = (acc.any (same · v) || items.any (same · v)) := by
    induction items with
    | nil => simp
    | cons w rest ih =>
      intro acc
      rw [List.foldl_cons, ih, any_addTo hv, List.any_cons, Bool.or_assoc]
  exact hfold []

/-- What is found after something has been put in. -/
theorem find?_put {α : Type} {key other : Value} (hkey : key.IsText) (a : α)
    (acc : List (Value × α)) :
    find? key (put other a acc) = if other.text? = key.text? then some a else find? key acc := by
  induction acc with
  | nil =>
    rw [put, find?, find?]
    exact if_congr (same_eq_true_iff_of_isText hkey) rfl rfl
  | cons first rest ih =>
    obtain ⟨k, w⟩ := first
    have hk := same_eq_true_iff_of_isText (v := k) hkey
    rw [put]
    by_cases hsame : same k other = true
    · rw [if_pos hsame, find?, find?]
      by_cases hother : other.text? = key.text?
      · have hk' : k.text? = key.text? := by
          obtain ⟨s, hs⟩ := hkey
          rw [text?_of_same (hother.trans hs) hsame, hs]
        rw [if_pos (hk.mpr hk'), if_pos hother]
      · have hnot : ¬ same k key = true := by
          intro h
          obtain ⟨s, hs⟩ := hkey
          have hks : k.text? = some s := (hk.mp h).trans hs
          have htext := isText_of_same ⟨s, hks⟩ hsame
          exact hother (((same_eq_true_iff_of_isText htext).mp hsame).symm.trans (hk.mp h))
        rw [if_neg hnot, if_neg hother, if_neg hnot]
    · rw [if_neg hsame, find?, find?, ih]
      by_cases hother : other.text? = key.text?
      · have hnot : ¬ same k key = true := by
          intro h
          have htext : other.IsText := by rwa [IsText, hother]
          exact hsame ((same_eq_true_iff_of_isText htext).mpr ((hk.mp h).trans hother.symm))
        rw [if_neg hnot, if_pos hother, if_pos hother]
      · rw [if_neg hother, if_neg hother]

end Value

namespace Definition

variable {actions levels relationships : List Value} {isRole : String → Bool} {key : Value}
  {name : String}

/-- The levels of an action are those listed by the last entry of the action. -/
theorem find?_readPermissions {acc read : List (Value × List Value)}
    {entries : List (Value × Value)} (hkey : key.text? = some name)
    (h : readPermissions actions levels acc entries = .ok read) :
    match Value.lastUnder name entries with
    | some listed => ∃ names, listed.Lists names ∧ Value.find? key read = some names
    | none => Value.find? key read = Value.find? key acc := by
  induction entries generalizing acc with
  | nil =>
    cases h
    rfl
  | cons first rest ih =>
    obtain ⟨k, listed⟩ := first
    rw [readPermissions, bind_eq_ok_iff] at h
    obtain ⟨⟨⟩, -, h⟩ := h
    rw [bind_eq_ok_iff] at h
    obtain ⟨names, hnames, h⟩ := h
    rw [bind_eq_ok_iff] at h
    obtain ⟨⟨⟩, -, h⟩ := h
    have hrest := ih h
    rw [Value.lastUnder_cons]
    cases hlast : Value.lastUnder name rest with
    | some later =>
      rw [hlast] at hrest
      exact hrest
    | none =>
      rw [hlast] at hrest
      simp only [Value.find?_put ⟨name, hkey⟩, hkey] at hrest
      by_cases hk : k.name.text? = some name
      · rw [if_pos hk] at hrest
        simp only [if_pos hk, Option.none_or]
        exact ⟨names, Value.lists_of_requireNames (mapError_eq_ok_iff.mp hnames), hrest⟩
      · rw [if_neg hk] at hrest
        simp only [if_neg hk, Option.none_or]
        exact hrest

theorem levelParts_fst (entry : Value) : (levelParts entry).1 = (entry.part? "fn").getD .null := by
  rw [levelParts, Value.part?]
  cases entry.entries? with
  | some es => rfl
  | none => rfl

/-- The function of a level is that of the last entry of the level. -/
theorem find?_readLevels {acc read : List (Value × AccessLevel)} {entries : List (Value × Value)}
    (hkey : key.text? = some name) (h : readLevels acc entries = .ok read) :
    (Value.find? key read).map AccessLevel.fn =
      (Value.lastUnder name entries).elim ((Value.find? key acc).map AccessLevel.fn)
        fun entry => (levelParts entry).1.callable? := by
  induction entries generalizing acc with
  | nil =>
    cases h
    rfl
  | cons first rest ih =>
    obtain ⟨k, entry⟩ := first
    rw [readLevels, bind_eq_ok_iff] at h
    obtain ⟨level, hlevel, h⟩ := h
    rw [bind_eq_ok_iff] at h
    obtain ⟨-, -, h⟩ := h
    have hparts := levelParts_of_readLevel hlevel
    rw [ih h, Value.lastUnder_cons, Value.find?_put ⟨name, hkey⟩, hkey]
    cases Value.lastUnder name rest with
    | some later => rfl
    | none =>
      by_cases hk : k.name.text? = some name
      · simp only [if_pos hk, Option.none_or, Option.elim, hparts]
        rfl
      · simp only [if_neg hk, Option.none_or, Option.elim]

/-- The grant of a role is the one that its last entry is read as. -/
theorem lookup_readGrants {acc read : List (String × Grant)} {entries : List (Value × Value)}
    (h : readGrants isRole actions levels relationships acc entries = .ok read) :
    match Value.lastUnder name entries with
    | some entry => ∃ g, readGrant actions levels relationships entry = .ok g ∧
        read.lookup name = some g
    | none => read.lookup name = acc.lookup name := by
  induction entries generalizing acc with
  | nil =>
    cases h
    rfl
  | cons first rest ih =>
    obtain ⟨k, entry⟩ := first
    rw [readGrants, bind_eq_ok_iff] at h
    obtain ⟨-, -, h⟩ := h
    split at h
    · cases h
    · rename_i role hrole
      split at h
      · rw [bind_eq_ok_iff] at h
        obtain ⟨g, hg, h⟩ := h
        rw [assign] at h
        have hrest := ih h
        rw [Value.lastUnder_cons, hrole]
        cases hlast : Value.lastUnder name rest with
        | some later =>
          rw [hlast] at hrest
          exact hrest
        | none =>
          rw [hlast] at hrest
          simp only [lookup_upsert] at hrest
          by_cases hname : name = role
          · rw [if_pos hname] at hrest
            simp only [if_pos (congrArg some hname.symm), Option.none_or]
            exact ⟨g, hg, hrest⟩
          · have hsome : ¬ some role = some name := fun h => hname (Option.some.inj h).symm
            rw [if_neg hname] at hrest
            simp only [if_neg hsome, Option.none_or]
            exact hrest
      · cases h

/-! ## 4. The meaning of a definition -/

/-- The part that lists the levels for a role and an action. -/
def listed? (d : Definition) (role action : String) : Option Value :=
  (d.roles.under role).bind fun entry => (entry.part? "permissions").bind (Value.under action)

/-- The definition lists these levels for a role and an action: none if it has no entry for the role
or if the entry does not have the action. -/
def Grants (d : Definition) (role action : String) (names : List Value) : Prop :=
  match d.listed? role action with
  | some part => part.Lists names
  | none => names = []

/-- The relationship is among those that the definition declares for a role.  What counts as false
declares none. -/
def Relates (d : Definition) (role relationship : String) : Prop :=
  ∃ part names, (d.roles.under role).bind (Value.part? "relationships") = some part ∧
    part.truthy = true ∧ part.Lists names ∧ ∃ n ∈ names, n.text? = some relationship

/-- The function that the definition declares under the name of a level. -/
def functionOf? (d : Definition) (level : String) : Option Callable :=
  (d.levels.under level).bind fun entry => (entry.part? "fn").bind Value.callable?

/-- The rulebook says what the definition says. -/
structure ReadAs (d : Definition) (m : Metadata) : Prop where
  levels : ∀ (role name : String) (action : Value) (names : List Value), action.text? = some name →
    (d.Grants role name names ↔
      ((m.grants.lookup role).bind fun g => Value.find? action g.permissions).getD [] = names)
  relationships : ∀ (role name : String) (relationship : Value), relationship.text? = some name →
    (d.Relates role name ↔ ∃ g, m.grants.lookup role = some g ∧
      g.relationships.any (Value.same · relationship) = true)
  functions : ∀ (name : String) (level : Value), level.text? = some name →
    (Value.find? level m.levels).map AccessLevel.fn = d.functionOf? name

theorem grantParts_eq {entry : Value} {parts : Value × Value} (h : grantParts entry = .ok parts) :
    parts = (((entry.part? "permissions").getD .null).orElse (.map []),
      ((entry.part? "relationships").getD .null).orElse (.tuple [])) := by
  rw [grantParts] at h
  rw [Value.part?, Value.part?]
  cases hentries : entry.entries? with
  | some es =>
    rw [hentries] at h
    cases h
    rfl
  | none =>
    rw [hentries] at h
    obtain ⟨permissions, hpermissions, h⟩ := bind_eq_ok_iff.mp h
    obtain ⟨held, hheld, h⟩ := bind_eq_ok_iff.mp h
    cases h
    have hfield : ∀ key v, entry.requireField key = .ok v → entry.field? key = some v := by
      intro key v hv
      rw [Value.requireField] at hv
      split at hv
      · rename_i w hw
        cases hv
        exact hw
      · cases hv
    simp only [hfield _ _ hpermissions, hfield _ _ hheld, Option.getD_some]

/-- What is read of the entry of a role. -/
theorem readGrant_spec {entry : Value} {g : Grant}
    (h : readGrant actions levels relationships entry = .ok g) :
    (∀ (name : String) (action : Value), action.text? = some name →
      match (entry.part? "permissions").bind (Value.under name) with
      | some listed => ∃ names, listed.Lists names ∧ Value.find? action g.permissions = some names
      | none => Value.find? action g.permissions = none) ∧
    ∃ held, g.relationships = Value.distinct held ∧
      (((entry.part? "relationships").getD .null).orElse (.tuple [])).Lists held := by
  rw [readGrant, bind_eq_ok_iff] at h
  obtain ⟨parts, hparts, h⟩ := h
  rw [bind_eq_ok_iff] at h
  obtain ⟨entries, hentries, h⟩ := h
  rw [bind_eq_ok_iff] at h
  obtain ⟨permissions, hpermissions, h⟩ := h
  rw [bind_eq_ok_iff] at h
  obtain ⟨held, hheld, h⟩ := h
  rw [bind_eq_ok_iff] at h
  obtain ⟨⟨⟩, -, h⟩ := h
  cases h
  have heq := grantParts_eq (mapError_eq_ok_iff.mp hparts)
  rw [heq] at hentries hheld
  refine ⟨fun name action haction => ?_, held, rfl,
    Value.lists_of_requireNames (mapError_eq_ok_iff.mp hheld)⟩
  have hunder : (entry.part? "permissions").bind (Value.under name) =
      Value.lastUnder name entries := by
    rw [← Value.under_of_requireEntries (mapError_eq_ok_iff.mp hentries), Value.under_orElse]
    cases entry.part? "permissions" with
    | none => rfl
    | some part => rfl
  rw [hunder]
  exact find?_readPermissions haction hpermissions

/-- The grant of a role is read from the entry that the definition has for the role. -/
theorem lookup_grants {d : Definition} {m : Metadata} (h : d.validate isRole = .ok m)
    (role : String) :
    match d.roles.under role with
    | some entry => ∃ g, readGrant m.actions (m.levels.map Prod.fst) m.relationships entry = .ok g ∧
        m.grants.lookup role = some g
    | none => m.grants.lookup role = none := by
  obtain ⟨-, entries, hentries, hgrants⟩ := read_of_validate h
  rw [Value.under_of_requireEntries hentries]
  exact lookup_readGrants hgrants

/-- The levels that a rulebook has for a role and an action. -/
theorem grants_iff {d : Definition} {m : Metadata} (h : d.validate isRole = .ok m)
    {role name : String} {action : Value} {names : List Value}
    (haction : action.text? = some name) :
    d.Grants role name names ↔
      ((m.grants.lookup role).bind fun g => Value.find? action g.permissions).getD [] = names := by
  have hgrant := lookup_grants h role
  rw [Grants, listed?]
  cases hentry : d.roles.under role with
  | none =>
    rw [hentry] at hgrant
    rw [hgrant]
    exact eq_comm
  | some entry =>
    rw [hentry] at hgrant
    obtain ⟨g, hg, hlookup⟩ := hgrant
    have hread := (readGrant_spec hg).1 name action haction
    rw [hlookup, Option.bind_some, Option.bind_some]
    cases hpart : (entry.part? "permissions").bind (Value.under name) with
    | none =>
      rw [hpart] at hread
      rw [hread]
      exact eq_comm
    | some part =>
      rw [hpart] at hread
      obtain ⟨found, hfound, hfind⟩ := hread
      rw [hfind, Option.getD_some]
      constructor
      · exact fun hlists => hfound.unique hlists
      · rintro rfl
        exact hfound

/-- The relationships that a rulebook has for a role. -/
theorem relates_iff {d : Definition} {m : Metadata} (h : d.validate isRole = .ok m)
    {role name : String} {relationship : Value} (hname : relationship.text? = some name) :
    d.Relates role name ↔ ∃ g, m.grants.lookup role = some g ∧
      g.relationships.any (Value.same · relationship) = true := by
  have hgrant := lookup_grants h role
  rw [Relates]
  cases hentry : d.roles.under role with
  | none =>
    rw [hentry] at hgrant
    rw [hgrant]
    simp
  | some entry =>
    rw [hentry] at hgrant
    obtain ⟨g, hg, hlookup⟩ := hgrant
    obtain ⟨-, held, hheld, hlists⟩ := readGrant_spec hg
    have hany : g.relationships.any (Value.same · relationship) = true ↔
        ∃ n ∈ held, n.text? = some name := by
      rw [hheld, Value.any_distinct ⟨name, hname⟩, List.any_eq_true, ← hname]
      exact exists_congr fun n => and_congr_right fun _ =>
        Value.same_eq_true_iff_of_isText ⟨name, hname⟩
    rw [hlookup, Option.bind_some]
    simp only [Option.some_inj, exists_eq_left', hany]
    constructor
    · rintro ⟨part, names, hpart, htruthy, hnames, hn⟩
      rw [hpart, Option.getD_some, Value.orElse, if_pos htruthy] at hlists
      rwa [hlists.unique hnames]
    · rintro ⟨n, hn, hntext⟩
      cases hpart : entry.part? "relationships" with
      | none =>
        rw [hpart] at hlists
        rw [hlists.unique (.tuple [])] at hn
        cases hn
      | some part =>
        rw [hpart, Option.getD_some, Value.orElse] at hlists
        split at hlists
        · rename_i htruthy
          exact ⟨part, held, rfl, htruthy, hlists, n, hn, hntext⟩
        · rw [hlists.unique (.tuple [])] at hn
          cases hn

/-- **Validation keeps what a definition says.** -/
theorem readAs_of_validate {d : Definition} {m : Metadata} (h : d.validate isRole = .ok m) :
    d.ReadAs m where
  levels := fun _ _ _ _ haction => grants_iff h haction
  relationships := fun _ _ _ hname => relates_iff h hname
  functions := by
    intro name level hlevel
    obtain ⟨hlevels, -⟩ := read_of_validate h
    rw [levelsOf] at hlevels
    split at hlevels
    · cases hlevels
    · rename_i entries hentries
      rw [find?_readLevels hlevel hlevels, functionOf?, Value.under, hentries, Option.getD_some]
      cases Value.lastUnder name entries with
      | none => rfl
      | some entry =>
        rw [Option.elim, Option.bind_some, levelParts_fst]
        cases entry.part? "fn" with
        | none => rfl
        | some f => rfl

/-- The access levels are named by texts. -/
def NamesLevels (d : Definition) : Prop :=
  ∀ entries, d.levels.entries? = some entries → ∀ e ∈ entries, e.1.name.IsText

/-- Levels that are named by texts are so in the rulebook. -/
theorem isText_of_readLevels {acc read : List (Value × AccessLevel)}
    {entries : List (Value × Value)} (hentries : ∀ e ∈ entries, e.1.name.IsText)
    (hacc : ∀ l ∈ acc, l.1.IsText) (h : readLevels acc entries = .ok read) :
    ∀ l ∈ read, l.1.IsText := by
  induction entries generalizing acc with
  | nil =>
    cases h
    exact hacc
  | cons first rest ih =>
    rw [List.forall_mem_cons] at hentries
    rw [readLevels, bind_eq_ok_iff] at h
    obtain ⟨level, -, h⟩ := h
    rw [bind_eq_ok_iff] at h
    obtain ⟨-, -, h⟩ := h
    have hput := Value.forall_mem_put (V := fun _ : AccessLevel => True) (v := level) hentries.1
      trivial fun l hl => ⟨hacc l hl, trivial⟩
    exact ih hentries.2 (fun l hl => (hput l hl).1) h

theorem isText_of_validate {d : Definition} {m : Metadata} (hd : d.NamesLevels)
    (h : d.validate isRole = .ok m) : ∀ l ∈ m.levels, l.1.IsText := by
  obtain ⟨hlevels, -⟩ := read_of_validate h
  rw [levelsOf] at hlevels
  split at hlevels
  · cases hlevels
  · rename_i entries hentries
    exact isText_of_readLevels (hd entries hentries) (by simp) hlevels

end Definition

/-- A definition that is accepted has been validated, and its rulebook is that of the resource. -/
theorem Registry.exists_validate_of_addResource {r r' : Registry} {resource v : Value}
    {d : Definition} (h : r.addResource resource v = .ok r')
    (hd : Definition.ofValue? v = some d) :
    ∃ name m, resource.name.text? = some name ∧ Text.blank name = false ∧
      d.validate r.hasRole = .ok m ∧ r'.metadata? name = some m := by
  rw [addResource, bind_eq_ok_iff] at h
  obtain ⟨name, hname, h⟩ := h
  obtain ⟨htext, hblank⟩ := requireName_ok hname
  split at h
  · rename_i hnull
    cases v with
    | null => cases hd
    | _ => cases hnull
  · rw [define] at h
    split at h
    · cases h
    · rw [hd] at h
      simp only at h
      split at h
      · cases h
      · rename_i m hm
        cases h
        refine ⟨name, m, htext, hblank, hm, ?_⟩
        rw [metadata?, lookup_assign, if_pos rfl]
        rfl

end AccessControl
