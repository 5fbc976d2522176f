import AccessControl.Proofs.Registry.Coherence
import AccessControl.Proofs.Value.Spelling

/-!
# How a definition spells its names

A definition holds names in many places: the actions and the relationships are lists, the access
levels are keys, the roles are keys, and the entry of a role holds actions as keys and levels and
relationships in lists.  `Definition.spellOut` spells all of them out.

Validation reads every key by its plain name and every list through `Value.requireNames`, so it
does not see how a definition is spelled as long as no list in it is a single member: this is
`validate_spellOut`.  The proof follows the loops of the validation from the inside out, with one
lemma for each of them.

The condition is stated for the lists that validation comes to read, and `Definition.EveryName` goes
through the places of a definition once, for any condition on its keys and on its lists.
-/

namespace AccessControl

variable {isRole : String → Bool} {actions levels relationships : List Value}

namespace Definition

/-! ## 1. The places for names -/

/-- The permissions of a role, spelled out: the actions are keys, and the levels are in lists. -/
def spellOutPermissions (v : Value) : Value :=
  v.mapEntries fun e => (e.1.spellOut, e.2.spellOutNames)

/-- One part of a role's entry, spelled out. -/
def spellOutGrantPart (part : String) (v : Value) : Value :=
  if part = "permissions" then spellOutPermissions v
  else if part = "relationships" then v.spellOutNames
  else v

/-- A role's entry, spelled out. -/
def spellOutGrant (entry : Value) : Value :=
  entry.mapParts spellOutGrantPart

/-- The roles of a definition, spelled out. -/
def spellOutRoles (v : Value) : Value :=
  v.mapEntries fun e => (e.1.spellOut, spellOutGrant e.2)

/-- The definition with all its names spelled out. -/
def spellOut (d : Definition) : Definition :=
  { d with
    actions := d.actions.spellOutNames
    levels := d.levels.spellOutKeys
    relationships := d.relationships.spellOutNames
    roles := spellOutRoles d.roles }

/-- One part of a definition, spelled out. -/
def spellOutPart (part : String) (v : Value) : Value :=
  if part = "actions" ∨ part = "relationships" then v.spellOutNames
  else if part = "access_levels" then v.spellOutKeys
  else if part = "roles" then spellOutRoles v
  else v

/-- A definition that is given as a value, spelled out. -/
def spellOutValue (v : Value) : Value :=
  v.mapParts spellOutPart

/-- In a role's entry every action satisfies `K`, and every list of levels and the list of the
relationships satisfy `L`. -/
def EveryNameOfGrant (K L : Value → Prop) (entry : Value) : Prop :=
  ∀ parts, grantParts entry = .ok parts →
    (∀ es, parts.1.requireEntries = .ok es → ∀ e ∈ es, K e.1 ∧ L e.2) ∧ L parts.2

/-- In the definition every name that is a key satisfies `K` and every list of names satisfies
`L`. -/
structure EveryName (K L : Value → Prop) (d : Definition) : Prop where
  actions : L d.actions
  relationships : L d.relationships
  levels : ∀ es, d.levels.entries? = some es → ∀ e ∈ es, K e.1
  grants : ∀ es, d.roles.requireEntries = .ok es → ∀ e ∈ es, EveryNameOfGrant K L e.2

/-- No list of names in the definition is a single member of an enumeration. -/
def Listed : Definition → Prop :=
  EveryName (fun _ => True) fun v => ¬ v.IsLone

/-- Every name in the definition is a text in one of its two spellings, and no list of names is a
single member. -/
def InTexts : Definition → Prop :=
  EveryName Value.IsText Value.ListsTexts

/-! ## 2. The loops of the validation -/

theorem readLevels_spellOutKeys (acc : List (Value × AccessLevel))
    (entries : List (Value × Value)) :
    readLevels acc (entries.map fun e => (e.1.spellOut, e.2)) = readLevels acc entries := by
  induction entries generalizing acc with
  | nil => rfl
  | cons first rest ih => simp only [List.map_cons, readLevels, Value.name_spellOut, ih]

theorem levelsOf_spellOutKeys (v : Value) : levelsOf v.spellOutKeys = levelsOf v := by
  rw [levelsOf, levelsOf, Value.spellOutKeys, Value.entries?_mapEntries]
  cases v.entries? with
  | none => rfl
  | some es => exact readLevels_spellOutKeys [] es

theorem nameSet_spellOutNames {v : Value} (h : ¬ v.IsLone) :
    nameSet v.spellOutNames = nameSet v := by
  rw [nameSet, nameSet, Value.requireNames_spellOutNames h]

theorem readPermissions_spellOut {entries : List (Value × Value)} (h : ∀ e ∈ entries, ¬ e.2.IsLone)
    (acc : List (Value × List Value)) :
    readPermissions actions levels acc (entries.map fun e => (e.1.spellOut, e.2.spellOutNames)) =
      readPermissions actions levels acc entries := by
  induction entries generalizing acc with
  | nil => rfl
  | cons first rest ih =>
    rw [List.forall_mem_cons] at h
    simp only [List.map_cons, readPermissions, Value.name_spellOut,
      Value.requireNames_spellOutNames h.1, ih h.2]

/-- The two parts of a role's entry are spelled out when the entry is; an entry without parts is
left as it is. -/
theorem grantParts_spellOutGrant (entry : Value) :
    spellOutGrant entry = entry ∨
      grantParts (spellOutGrant entry) =
        (grantParts entry).map fun p => (spellOutPermissions p.1, p.2.spellOutNames) := by
  have hpermissions (v : Value) : (spellOutPermissions v).orElse (.map []) =
      spellOutPermissions (v.orElse (.map [])) := by
    rw [Value.orElse, Value.orElse, spellOutPermissions, Value.truthy_mapEntries]
    split <;> rfl
  have hrelationships (v : Value) : v.spellOutNames.orElse (.tuple []) =
      (v.orElse (.tuple [])).spellOutNames := by
    rw [Value.orElse, Value.orElse, Value.truthy_spellOutNames]
    split <;> rfl
  have hentries (es : List (Value × Value)) (v : Value) (hv : v.entries? = some es) :
      grantParts (spellOutGrant v) =
        (grantParts v).map fun p => (spellOutPermissions p.1, p.2.spellOutNames) := by
    have hfirst := Value.getD_find?_mapPart spellOutGrantPart "permissions" rfl es
    have hsecond := Value.getD_find?_mapPart spellOutGrantPart "relationships" rfl es
    rw [grantParts, spellOutGrant, Value.entries?_mapParts, grantParts, hv]
    simp only [Option.map_some, hfirst, hsecond]
    exact congrArg Except.ok (Prod.ext (hpermissions _) (hrelationships _))
  -- an entry that is neither a map nor a record has no parts, and is left as it is
  cases entry with
  | map es => exact .inr (hentries es _ rfl)
  | view es => exact .inr (hentries es _ rfl)
  | record shape fields =>
    right
    have hfirst := Value.requireField_mapParts spellOutGrantPart "permissions" shape fields
    have hsecond := Value.requireField_mapParts spellOutGrantPart "relationships" shape fields
    have hrecord (fields : List (String × Value)) : grantParts (.record shape fields) = (do
      let permissions ← (Value.record shape fields).requireField "permissions"
      let relationships ← (Value.record shape fields).requireField "relationships"
      return (permissions.orElse (.map []), relationships.orElse (.tuple []))) := rfl
    rw [spellOutGrant, hrecord]
    rw [Value.mapParts] at hfirst hsecond ⊢
    rw [hrecord, hfirst, hsecond]
    cases (Value.record shape fields).requireField "permissions" with
    | error e => rfl
    | ok v =>
      cases (Value.record shape fields).requireField "relationships" with
      | error e => rfl
      | ok w => exact congrArg Except.ok (Prod.ext (hpermissions _) (hrelationships _))
  | _ => exact .inl rfl

theorem readGrant_spellOutGrant {entry : Value}
    (h : EveryNameOfGrant (fun _ => True) (fun v => ¬ v.IsLone) entry) :
    readGrant actions levels relationships (spellOutGrant entry) =
      readGrant actions levels relationships entry := by
  rcases grantParts_spellOutGrant entry with hsame | hparts
  · rw [hsame]
  · rw [readGrant, readGrant, hparts]
    cases hp : grantParts entry with
    | error m => rfl
    | ok parts =>
      obtain ⟨hpermissions, hheld⟩ := h parts hp
      have hentries : (spellOutPermissions parts.1).requireEntries =
          parts.1.requireEntries.map
            (List.map fun e => (e.1.spellOut, e.2.spellOutNames)) :=
        Value.requireEntries_mapEntries _ _
      simp only [map_ok, mapError_ok, ok_bind, hentries, Value.requireNames_spellOutNames hheld]
      cases hes : parts.1.requireEntries with
      | error m => rfl
      | ok es =>
        have hlisted : ∀ e ∈ es, ¬ e.2.IsLone := fun e he => (hpermissions es hes e he).2
        simp only [map_ok, mapError_ok, ok_bind, readPermissions_spellOut hlisted]

theorem readGrants_spellOutRoles {entries : List (Value × Value)}
    (h : ∀ e ∈ entries, EveryNameOfGrant (fun _ => True) (fun v => ¬ v.IsLone) e.2)
    (acc : List (String × Grant)) :
    readGrants isRole actions levels relationships acc
        (entries.map fun e => (e.1.spellOut, spellOutGrant e.2)) =
      readGrants isRole actions levels relationships acc entries := by
  induction entries generalizing acc with
  | nil => rfl
  | cons first rest ih =>
    rw [List.forall_mem_cons] at h
    simp only [List.map_cons, readGrants, Value.name_spellOut, readGrant_spellOutGrant h.1, ih h.2]

/-! ## 3. The definition -/

/-- **Validation does not see how names are spelled**, if no list of names is a single member. -/
theorem validate_spellOut {d : Definition} (h : d.Listed) (isRole : String → Bool) :
    d.spellOut.validate isRole = d.validate isRole := by
  have hidentifier : d.spellOut.identifierOf = d.identifierOf := rfl
  have hactions : nameSet d.spellOut.actions = nameSet d.actions :=
    nameSet_spellOutNames h.actions
  have hrelationships : nameSet d.spellOut.relationships = nameSet d.relationships :=
    nameSet_spellOutNames h.relationships
  have hlevels : levelsOf d.spellOut.levels = levelsOf d.levels := levelsOf_spellOutKeys _
  have hroles : d.spellOut.roles.requireEntries =
      d.roles.requireEntries.map (List.map fun e => (e.1.spellOut, spellOutGrant e.2)) :=
    Value.requireEntries_mapEntries _ _
  simp only [validate, hidentifier, hactions, hrelationships, hlevels, hroles]
  cases hes : d.roles.requireEntries with
  | error m => rfl
  | ok es =>
    simp only [map_ok, mapError_ok, ok_bind, readGrants_spellOutRoles (h.grants es hes)]

theorem ofParts_spellOut (part? : String → Option Value) :
    ofParts (fun part => (part? part).map (spellOutPart part)) = (ofParts part?).spellOut := by
  have hpart (part : String) (absent : Value) (h : spellOutPart part absent = absent) :
      ((part? part).map (spellOutPart part)).getD absent =
        spellOutPart part ((part? part).getD absent) := by
    cases part? part with
    | none => exact h.symm
    | some v => rfl
  rw [ofParts, hpart "identifier" .null rfl, hpart "actions" .null rfl,
    hpart "access_levels" .null rfl, hpart "relationships" (.tuple []) rfl,
    hpart "roles" (.map []) rfl, hpart "model" .null rfl]
  rfl

theorem ofValue?_spellOutValue (v : Value) :
    ofValue? (spellOutValue v) = (ofValue? v).map spellOut := by
  cases v with
  | record shape fields =>
    cases shape with
    | definition =>
      have hfields := funext fun part => Value.lookup_map_part spellOutPart part fields
      rw [spellOutValue, Value.mapParts, ofValue?, hfields, ofParts_spellOut]
      rfl
    | _ => rfl
  | _ => rfl

theorem toValue_spellOut (d : Definition) : d.spellOut.toValue = spellOutValue d.toValue := rfl

theorem ofEntries_spellOut (entries : List (Value × Value)) :
    ofEntries (entries.map (Value.mapPart spellOutPart)) =
      (ofEntries entries).map spellOut := by
  have hfind := funext fun part => Value.find?_mapPart spellOutPart part entries
  have hodd : (entries.map (Value.mapPart spellOutPart)).any (fun e => e.1.text?.isNone) =
      entries.any fun e => e.1.text?.isNone := by
    simp [Value.mapPart, Function.comp_def]
  have hkeys : (entries.map (Value.mapPart spellOutPart)).map (fun e => e.1.text?.getD "") =
      entries.map fun e => e.1.text?.getD "" := by
    simp [Value.mapPart, Function.comp_def]
  simp only [ofEntries, hodd, hkeys, hfind, ofParts_spellOut]
  split
  · rfl
  · split
    · rfl
    · split <;> rfl

/-! ## 4. What is stored -/

theorem isSpelledOut_of_nameSet {v : Value} {names : List Value} (hv : v.ListsTexts)
    (h : nameSet v = .ok names) : ∀ n ∈ names, n.IsSpelledOut := by
  rw [nameSet, bind_eq_ok_iff] at h
  obtain ⟨listed, hlisted, h⟩ := h
  rw [bind_eq_ok_iff] at h
  obtain ⟨⟨⟩, -, h⟩ := h
  cases h
  exact fun n hn =>
    Value.isSpelledOut_of_requireNames hv hlisted n (Value.mem_of_mem_distinct hn)

theorem isSpelledOut_of_readLevels {acc read : List (Value × AccessLevel)}
    {entries : List (Value × Value)} (hentries : ∀ e ∈ entries, e.1.IsText)
    (hacc : ∀ l ∈ acc, l.1.IsSpelledOut) (h : readLevels acc entries = .ok read) :
    ∀ l ∈ read, l.1.IsSpelledOut := by
  induction entries generalizing acc with
  | nil =>
    cases h
    exact hacc
  | cons first rest ih =>
    rw [List.forall_mem_cons] at hentries
    rw [readLevels, bind_eq_ok_iff] at h
    obtain ⟨level, -, h⟩ := h
    rw [bind_eq_ok_iff] at h
    obtain ⟨⟨⟩, -, h⟩ := h
    have hnext := Value.forall_mem_put (V := fun _ : AccessLevel => True) (v := level)
      hentries.1.isSpelledOut_name trivial fun l hl => ⟨hacc l hl, trivial⟩
    exact ih hentries.2 (fun l hl => (hnext l hl).1) h

theorem isSpelledOut_of_readPermissions {acc read : List (Value × List Value)}
    {entries : List (Value × Value)} (hentries : ∀ e ∈ entries, e.1.IsText ∧ e.2.ListsTexts)
    (hacc : ∀ p ∈ acc, p.1.IsSpelledOut ∧ ∀ l ∈ p.2, l.IsSpelledOut)
    (h : readPermissions actions levels acc entries = .ok read) :
    ∀ p ∈ read, p.1.IsSpelledOut ∧ ∀ l ∈ p.2, l.IsSpelledOut := by
  induction entries generalizing acc with
  | nil =>
    cases h
    exact hacc
  | cons first rest ih =>
    rw [List.forall_mem_cons] at hentries
    rw [readPermissions, bind_eq_ok_iff] at h
    obtain ⟨⟨⟩, -, h⟩ := h
    rw [bind_eq_ok_iff] at h
    obtain ⟨names, hnames, h⟩ := h
    rw [bind_eq_ok_iff] at h
    obtain ⟨⟨⟩, -, h⟩ := h
    have hlisted := Value.isSpelledOut_of_requireNames hentries.1.2 (mapError_eq_ok_iff.mp hnames)
    have hnext := Value.forall_mem_put (V := fun ls : List Value => ∀ l ∈ ls, l.IsSpelledOut)
      hentries.1.1.isSpelledOut_name hlisted hacc
    exact ih hentries.2 hnext h

end Definition

/-- Every name in the grant is a text. -/
structure Grant.SpelledOut (g : Grant) : Prop where
  permissions : ∀ p ∈ g.permissions, p.1.IsSpelledOut ∧ ∀ l ∈ p.2, l.IsSpelledOut
  relationships : ∀ x ∈ g.relationships, x.IsSpelledOut

/-- Every name in the rulebook is a text. -/
structure Metadata.SpelledOut (m : Metadata) : Prop where
  actions : ∀ a ∈ m.actions, a.IsSpelledOut
  levels : ∀ l ∈ m.levels, l.1.IsSpelledOut
  relationships : ∀ x ∈ m.relationships, x.IsSpelledOut
  grants : ∀ e ∈ m.grants, e.2.SpelledOut

namespace Definition

theorem spelledOut_of_readGrant {entry : Value} {g : Grant}
    (hentry : EveryNameOfGrant Value.IsText Value.ListsTexts entry)
    (h : readGrant actions levels relationships entry = .ok g) : g.SpelledOut := by
  rw [readGrant, bind_eq_ok_iff] at h
  obtain ⟨parts, hparts, h⟩ := h
  rw [bind_eq_ok_iff] at h
  obtain ⟨entries, hentries, h⟩ := h
  rw [bind_eq_ok_iff] at h
  obtain ⟨permissions, hpermissions, h⟩ := h
  rw [bind_eq_ok_iff] at h
  obtain ⟨held, hheld, h⟩ := h
  rw [bind_eq_ok_iff] at h
  obtain ⟨⟨⟩, -, h⟩ := h
  cases h
  obtain ⟨hkeys, hlist⟩ := hentry parts (mapError_eq_ok_iff.mp hparts)
  have hlisted := Value.isSpelledOut_of_requireNames hlist (mapError_eq_ok_iff.mp hheld)
  exact {
    permissions := isSpelledOut_of_readPermissions (hkeys entries (mapError_eq_ok_iff.mp hentries))
      (List.forall_mem_nil _) hpermissions
    relationships := fun x hx => hlisted x (Value.mem_of_mem_distinct hx) }

theorem spelledOut_of_readGrants {acc grants : List (String × Grant)}
    {entries : List (Value × Value)}
    (hentries : ∀ e ∈ entries, EveryNameOfGrant Value.IsText Value.ListsTexts e.2)
    (hacc : ∀ e ∈ acc, e.2.SpelledOut)
    (h : readGrants isRole actions levels relationships acc entries = .ok grants) :
    ∀ e ∈ grants, e.2.SpelledOut := by
  induction entries generalizing acc with
  | nil =>
    cases h
    exact hacc
  | cons first rest ih =>
    rw [List.forall_mem_cons] at hentries
    rw [readGrants, bind_eq_ok_iff] at h
    obtain ⟨-, -, h⟩ := h
    split at h
    · cases h
    · rename_i role _
      split at h
      · rw [bind_eq_ok_iff] at h
        obtain ⟨g, hg, h⟩ := h
        rw [assign] at h
        have hnext : ∀ e ∈ upsert role (fun _ => g) acc, True ∧ e.2.SpelledOut :=
          forall_mem_upsert (K := fun _ => True) (V := Grant.SpelledOut) trivial
            (fun _ => spelledOut_of_readGrant hentries.1 hg) fun e he => ⟨trivial, hacc e he⟩
        exact ih hentries.2 (fun e he => (hnext e he).2) h
      · cases h

/-- **A rulebook holds plain texts**, however the names in its definition are spelled, if they are
texts and no list of them is a single member. -/
theorem spelledOut_of_validate {d : Definition} {m : Metadata} (hd : d.InTexts)
    (h : d.validate isRole = .ok m) : m.SpelledOut := by
  rw [validate, bind_eq_ok_iff] at h
  obtain ⟨identifier, -, h⟩ := h
  rw [bind_eq_ok_iff] at h
  obtain ⟨actions, hactions, h⟩ := h
  rw [bind_eq_ok_iff] at h
  obtain ⟨relationships, hrelationships, h⟩ := h
  rw [bind_eq_ok_iff] at h
  obtain ⟨levels, hlevels, h⟩ := h
  rw [bind_eq_ok_iff] at h
  obtain ⟨entries, hentries, h⟩ := h
  rw [bind_eq_ok_iff] at h
  obtain ⟨grants, hgrants, h⟩ := h
  cases h
  have hkeys : ∀ l ∈ levels, l.1.IsSpelledOut := by
    rw [levelsOf] at hlevels
    split at hlevels
    · cases hlevels
    · rename_i es hes
      exact isSpelledOut_of_readLevels (hd.levels es hes) (List.forall_mem_nil _) hlevels
  exact {
    actions := isSpelledOut_of_nameSet hd.actions (mapError_eq_ok_iff.mp hactions)
    levels := hkeys
    relationships :=
      isSpelledOut_of_nameSet hd.relationships (mapError_eq_ok_iff.mp hrelationships)
    grants := spelledOut_of_readGrants (hd.grants entries (mapError_eq_ok_iff.mp hentries))
      (List.forall_mem_nil _) hgrants }

end Definition

end AccessControl
