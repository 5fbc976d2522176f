import AccessControl.Registry.Validation
import AccessControl.Proofs.Registry.Table
import AccessControl.Proofs.Value.Names

/-!
# Two spellings of a name

The same name can be spelled as a text or as a member of an enumeration of texts.  `Value.spellOut`
replaces a member by its text, and two values are spellings of one name when they are the same
once they are spelled out.

Names stand in three kinds of places: alone, as the keys of a map, and in a list.  What counts as a
list is wide: a collection, the values of a map, or a single name that is the list of itself.  So
spelling out a list, `Value.spellOutNames`, looks in all of these.

## What reads a list

`Value.names?` takes the plain name behind every element, and so it does not see how the elements
are spelled.  There is one exception.  A single text is read as the list of itself, and so is a
single member, but the member is not replaced by the text behind it.  `Value.IsLone` are the
values for which this matters; for all others a list and the list spelled out have the same names,
`names?_spellOutNames`.
-/

namespace AccessControl

namespace Value

variable {α : Type}

/-- The name, spelled out: a member of an enumeration of texts is replaced by its text. -/
def spellOut : Value → Value
  | member _ _ (text s) => text s
  | v => v

/-- The value is a single member of an enumeration of texts. -/
def IsLone (v : Value) : Prop :=
  ∃ e n s, v = member e n (text s)

@[simp] theorem spellOut_text (s : String) : (text s).spellOut = text s := rfl

/-- Only a single member is spelled out differently. -/
theorem spellOut_of_not_isLone {v : Value} (h : ¬ v.IsLone) : v.spellOut = v := by
  unfold spellOut
  split
  · rename_i e n s
    exact absurd ⟨e, n, s, rfl⟩ h
  · rfl

@[simp] theorem name_spellOut (v : Value) : v.spellOut.name = v.name := by
  unfold spellOut
  split <;> rfl

@[simp] theorem truthy_spellOut (v : Value) : v.spellOut.truthy = v.truthy := by
  unfold spellOut
  split <;> rfl

@[simp] theorem spellOut_spellOut (v : Value) : v.spellOut.spellOut = v.spellOut := by
  by_cases h : v.IsLone
  · obtain ⟨e, n, s, rfl⟩ := h
    rfl
  · rw [spellOut_of_not_isLone h, spellOut_of_not_isLone h]

/-! ## 1. Places inside a value -/

/-- Every element of a list, a tuple or a set is replaced. -/
def mapElements (f : Value → Value) : Value → Value
  | list items => list (items.map f)
  | tuple items => tuple (items.map f)
  | set items => set (items.map f)
  | v => v

/-- Every entry of a map is replaced. -/
def mapEntries (f : Value × Value → Value × Value) : Value → Value
  | map es => map (es.map f)
  | view es => view (es.map f)
  | v => v

/-- An entry of a map whose keys are texts, with a replacement for the value under each text. -/
def mapPart (f : String → Value → Value) (e : Value × Value) : Value × Value :=
  (e.1, e.1.text?.elim e.2 fun key => f key e.2)

/-- Every part of a record, or of a map that is given in place of a record, is replaced. -/
def mapParts (f : String → Value → Value) : Value → Value
  | record shape fields => record shape (fields.map fun p => (p.1, f p.1 p.2))
  | v => v.mapEntries (mapPart f)

/-- The keys of a map, spelled out. -/
def spellOutKeys (v : Value) : Value :=
  v.mapEntries fun e => (e.1.spellOut, e.2)

/-- The names of a list, spelled out. -/
def spellOutNames : Value → Value
  | list items => list (items.map spellOut)
  | tuple items => tuple (items.map spellOut)
  | set items => set (items.map spellOut)
  | map es => map (es.map fun e => (e.1, e.2.spellOut))
  | view es => view (es.map fun e => (e.1, e.2.spellOut))
  | v => v.spellOut

/-- The elements that a value goes through, spelled out: those of a map are its keys. -/
def spellOutItems : Value → Value
  | list items => list (items.map spellOut)
  | tuple items => tuple (items.map spellOut)
  | set items => set (items.map spellOut)
  | map es => map (es.map fun e => (e.1.spellOut, e.2))
  | view es => view (es.map fun e => (e.1.spellOut, e.2))
  | v => v.spellOut

/-! ## 2. What replacements keep -/

section Kept

variable (f : Value → Value) (g : Value × Value → Value × Value) (h : String → Value → Value)
  (v : Value)

theorem entries?_mapEntries : (v.mapEntries g).entries? = v.entries?.map (List.map g) := by
  cases v <;> rfl

theorem truthy_mapEntries : (v.mapEntries g).truthy = v.truthy := by
  cases v <;> simp [mapEntries, truthy]

theorem withoutField_mapEntries (key : String) :
    (v.mapEntries g).withoutField key = v.withoutField key := by
  cases v <;> rfl

theorem entries?_mapParts : (v.mapParts h).entries? = v.entries?.map (List.map (mapPart h)) := by
  cases v <;> rfl

theorem isNull_mapParts : (v.mapParts h).isNull = v.isNull := by
  cases v <;> rfl

theorem typeName_mapParts : (v.mapParts h).typeName = v.typeName := by
  cases v <;> rfl

end Kept

/-- The part of a map under a text is replaced by what replaces the value under this text. -/
theorem find?_mapPart (f : String → Value → Value) (key : String) (es : List (Value × Value)) :
    find? (text key) (es.map (mapPart f)) = (find? (text key) es).map (f key) := by
  induction es with
  | nil => rfl
  | cons e rest ih =>
    obtain ⟨k, v⟩ := e
    rw [List.map_cons, mapPart, find?, find?, ih]
    by_cases hk : same k (text key) = true
    · have hkey : k.text? = some key := text?_of_same rfl hk
      rw [if_pos hk, if_pos hk, hkey]
      rfl
    · rw [if_neg hk, if_neg hk]

/-- The same where a part that is not there counts as nothing. -/
theorem getD_find?_mapPart (f : String → Value → Value) (key : String) (hnull : f key null = null)
    (es : List (Value × Value)) :
    (find? (text key) (es.map (mapPart f))).getD null =
      f key ((find? (text key) es).getD null) := by
  rw [find?_mapPart]
  cases find? (text key) es with
  | none => exact hnull.symm
  | some v => rfl

/-- The field of a record is replaced by what replaces the fields of this name. -/
theorem lookup_map_part (f : String → α → α) (key : String) (fields : List (String × α)) :
    (fields.map fun p => (p.1, f p.1 p.2)).lookup key = (fields.lookup key).map (f key) := by
  induction fields with
  | nil => rfl
  | cons p rest ih =>
    obtain ⟨k, v⟩ := p
    rw [List.map_cons, lookup_cons_eq_ite, lookup_cons_eq_ite, ih]
    split
    · rename_i hk
      rw [hk]
      rfl
    · rfl

/-- A field that a record has to have is replaced with the record. -/
theorem requireField_mapParts (f : String → Value → Value) (key : String) (shape : Shape)
    (fields : List (String × Value)) :
    ((record shape fields).mapParts f).requireField key =
      ((record shape fields).requireField key).map (f key) := by
  have hfield : ((record shape fields).mapParts f).field? key =
      ((record shape fields).field? key).map (f key) := lookup_map_part f key fields
  have hmisuse : ((record shape fields).mapParts f).withoutField key =
      (record shape fields).withoutField key := by
    cases shape <;> rfl
  rw [requireField, requireField, hfield, hmisuse]
  cases (record shape fields).field? key with
  | none => rfl
  | some v => rfl

/-! ## 3. Lists of names -/

/-- **Spellings in a list are not seen**, unless the list is a single member. -/
theorem names?_spellOutNames {v : Value} (h : ¬ v.IsLone) : v.spellOutNames.names? = v.names? := by
  cases v with
  | member e n w => rw [spellOutNames, spellOut_of_not_isLone h] <;> simp
  | list items => simp [spellOutNames, names?, items?]
  | tuple items => simp [spellOutNames, names?, items?]
  | set items => simp [spellOutNames, names?, items?]
  | map es => simp [spellOutNames, names?]
  | view es => simp [spellOutNames, names?]
  | _ => rfl

theorem requireNames_spellOutNames {v : Value} (h : ¬ v.IsLone) :
    v.spellOutNames.requireNames = v.requireNames := by
  have hkind : v.spellOutNames.operandName = v.operandName := by
    cases v with
    | member e n w => rw [spellOutNames, spellOut_of_not_isLone h] <;> simp
    | _ => rfl
  rw [requireNames, requireNames, names?_spellOutNames h, hkind]

theorem truthy_spellOutNames (v : Value) : v.spellOutNames.truthy = v.truthy := by
  cases v with
  | list items => simp [spellOutNames, truthy]
  | tuple items => simp [spellOutNames, truthy]
  | set items => simp [spellOutNames, truthy]
  | map es => simp [spellOutNames, truthy]
  | view es => simp [spellOutNames, truthy]
  | member e n w => exact truthy_spellOut (member e n w)
  | _ => rfl

/-- The elements of any collection have the same plain names, also those of a single member, which
are its characters. -/
theorem map_name_spellOutItems (v : Value) :
    v.spellOutItems.items?.map (List.map name) = v.items?.map (List.map name) := by
  have hname : name ∘ spellOut = name := funext name_spellOut
  cases v with
  | list items => simp only [spellOutItems, items?, Option.map_some, List.map_map, hname]
  | tuple items => simp only [spellOutItems, items?, Option.map_some, List.map_map, hname]
  | set items => simp only [spellOutItems, items?, Option.map_some, List.map_map, hname]
  | map es => simp [spellOutItems, items?]
  | view es => simp [spellOutItems, items?]
  | member e n w => cases w <;> rfl
  | _ => rfl

/-- A value that has no elements is left as it is. -/
theorem spellOutItems_of_items? {v : Value} (h : v.items? = none) : v.spellOutItems = v := by
  cases v with
  | member e n w =>
    cases w with
    | text s => cases h
    | _ => rfl
  | list items => cases h
  | tuple items => cases h
  | set items => cases h
  | map es => cases h
  | view es => cases h
  | _ => rfl

theorem truthy_spellOutItems (v : Value) : v.spellOutItems.truthy = v.truthy := by
  cases v with
  | list items => simp [spellOutItems, truthy]
  | tuple items => simp [spellOutItems, truthy]
  | set items => simp [spellOutItems, truthy]
  | map es => simp [spellOutItems, truthy]
  | view es => simp [spellOutItems, truthy]
  | member e n w => exact truthy_spellOut (member e n w)
  | _ => rfl

/-- The entries of a map are replaced with the map. -/
theorem requireEntries_mapEntries (g : Value × Value → Value × Value) (v : Value) :
    (v.mapEntries g).requireEntries = v.requireEntries.map (List.map g) := by
  rw [requireEntries, requireEntries, truthy_mapEntries, entries?_mapEntries,
    withoutField_mapEntries]
  split
  · rfl
  · cases v.entries? with
    | none => rfl
    | some es => rfl

/-! ## 4. Comparing -/

/-- Texts and members are compared by their characters. -/
theorem same_spellOut (v w : Value) : same v.spellOut w.spellOut = same v w := by
  have hleft (w : Value) : same v.spellOut w = same v w := by
    by_cases h : v.IsLone
    · obtain ⟨e, n, s, rfl⟩ := h
      cases w <;> rfl
    · rw [spellOut_of_not_isLone h]
  rw [hleft]
  by_cases h : w.IsLone
  · obtain ⟨e, n, s, rfl⟩ := h
    cases v with
    | record shape fields => cases shape <;> rfl
    | _ => rfl
  · rw [spellOut_of_not_isLone h]

theorem le?_spellOut (v w : Value) : le? v.spellOut w.spellOut = le? v w := by
  have hleft (w : Value) : le? v.spellOut w = le? v w := by
    by_cases h : v.IsLone
    · obtain ⟨e, n, s, rfl⟩ := h
      cases w <;> rfl
    · rw [spellOut_of_not_isLone h]
  rw [hleft]
  by_cases h : w.IsLone
  · obtain ⟨e, n, s, rfl⟩ := h
    cases v <;> rfl
  · rw [spellOut_of_not_isLone h]

/-- Only a collection can be spelled out here: an enumeration holds members and no texts, so the
spelling of the element counts. -/
theorem contains?_spellOut (item v : Value) : contains? item v.spellOut = contains? item v := by
  by_cases h : v.IsLone
  · obtain ⟨e, n, s, rfl⟩ := h
    rfl
  · rw [spellOut_of_not_isLone h]

/-! ## 5. What is read is spelled out -/

/-- The value is a text, and not a member of an enumeration. -/
def IsSpelledOut (v : Value) : Prop :=
  ∃ s, v = text s

/-- The value lists names, each of them a text in one of its two spellings, and it is not a single
member. -/
def ListsTexts : Value → Prop
  | list items => ∀ v ∈ items, v.IsText
  | tuple items => ∀ v ∈ items, v.IsText
  | set items => ∀ v ∈ items, v.IsText
  | map es => ∀ e ∈ es, e.2.IsText
  | view es => ∀ e ∈ es, e.2.IsText
  | text _ => True
  | callable (.enumeration _ members) => ∀ m ∈ members, m.2.IsSpelledOut
  | _ => False

theorem IsText.isSpelledOut_name {v : Value} (h : v.IsText) : v.name.IsSpelledOut := by
  obtain ⟨s, hs⟩ := h
  exact ⟨s, name_of_text? hs⟩

theorem mem_of_mem_distinctMembers {m : String × Value} {members : List (String × Value)}
    {seen : List Value} (h : m ∈ distinctMembers same seen members) : m ∈ members := by
  induction members generalizing seen with
  | nil => cases h
  | cons first rest ih =>
    rw [distinctMembers] at h
    split at h
    · exact List.mem_cons_of_mem _ (ih h)
    · rcases List.mem_cons.mp h with rfl | h
      · exact List.mem_cons_self ..
      · exact List.mem_cons_of_mem _ (ih h)

/-- **The names of a list of texts are spelled out** when they are read. -/
theorem isSpelledOut_of_names? {v : Value} {names : List Value} (hv : v.ListsTexts)
    (h : v.names? = some names) : ∀ n ∈ names, n.IsSpelledOut := by
  have hitems (items : List Value) (hitems : ∀ w ∈ items, w.IsText)
      (h : some (items.map name) = some names) : ∀ n ∈ names, n.IsSpelledOut := by
    cases h
    rw [List.forall_mem_map]
    exact fun w hw => (hitems w hw).isSpelledOut_name
  have hvalues (es : List (Value × Value)) (hes : ∀ e ∈ es, e.2.IsText)
      (h : some (es.map fun e => e.2.name) = some names) : ∀ n ∈ names, n.IsSpelledOut := by
    cases h
    rw [List.forall_mem_map]
    exact fun e he => (hes e he).isSpelledOut_name
  cases v with
  | list items => exact hitems items hv h
  | tuple items => exact hitems items hv h
  | set items => exact hitems items hv h
  | map es => exact hvalues es hv h
  | view es => exact hvalues es hv h
  | text s =>
    cases h
    rw [List.forall_mem_singleton]
    exact ⟨s, rfl⟩
  | callable f =>
    cases f with
    | enumeration e members =>
      cases h
      rw [List.map_map, List.forall_mem_map]
      exact fun m hm => hv m (mem_of_mem_distinctMembers hm)
    | _ => exact hv.elim
  | _ => exact hv.elim

theorem isSpelledOut_of_requireNames {v : Value} {names : List Value} (hv : v.ListsTexts)
    (h : v.requireNames = .ok names) : ∀ n ∈ names, n.IsSpelledOut := by
  rw [requireNames] at h
  split at h
  · rename_i found hfound
    cases h
    exact isSpelledOut_of_names? hv hfound
  · cases h

end Value

end AccessControl
