import AccessControl.Registry.Basic

/-!
# Names that are texts

A name can be any value that can be a key, but nearly always it is a text, given as such or as
the member of an enumeration of texts.  For such values the questions that a value may fail to
answer have plain answers: they can be looked up, they are the same when their characters are,
and a list of them can be joined.
-/

namespace AccessControl

namespace Value

/-- The value is a text, directly or as the member of an enumeration of texts. -/
def IsText (v : Value) : Prop :=
  ∃ s, v.text? = some s

theorem isText_text (s : String) : (text s).IsText := ⟨s, rfl⟩

theorem eq_of_text? {v : Value} {s : String} (h : v.text? = some s) :
    v = text s ∨ ∃ e n, v = member e n (text s) := by
  unfold text? at h
  split at h
  · exact Or.inl (congrArg text (Option.some.inj h))
  · exact Or.inr ⟨_, _, congrArg _ (congrArg text (Option.some.inj h))⟩
  · cases h

theorem name_of_text? {v : Value} {s : String} (h : v.text? = some s) : v.name = text s := by
  rcases eq_of_text? h with rfl | ⟨e, n, rfl⟩
  · rfl
  · rfl

/-- A value whose plain name is a text is this text. -/
theorem text?_of_name {v : Value} {s : String} (h : v.name = text s) : v.text? = some s := by
  cases v with
  | member e n w =>
    rw [name_member] at h
    rw [h]
    rfl
  | text t => exact congrArg Value.text? h
  | _ => cases h

theorem unhashable?_of_text? {v : Value} {s : String} (h : v.text? = some s) :
    v.unhashable? = none := by
  rcases eq_of_text? h with rfl | ⟨e, n, rfl⟩
  · simp [unhashable?]
  · simp [unhashable?]

section LookingUp

variable {ε : Type} {misuse : Misuse → ε} {v : Value}

theorem requireKey_eq_ok_iff : v.requireKey misuse = .ok () ↔ v.unhashable? = none := by
  rw [requireKey]
  cases v.unhashable? <;> simp

theorem requireKey_of_isText (h : v.IsText) : v.requireKey misuse = .ok () := by
  obtain ⟨s, hs⟩ := h
  exact requireKey_eq_ok_iff.mpr (unhashable?_of_text? hs)

/-- Only for a set it makes a difference where a value is looked up. -/
theorem requireElement_of_ne_set (h : ∀ items, v ≠ set items) :
    v.requireElement misuse = v.requireKey misuse := by
  rw [requireElement]
  exact h

theorem requireElement_of_isText (h : v.IsText) : v.requireElement misuse = .ok () := by
  rw [requireElement_of_ne_set]
  · exact requireKey_of_isText h
  · rintro items rfl
    obtain ⟨s, hs⟩ := h
    cases hs

end LookingUp

/-- Two texts are the same when their characters are. -/
theorem same_of_text? {v w : Value} {s t : String} (hv : v.text? = some s)
    (hw : w.text? = some t) : same v w = (s == t) := by
  rcases eq_of_text? hv with rfl | ⟨e, n, rfl⟩ <;> rcases eq_of_text? hw with rfl | ⟨e', n', rfl⟩
  all_goals simp [same, sameScalar]

theorem IsText.name {v : Value} (h : v.IsText) : v.name.IsText := by
  obtain ⟨s, hs⟩ := h
  rw [name_of_text? hs]
  exact isText_text s

/-- Nothing but a text is the same as a text. -/
theorem text?_of_same {v w : Value} {s : String} (hw : w.text? = some s) (h : same v w = true) :
    v.text? = some s := by
  have hscalar : same v w = sameScalar v w := by
    rcases eq_of_text? hw with rfl | ⟨e, n, rfl⟩
    all_goals
      cases v with
      | record shape fields => cases shape <;> rfl
      | _ => rfl
  rw [hscalar, sameScalar, hw] at h
  cases hv : v.text? with
  | none =>
    rw [hv] at h
    cases h
  | some t =>
    rw [hv] at h
    rw [eq_of_beq h]

theorem same_eq_true_iff_of_isText {v w : Value} (hw : w.IsText) :
    v.same w = true ↔ v.text? = w.text? := by
  obtain ⟨s, hs⟩ := hw
  constructor
  · intro h
    rw [text?_of_same hs h, hs]
  · intro h
    rw [same_of_text? (h.trans hs) hs]
    exact beq_self_eq_true s

/-- A text is the same as nothing but a text. -/
theorem isText_of_same {v w : Value} (hv : v.IsText) (h : same v w = true) : w.IsText := by
  obtain ⟨s, hs⟩ := hv
  have hscalar : same v w = sameScalar v w := by
    rcases eq_of_text? hs with rfl | ⟨e, n, rfl⟩
    all_goals cases w <;> rfl
  rw [hscalar, sameScalar, hs] at h
  cases hw : w.text? with
  | none =>
    rw [hw] at h
    cases h
  | some t => exact ⟨t, hw⟩

theorem same_trans_of_isText {u v w : Value} (hv : v.IsText) (hw : w.IsText)
    (huv : same u v = true) (hvw : same v w = true) : same u w = true := by
  obtain ⟨s, hs⟩ := hv
  obtain ⟨t, ht⟩ := hw
  rw [same_of_text? hs ht] at hvw
  rw [same_of_text? (text?_of_same hs huv) ht, hvw]

/-- What is found under a key is the value of one of the entries. -/
theorem mem_of_find? {α : Type} {key : Value} {x : α} {entries : List (Value × α)}
    (h : find? key entries = some x) : ∃ k, (k, x) ∈ entries ∧ same k key = true := by
  induction entries with
  | nil => cases h
  | cons e rest ih =>
    obtain ⟨k, y⟩ := e
    rw [find?] at h
    split at h
    · rename_i hk
      rw [← Option.some.inj h]
      exact ⟨k, List.mem_cons_self .., hk⟩
    · obtain ⟨k', hmem, hk'⟩ := ih h
      exact ⟨k', List.mem_cons_of_mem _ hmem, hk'⟩

/-- What holds of all keys and of all values holds so after one entry is put in. -/
theorem forall_mem_put {α : Type} {K : Value → Prop} {V : α → Prop} {key : Value} {v : α}
    {acc : List (Value × α)} (hkey : K key) (hv : V v) (hacc : ∀ e ∈ acc, K e.1 ∧ V e.2) :
    ∀ e ∈ put key v acc, K e.1 ∧ V e.2 := by
  induction acc with
  | nil =>
    rw [put, List.forall_mem_singleton]
    exact ⟨hkey, hv⟩
  | cons first rest ih =>
    obtain ⟨k, w⟩ := first
    rw [List.forall_mem_cons] at hacc
    rw [put]
    split
    · rw [List.forall_mem_cons]
      exact ⟨⟨hacc.1.1, hv⟩, hacc.2⟩
    · rw [List.forall_mem_cons]
      exact ⟨hacc.1, ih hacc.2⟩

/-- A key that is the same as one of the keys is found. -/
theorem exists_find?_of_any {α : Type} {key : Value} {entries : List (Value × α)}
    (h : (entries.map Prod.fst).any (same · key) = true) :
    ∃ a, find? key entries = some a := by
  induction entries with
  | nil => cases h
  | cons first rest ih =>
    obtain ⟨k, a⟩ := first
    rw [List.map_cons, List.any_cons, Bool.or_eq_true] at h
    rw [find?]
    by_cases hk : same k key = true
    · exact ⟨a, if_pos hk⟩
    · rw [if_neg hk]
      exact ih (h.resolve_left hk)

end Value

namespace Registry

/-- A resource whose name is a text that is not blank can be asked for. -/
theorem resourceDefinition_of_text? (r : Registry) {v : Value} {s : String}
    (hs : v.text? = some s) (hblank : Text.blank s = false) :
    r.resourceDefinition v = .ok (r.metadata? s) := by
  have hname : requireResource v = .ok s := by
    rw [requireResource, requireName, Value.name_of_text? hs, Value.text?_text]
    simp [hblank]
  rw [resourceDefinition, hname]
  rfl

end Registry

end AccessControl
