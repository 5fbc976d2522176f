import AccessControl.Proofs.Value.Names

/-!
# Texts in order

Names are sorted before they are shown.  Not all values have an order, so sorting may fail, but for
texts it does not: they are in the order of their code points (`exists_sorted?`).

If no two of the names are the same, each of them is before the next one, and not just before or
the same (`pairwise_inOrder`).  A list of names that validation has made is like this,
because it is put together with `Value.addTo`: `unlike_distinct`.
-/

namespace AccessControl.Value

variable {v w : Value} {s t : String} {names : List Value}

/-- The characters of a text; none if the value is no text. -/
def spelling (v : Value) : String :=
  v.text?.getD ""

/-- No two of the values are the same. -/
def Unlike (names : List Value) : Prop :=
  names.Pairwise fun v w => same v w = false

theorem spelling_of_text? (h : v.text? = some s) : v.spelling = s := by
  rw [spelling, h, Option.getD_some]

theorem IsText.text?_eq (h : v.IsText) : v.text? = some v.spelling := by
  obtain ⟨s, hs⟩ := h
  rw [spelling_of_text? hs, hs]

/-- The names are texts with these characters. -/
theorem map_text?_eq_iff (htexts : ∀ v ∈ names, v.IsText) {parts : List String} :
    names.map text? = parts.map some ↔ parts = names.map spelling := by
  have hspelled : names.map text? = (names.map spelling).map some := by
    rw [List.map_map]
    exact List.map_congr_left fun v hv => (htexts v hv).text?_eq
  rw [hspelled, List.map_inj_right fun _ _ => Option.some.inj, eq_comm]

/-! ## 1. Values that are unlike -/

/-- Adding a value to a list does not repeat any. -/
theorem Unlike.addTo (h : Unlike names) (v : Value) : Unlike (addTo names v) := by
  rw [Value.addTo]
  split
  · exact h
  · rename_i hnew
    rw [List.any_eq_true, not_exists] at hnew
    refine List.pairwise_append.mpr ⟨h, List.pairwise_singleton .., fun w hw x hx => ?_⟩
    rw [List.mem_singleton.mp hx]
    exact Bool.eq_false_iff.mpr fun hsame => hnew w ⟨hw, hsame⟩

theorem Unlike.foldl_addTo {acc : List Value} (h : Unlike acc) (items : List Value) :
    Unlike (items.foldl Value.addTo acc) := by
  induction items generalizing acc with
  | nil => exact h
  | cons v rest ih => exact ih (h.addTo v)

theorem unlike_distinct (items : List Value) : Unlike (distinct items) :=
  Unlike.foldl_addTo List.Pairwise.nil items

/-- Texts that are unlike have different characters. -/
theorem Unlike.nodup_spelling (h : Unlike names) (htexts : ∀ v ∈ names, v.IsText) :
    (names.map spelling).Nodup := by
  rw [List.Nodup, List.pairwise_map]
  refine h.imp_of_mem fun {v w} hv hw hunlike hsame => ?_
  rw [same_of_text? (htexts v hv).text?_eq (htexts w hw).text?_eq, hsame, beq_self_eq_true]
    at hunlike
  cases hunlike

/-- Under a text there is what has been filed under it, if no key is there twice. -/
theorem find?_eq_some_iff_of_unlike {α : Type} {entries : List (Value × α)} {x : α}
    (h : Unlike (entries.map Prod.fst)) (hv : v.text? = some s) :
    find? v entries = some x ↔ ∃ k, (k, x) ∈ entries ∧ k.text? = some s := by
  constructor
  · intro hfind
    obtain ⟨k, hk, hsame⟩ := mem_of_find? hfind
    exact ⟨k, hk, text?_of_same hv hsame⟩
  · rintro ⟨k, hk, hs⟩
    induction entries with
    | nil => cases hk
    | cons first rest ih =>
      obtain ⟨k', y⟩ := first
      rw [Unlike, List.map_cons, List.pairwise_cons] at h
      rw [find?]
      rcases List.mem_cons.mp hk with heq | hrest
      · cases heq
        rw [if_pos]
        rw [same_of_text? hs hv, beq_self_eq_true]
      · rw [if_neg]
        · exact ih h.2 hrest
        · -- the first key is unlike the one further down, which has the same characters
          intro hsame
          have hunlike := h.1 k (List.mem_map_of_mem hrest)
          rw [same_of_text? (text?_of_same hv hsame) hs, beq_self_eq_true] at hunlike
          cases hunlike

/-! ## 2. Sorting -/

theorem lt?_of_text? (hv : v.text? = some s) (hw : w.text? = some t) :
    lt? v w = some (decide (s < t)) := by
  have hle : le? v w = some (!decide (t < s)) := by
    rcases eq_of_text? hv with rfl | ⟨e, n, rfl⟩ <;> rcases eq_of_text? hw with rfl | ⟨e', n', rfl⟩
    all_goals simp [le?]
  rw [lt?, hle, same_of_text? hv hw, Option.map_some, Option.some.injEq]
  rcases Std.lt_trichotomy s t with hlt | rfl | hgt
  · have hne : s ≠ t := fun h => String.lt_irrefl _ (h ▸ hlt)
    simp [hlt, String.lt_asymm hlt, hne]
  · simp
  · simp [hgt, String.lt_asymm hgt]

/-- A text can be put in its place among texts. -/
theorem exists_insertSorted (hv : v.text? = some s) {sorted : List Value}
    (htexts : ∀ w ∈ sorted, w.IsText) :
    ∃ l, insertSorted v sorted = some l ∧ l.Perm (v :: sorted) ∧
      ((sorted.map spelling).Pairwise (· ≤ ·) → (l.map spelling).Pairwise (· ≤ ·)) := by
  induction sorted with
  | nil => exact ⟨[v], rfl, List.Perm.refl _, fun _ => List.pairwise_singleton ..⟩
  | cons w rest ih =>
    rw [List.forall_mem_cons] at htexts
    have hlt := lt?_of_text? hv htexts.1.text?_eq
    rw [insertSorted, hlt]
    by_cases hbefore : s < w.spelling
    · refine ⟨v :: w :: rest, by simp [hbefore], List.Perm.refl _, fun hsorted => ?_⟩
      rw [List.map_cons, List.pairwise_cons, spelling_of_text? hv]
      refine ⟨fun x hx => ?_, hsorted⟩
      rw [List.map_cons, List.pairwise_cons] at hsorted
      rcases List.mem_cons.mp hx with rfl | hx
      · exact Std.le_of_lt hbefore
      · exact Std.le_trans (Std.le_of_lt hbefore) (hsorted.1 x hx)
    · obtain ⟨l, hl, hperm, hkeeps⟩ := ih htexts.2
      refine ⟨w :: l, by simp [hbefore, hl], ?_, fun hsorted => ?_⟩
      · exact (hperm.cons w).trans (List.Perm.swap v w rest)
      · rw [List.map_cons, List.pairwise_cons] at hsorted ⊢
        refine ⟨fun x hx => ?_, hkeeps hsorted.2⟩
        have hmem := (hperm.map spelling).mem_iff.mp hx
        rw [List.map_cons, spelling_of_text? hv] at hmem
        rcases List.mem_cons.mp hmem with rfl | hmem
        · exact Std.not_lt.mp hbefore
        · exact hsorted.1 x hmem

/-- **Texts can be sorted.** -/
theorem exists_sorted? (htexts : ∀ v ∈ names, v.IsText) :
    ∃ sorted, sorted? names = some sorted ∧ sorted.Perm names ∧
      (sorted.map spelling).Pairwise (· ≤ ·) := by
  induction names with
  | nil => exact ⟨[], rfl, List.Perm.refl _, List.Pairwise.nil⟩
  | cons v rest ih =>
    rw [List.forall_mem_cons] at htexts
    obtain ⟨sorted, hsorted, hperm, hle⟩ := ih htexts.2
    obtain ⟨l, hl, hinserted, hkeeps⟩ := exists_insertSorted htexts.1.text?_eq
      fun w hw => htexts.2 w (hperm.mem_iff.mp hw)
    refine ⟨l, ?_, hinserted.trans (hperm.cons v), hkeeps hle⟩
    rw [sorted?, hsorted]
    exact hl

/-- The names in order, as long as they have one. -/
def inOrder (names : List Value) : List Value :=
  (sorted? names).getD names

theorem sorted?_eq_inOrder (htexts : ∀ v ∈ names, v.IsText) :
    sorted? names = some (inOrder names) := by
  obtain ⟨sorted, hsorted, -⟩ := exists_sorted? htexts
  rw [inOrder, hsorted, Option.getD_some]

theorem inOrder_perm (htexts : ∀ v ∈ names, v.IsText) : (inOrder names).Perm names := by
  obtain ⟨sorted, hsorted, hperm, -⟩ := exists_sorted? htexts
  rw [inOrder, hsorted, Option.getD_some]
  exact hperm

theorem mem_map_spelling_inOrder_iff (htexts : ∀ v ∈ names, v.IsText) :
    s ∈ (inOrder names).map spelling ↔ ∃ v ∈ names, v.text? = some s := by
  rw [List.mem_map]
  constructor
  · rintro ⟨v, hv, rfl⟩
    have hv' := (inOrder_perm htexts).mem_iff.mp hv
    exact ⟨v, hv', (htexts v hv').text?_eq⟩
  · rintro ⟨v, hv, hs⟩
    exact ⟨v, (inOrder_perm htexts).mem_iff.mpr hv, spelling_of_text? hs⟩

/-- **Texts that are unlike increase** once they are in order. -/
theorem pairwise_inOrder (htexts : ∀ v ∈ names, v.IsText) (hunlike : Unlike names) :
    ((inOrder names).map spelling).Pairwise (· < ·) := by
  have hnodup : ((inOrder names).map spelling).Nodup :=
    ((inOrder_perm htexts).map spelling).nodup_iff.mpr (hunlike.nodup_spelling htexts)
  obtain ⟨sorted, hsorted, -, hle⟩ := exists_sorted? htexts
  rw [sorted?_eq_inOrder htexts, Option.some.injEq] at hsorted
  rw [hsorted] at hnodup ⊢
  exact List.Pairwise.imp₂ (fun a b hab hne => Std.lt_of_le_of_ne hab hne) hle hnodup

end AccessControl.Value
