import AccessControl.Table
import Mathlib.Data.List.Basic

/-!
# What is in a table after a write

The resources of a registry, its index, the roles of a root and the grants of a rulebook are tables,
and all of them are written by `upsert`.  What there is to know about such a write is stated here:
what is found afterwards (`lookup_upsert`), under which names (`keys_upsert`), which properties of
all entries are kept (`forall_mem_upsert`), and when two writes can be exchanged (`upsert_comm`).
-/

namespace AccessControl

variable {α : Type}

/-! ## 1. Writes -/

theorem lookup_cons_eq_ite (k : String) (a : α) (rest : List (String × α)) (name : String) :
    ((k, a) :: rest).lookup name = if name = k then some a else rest.lookup name := by
  rw [List.lookup_cons]
  by_cases h : name = k
  · simp [h]
  · simp [h, beq_false_of_ne h]

/-- Something is found under a name exactly when the table has an entry for it. -/
theorem isSome_lookup_iff {name : String} {table : List (String × α)} :
    (table.lookup name).isSome = true ↔ name ∈ table.map Prod.fst := by
  rw [List.lookup_isSome_iff, List.mem_map]
  constructor
  · rintro ⟨e, he, hname⟩
    exact ⟨e, he, (eq_of_beq hname).symm⟩
  · rintro ⟨e, he, rfl⟩
    exact ⟨e, he, beq_self_eq_true e.1⟩

theorem mem_of_lookup {name : String} {a : α} {table : List (String × α)}
    (h : table.lookup name = some a) : (name, a) ∈ table := by
  obtain ⟨l₁, l₂, hsplit, -⟩ := List.lookup_eq_some_iff.mp h
  exact hsplit ▸ List.mem_append_right l₁ (List.mem_cons_self ..)

/-- An entry is found under its name, if no two entries have the same. -/
theorem lookup_of_mem {e : String × α} {table : List (String × α)}
    (hnodup : (table.map Prod.fst).Nodup) (he : e ∈ table) : table.lookup e.1 = some e.2 := by
  induction table with
  | nil => cases he
  | cons first rest ih =>
    rw [List.map_cons, List.nodup_cons] at hnodup
    rw [lookup_cons_eq_ite]
    rcases List.mem_cons.mp he with rfl | hrest
    · rw [if_pos rfl]
    · have hne : e.1 ≠ first.1 := fun h => hnodup.1 (h ▸ List.mem_map_of_mem hrest)
      rw [if_neg hne, ih hnodup.2 hrest]

/-- What is written is found, and nothing else is found otherwise than before. -/
theorem lookup_upsert (name : String) (write : Option α → α) (table : List (String × α))
    (k : String) : (upsert name write table).lookup k =
      if k = name then some (write (table.lookup name)) else table.lookup k := by
  induction table with
  | nil =>
    rw [upsert, lookup_cons_eq_ite]
    rfl
  | cons first rest ih =>
    obtain ⟨l, a⟩ := first
    rw [upsert]
    by_cases hl : l = name
    · rw [if_pos hl, lookup_cons_eq_ite, lookup_cons_eq_ite, lookup_cons_eq_ite, hl, if_pos rfl]
      by_cases hk : k = name
      · rw [if_pos hk, if_pos hk]
      · rw [if_neg hk, if_neg hk, if_neg hk]
    · rw [if_neg hl, lookup_cons_eq_ite, ih, lookup_cons_eq_ite, lookup_cons_eq_ite,
        if_neg (Ne.symm hl)]
      by_cases hk : k = l
      · rw [if_pos hk, if_pos hk, if_neg (by rw [hk]; exact hl)]
      · rw [if_neg hk, if_neg hk]

/-- The names stay where they are, and a new one comes last. -/
theorem keys_upsert (name : String) (write : Option α → α) (table : List (String × α)) :
    (upsert name write table).map Prod.fst =
      if name ∈ table.map Prod.fst then table.map Prod.fst
      else table.map Prod.fst ++ [name] := by
  induction table with
  | nil => rfl
  | cons first rest ih =>
    obtain ⟨k, a⟩ := first
    rw [upsert, List.map_cons]
    by_cases hk : k = name
    · rw [if_pos hk, if_pos (List.mem_cons.mpr (Or.inl hk.symm)), List.map_cons]
    · rw [if_neg hk, List.map_cons, ih]
      by_cases hmem : name ∈ rest.map Prod.fst
      · rw [if_pos hmem, if_pos (List.mem_cons_of_mem _ hmem)]
      · have hnot : name ∉ k :: rest.map Prod.fst := by
          rw [List.mem_cons, not_or]
          exact ⟨fun h => hk h.symm, hmem⟩
        rw [if_neg hmem, if_neg hnot, List.cons_append]

/-- If no two entries have the same name, each is new to those before it. -/
theorem notMem_of_nodup_append {before later : List (String × α)} {e : String × α}
    (h : ((before ++ e :: later).map Prod.fst).Nodup) : e.1 ∉ before.map Prod.fst := by
  rw [List.map_append, List.nodup_append] at h
  exact fun hmem => h.2.2 _ hmem _ (List.mem_cons_self ..) rfl

/-- No name gets a second entry. -/
theorem nodup_upsert {table : List (String × α)} (h : (table.map Prod.fst).Nodup) (name : String)
    (write : Option α → α) : ((upsert name write table).map Prod.fst).Nodup := by
  rw [keys_upsert]
  split
  · exact h
  · rename_i hnew
    rw [List.nodup_append]
    refine ⟨h, List.pairwise_singleton _ name, fun a ha b hb => ?_⟩
    rw [List.mem_singleton.mp hb]
    rintro rfl
    exact hnew ha

/-- The entry of a new name comes last. -/
theorem upsert_of_notMem {name : String} (write : Option α → α) {table : List (String × α)}
    (h : name ∉ table.map Prod.fst) : upsert name write table = table ++ [(name, write none)] := by
  induction table with
  | nil => rfl
  | cons first rest ih =>
    obtain ⟨k, a⟩ := first
    rw [List.map_cons, List.mem_cons, not_or] at h
    rw [upsert, if_neg (Ne.symm h.1), ih h.2, List.cons_append]

/-- What holds of all names and of all that belongs to them holds so after a write. -/
theorem forall_mem_upsert {K : String → Prop} {V : α → Prop} {name : String}
    {write : Option α → α} {table : List (String × α)} (hname : K name) (hwrite : ∀ a, V (write a))
    (htable : ∀ e ∈ table, K e.1 ∧ V e.2) : ∀ e ∈ upsert name write table, K e.1 ∧ V e.2 := by
  induction table with
  | nil =>
    rw [upsert, List.forall_mem_singleton]
    exact ⟨hname, hwrite none⟩
  | cons first rest ih =>
    obtain ⟨k, a⟩ := first
    rw [List.forall_mem_cons] at htable
    obtain ⟨⟨hk, ha⟩, hrest⟩ := htable
    rw [upsert]
    split
    · rw [List.forall_mem_cons]
      exact ⟨⟨hk, hwrite (some a)⟩, hrest⟩
    · rw [List.forall_mem_cons]
      exact ⟨⟨hk, ha⟩, ih hrest⟩

/-- The order of two writes does not matter, if they are about different names and one of these is
there already. -/
theorem upsert_comm {name other : String} (hne : name ≠ other) (write write' : Option α → α)
    {table : List (String × α)} (hname : name ∈ table.map Prod.fst) :
    upsert name write (upsert other write' table) =
      upsert other write' (upsert name write table) := by
  induction table with
  | nil => cases hname
  | cons first rest ih =>
    obtain ⟨k, a⟩ := first
    by_cases hk : k = name
    · have hother : k ≠ other := fun h => hne (hk.symm.trans h)
      rw [upsert, if_neg hother, upsert, if_pos hk, upsert, if_pos hk, upsert, if_neg hother]
    · by_cases hother : k = other
      · rw [upsert, if_pos hother, upsert, if_neg hk, upsert, if_neg hk, upsert, if_pos hother]
      · have hrest : name ∈ rest.map Prod.fst :=
          (List.mem_cons.mp hname).resolve_left fun h => hk h.symm
        rw [upsert, if_neg hother, upsert, if_neg hk, upsert, if_neg hk, upsert, if_neg hother,
          ih hrest]

/-! ## 2. Setting what belongs to a name -/

theorem lookup_assign (name : String) (a : α) (table : List (String × α)) (k : String) :
    (assign name a table).lookup k = if k = name then some a else table.lookup k :=
  lookup_upsert name (fun _ => a) table k

theorem keys_assign (name : String) (a : α) (table : List (String × α)) :
    (assign name a table).map Prod.fst =
      if name ∈ table.map Prod.fst then table.map Prod.fst
      else table.map Prod.fst ++ [name] :=
  keys_upsert name (fun _ => a) table

theorem nodup_assign {table : List (String × α)} (h : (table.map Prod.fst).Nodup) (name : String)
    (a : α) : ((assign name a table).map Prod.fst).Nodup :=
  nodup_upsert h name fun _ => a

theorem assign_of_notMem {name : String} (a : α) {table : List (String × α)}
    (h : name ∉ table.map Prod.fst) : assign name a table = table ++ [(name, a)] :=
  upsert_of_notMem (fun _ => a) h

theorem assign_ne_nil (name : String) (a : α) (table : List (String × α)) :
    assign name a table ≠ [] := by
  cases table with
  | nil => exact List.cons_ne_nil _ _
  | cons first rest =>
    rw [assign, upsert]
    split
    · exact List.cons_ne_nil _ _
    · exact List.cons_ne_nil _ _

theorem nodup_assignAll (table : List (String × α)) (h : (table.map Prod.fst).Nodup)
    (entries : List (String × α)) : ((assignAll table entries).map Prod.fst).Nodup := by
  induction entries generalizing table with
  | nil => exact h
  | cons e rest ih => exact ih _ (nodup_assign h e.1 e.2)

theorem assignAll_ne_nil {table : List (String × α)} (h : table ≠ [])
    (entries : List (String × α)) : assignAll table entries ≠ [] := by
  induction entries generalizing table with
  | nil => exact h
  | cons e rest ih => exact ih (assign_ne_nil e.1 e.2 table)

/-- Entries with distinct names come one after the other. -/
theorem assignAll_of_nodup {table entries : List (String × α)}
    (h : ((table ++ entries).map Prod.fst).Nodup) : assignAll table entries = table ++ entries := by
  induction entries generalizing table with
  | nil => exact (List.append_nil table).symm
  | cons e rest ih =>
    have hnew : assign e.1 e.2 table = table ++ [e] :=
      assign_of_notMem e.2 (notMem_of_nodup_append h)
    rw [List.append_cons] at h ⊢
    change assignAll (assign e.1 e.2 table) rest = _
    rw [hnew, ih h]

end AccessControl
