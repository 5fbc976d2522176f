import AccessControl.Proofs.Registry.Growth
import Mathlib.Data.List.Nodup

/-!
# The index of the roles

Beside the rulebooks a registry keeps, for every role, the resources whose rulebook has an entry
for it.  The index is a list of lists that is written at two places only: a new role gets an empty
list, and a rulebook that is put in place adds its resource to the lists of the roles that it
names.

## Reading the index

What the index says is `filed`: the resources that are filed under a role.  Every operation is
described by what it does to `filed`, up to order (`mem_filed_indexResource`), and a resource is
never filed twice (`Reachable.nodup_filed`).  Since the report on a role sorts the resources, this
is all that can be seen of the index: two indices with the same resources under a role give the
same report, `indexed_eq_of_mem_iff`.
-/

namespace AccessControl

namespace Registry

/-- The resources that an index files under a role. -/
def filed (index : List (String × List String)) (role : String) : List String :=
  (index.lookup role).getD []

variable {r r' : Registry} {resource role : String} {roles : List String}
  {index : List (String × List String)}

/-! ## 1. Filing a resource -/

/-- A resource that is filed under a role is added to the list of the role, if it is not there. -/
theorem filed_indexRole (resource role : String) (index : List (String × List String))
    (k : String) : filed (indexRole resource role index) k =
      if k = role then
        if (filed index role).contains resource then filed index role
        else filed index role ++ [resource]
      else filed index k := by
  rw [filed, indexRole, lookup_upsert, apply_ite (Option.getD · [])]
  rfl

theorem mem_filed_indexRole {x k : String} :
    x ∈ filed (indexRole resource role index) k ↔
      x ∈ filed index k ∨ k = role ∧ x = resource := by
  rw [filed_indexRole]
  by_cases hk : k = role
  · rw [if_pos hk, hk]
    by_cases hfiled : (filed index role).contains resource = true
    · rw [if_pos hfiled]
      have hmem : resource ∈ filed index role := List.contains_iff_mem.mp hfiled
      constructor
      · exact Or.inl
      · rintro (h | ⟨-, rfl⟩)
        · exact h
        · exact hmem
    · rw [if_neg hfiled, List.mem_append, List.mem_singleton]
      simp only [true_and]
  · rw [if_neg hk]
    simp only [hk, false_and, or_false]

/-- Nothing is filed twice. -/
theorem nodup_filed_indexRole (h : ∀ k, (filed index k).Nodup) (k : String) :
    (filed (indexRole resource role index) k).Nodup := by
  rw [filed_indexRole]
  split
  · split
    · exact h role
    · rename_i hfiled
      have hnot : resource ∉ filed index role := fun hmem =>
        hfiled (List.contains_iff_mem.mpr hmem)
      rw [List.nodup_append]
      refine ⟨h role, List.nodup_singleton resource, fun a ha b hb => ?_⟩
      rw [List.mem_singleton.mp hb]
      rintro rfl
      exact hnot ha
  · exact h k

theorem mem_filed_indexResource {x k : String} :
    x ∈ filed (indexResource resource roles index) k ↔
      x ∈ filed index k ∨ k ∈ roles ∧ x = resource := by
  induction roles generalizing index with
  | nil => simp [indexResource]
  | cons role rest ih =>
    have hstep : indexResource resource (role :: rest) index =
        indexResource resource rest (indexRole resource role index) := rfl
    rw [hstep, ih, mem_filed_indexRole, List.mem_cons, or_and_right, or_assoc]

theorem nodup_filed_indexResource (h : ∀ k, (filed index k).Nodup) (k : String) :
    (filed (indexResource resource roles index) k).Nodup := by
  induction roles generalizing index with
  | nil => exact h k
  | cons role rest ih => exact ih (nodup_filed_indexRole h)

/-- A new role has no resources filed under it, and nothing else is filed otherwise. -/
theorem filed_append_new (index : List (String × List String)) (name k : String) :
    filed (index ++ [(name, [])]) k = filed index k := by
  rw [filed, filed, List.lookup_append]
  cases index.lookup k with
  | some held => rfl
  | none =>
    rw [Option.none_or, List.lookup_cons]
    split <;> rfl

/-! ## 2. The roles of the index -/

/-- Filing a resource under a role that is there makes no new one. -/
theorem keys_indexRole (h : role ∈ index.map Prod.fst) :
    (indexRole resource role index).map Prod.fst = index.map Prod.fst := by
  rw [indexRole, keys_upsert, if_pos h]

theorem keys_indexResource (h : ∀ role ∈ roles, role ∈ index.map Prod.fst) :
    (indexResource resource roles index).map Prod.fst = index.map Prod.fst := by
  induction roles generalizing index with
  | nil => rfl
  | cons role rest ih =>
    rw [List.forall_mem_cons] at h
    have hkeys : (indexRole resource role index).map Prod.fst = index.map Prod.fst :=
      keys_indexRole h.1
    have hrest : ∀ k ∈ rest, k ∈ (indexRole resource role index).map Prod.fst := by
      rw [hkeys]
      exact h.2
    exact (ih hrest).trans hkeys

/-! ## 3. Every registry -/

/-- **In every registry that can be come by, no resource is filed twice under a role.** -/
theorem Reachable.nodup_filed (h : Reachable r) (role : String) : (filed r.index role).Nodup := by
  refine h.invariant (P := fun r => ∀ role, (filed r.index role).Nodup)
    (fun _ => List.nodup_nil) (fun r r' hr hchange => ?_) role
  cases hchange with
  | role name definition hnew =>
    intro k
    change (filed (r.index ++ [(name, [])]) k).Nodup
    rw [filed_append_new]
    exact hr k
  | defaultRole name force hrole hfree => exact hr
  | declaration resource hnew => exact hr
  | definition resource d m hnew hvalid => exact nodup_filed_indexResource hr
  | hooks checks logging sink authn authz resolver => exact hr

/-! ## 4. What can be seen of the index -/

/-- What is sorted by names is in their order. -/
theorem pairwise_mergeSort_name {α : Type} (name : α → String) (l : List α) :
    (l.mergeSort fun a b => decide (name a ≤ name b)).Pairwise fun a b => name a ≤ name b := by
  have hsorted : (l.mergeSort fun a b => decide (name a ≤ name b)).Pairwise fun a b =>
      decide (name a ≤ name b) = true := by
    refine List.pairwise_mergeSort (fun a b c hab hbc => ?_) (fun a b => ?_) l
    · rw [decide_eq_true_eq] at hab hbc ⊢
      exact String.le_trans hab hbc
    · rw [Bool.or_eq_true, decide_eq_true_eq, decide_eq_true_eq]
      exact String.le_total (name a) (name b)
  exact hsorted.imp of_decide_eq_true

/-- Two lists of the same resources, without repetitions, are the same list once sorted. -/
theorem mergeSort_eq_of_mem_iff {xs ys : List String} (hxs : xs.Nodup) (hys : ys.Nodup)
    (h : ∀ x, x ∈ xs ↔ x ∈ ys) :
    (xs.mergeSort fun a b => decide (a ≤ b)) = ys.mergeSort fun a b => decide (a ≤ b) := by
  have hperm : xs.Perm ys := (List.perm_ext_iff_of_nodup hxs hys).mpr h
  refine List.Perm.eq_of_pairwise (fun a b _ _ => String.le_antisymm)
    (pairwise_mergeSort_name id xs) (pairwise_mergeSort_name id ys) ?_
  exact ((List.mergeSort_perm xs _).trans hperm).trans (List.mergeSort_perm ys _).symm

/-- Indices with the same resources under a role are read alike. -/
theorem indexed_eq_of_mem_iff (hr : (filed r.index role).Nodup) (hr' : (filed r'.index role).Nodup)
    (h : ∀ x, x ∈ filed r.index role ↔ x ∈ filed r'.index role) :
    r.indexed role = r'.indexed role :=
  mergeSort_eq_of_mem_iff hr hr' h

end Registry

end AccessControl
