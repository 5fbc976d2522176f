import AccessControl.Json.Reader
import AccessControl.Proofs.Outcome
import AccessControl.Proofs.Value.Names
import Mathlib.Algebra.Group.Nat.Defs
import Mathlib.Data.List.TakeWhile

/-!
# What a JSON text can stand for

The type of values has room for much that no JSON text says: members of enumerations, bytes,
records, functions.  What is read from a text is a `Document`: nothing, a truth value, a number, a
text, a list, or a map whose keys are texts.  Of its whole numbers none has more digits than are
allowed.

The reader calls itself at three places, for a value, for the elements of a list and for the entries
of an object, and each takes one unit of fuel.  So the induction is on the fuel, for the three at
once (`Reads`); what a list or an object has collected so far consists of documents, and the next
element or entry is one.
-/

namespace AccessControl.Json

/-- A value that a JSON text can stand for. -/
inductive Document : Value → Prop
  | null : Document .null
  | bool (b : Bool) : Document (.bool b)
  | int (n : Int) (h : n.natAbs < 10 ^ mostDigits) : Document (.int n)
  | float (x : Float) : Document (.float x)
  | text (s : String) : Document (.text s)
  | list (items : List Value) (h : ∀ v ∈ items, Document v) : Document (.list items)
  | map (entries : List (Value × Value)) (hkeys : ∀ e ∈ entries, ∃ s, e.1 = .text s)
      (hvalues : ∀ e ∈ entries, Document e.2) : Document (.map entries)

/-- Every key is a text and every value a document. -/
def DocumentEntries (entries : List (Value × Value)) : Prop :=
  ∀ e ∈ entries, (∃ s, e.1 = .text s) ∧ Document e.2

variable {c after : Cursor} {v : Value} {cs : List Char}

/-! ## 1. Numbers and words -/

/-- Digits are a number with no more digits. -/
theorem foldl_digits_lt {ds : List Char} (h : ∀ c ∈ ds, isDigit c = true) (n : Nat) :
    ds.foldl (fun n c => n * 10 + (c.toNat - 0x30)) n < (n + 1) * 10 ^ ds.length := by
  induction ds generalizing n with
  | nil => simp
  | cons c rest ih =>
    rw [List.forall_mem_cons] at h
    have hdigit : c.toNat - 0x30 ≤ 9 := by
      have hc := h.1
      simp only [isDigit, Bool.and_eq_true, decide_eq_true_eq, Char.le_def] at hc
      have hnine : c.val.toNat ≤ 0x39 := hc.2
      have hvalue : c.toNat = c.val.toNat := rfl
      omega
    rw [List.foldl_cons, List.length_cons, Nat.pow_succ']
    calc _ < (n * 10 + (c.toNat - 0x30) + 1) * 10 ^ rest.length := ih h.2 _
      _ ≤ ((n + 1) * 10) * 10 ^ rest.length := Nat.mul_le_mul_right _ (by omega)
      _ = (n + 1) * (10 * 10 ^ rest.length) := Nat.mul_assoc ..

theorem digitsValue_lt {ds : List Char} (h : ∀ c ∈ ds, isDigit c = true) :
    digitsValue ds < 10 ^ ds.length := by
  have hbound := foldl_digits_lt h 0
  rwa [Nat.zero_add, Nat.one_mul] at hbound

/-- A whole part consists of digits. -/
theorem isDigit_of_mem_wholePart {x : Char} (h : x ∈ wholePart cs) : isDigit x = true := by
  unfold wholePart at h
  split at h
  · rw [List.mem_singleton.mp h]
    rfl
  · exact List.mem_takeWhile_imp h

/-- A number is a whole number with few digits, or a float. -/
theorem document_of_readNumber (h : readNumber c = .ok (v, after)) : Document v := by
  unfold readNumber at h
  extract_lets negative unsigned whole afterWhole fraction afterFraction exponent used length n
    shift size x at h
  split at h
  · cases h
  · split at h
    · split at h
      · cases h
      · rename_i hdigits
        cases h
        have hvalue : digitsValue whole < 10 ^ whole.length :=
          digitsValue_lt fun x hx => isDigit_of_mem_wholePart hx
        have hfew : digitsValue whole < 10 ^ mostDigits :=
          Nat.lt_of_lt_of_le hvalue (Nat.pow_le_pow_right (by decide) (Nat.le_of_not_lt hdigits))
        refine .int _ ?_
        split
        · rwa [Int.natAbs_neg, Int.natAbs_natCast]
        · rwa [Int.natAbs_natCast]
    · cases h
      exact .float _

theorem document_of_readScalar (h : readScalar c = .ok (v, after)) : Document v := by
  rw [readScalar] at h
  split at h
  · rename_i w word hword
    cases h
    have hmem := List.mem_of_find?_eq_some hword
    simp only [words, List.mem_cons, Prod.mk.injEq, List.not_mem_nil, or_false] at hmem
    rcases hmem with ⟨-, rfl⟩ | ⟨-, rfl⟩ | ⟨-, rfl⟩ | ⟨-, rfl⟩ | ⟨-, rfl⟩ | ⟨-, rfl⟩
    · exact .null
    · exact .bool true
    · exact .bool false
    all_goals exact .float _
  · exact document_of_readNumber h

/-! ## 2. Values -/

/-- With this much fuel, only documents are read. -/
structure Reads (fuel : Nat) : Prop where
  value : ∀ {c after v}, readValue fuel c = .ok (v, after) → Document v
  items : ∀ {acc c after v}, (∀ w ∈ acc, Document w) → readItems fuel acc c = .ok (v, after) →
    Document v
  entries : ∀ {acc c after v}, DocumentEntries acc → readEntries fuel acc c = .ok (v, after) →
    Document v

theorem reads_zero : Reads 0 where
  value := by
    intro c after v h
    cases h
  items := by
    intro acc c after v hacc h
    cases h
  entries := by
    intro acc c after v hacc h
    cases h

/-- One more unit of fuel. -/
theorem Reads.succ {fuel : Nat} (ih : Reads fuel) : Reads (fuel + 1) where
  value := by
    intro c after v h
    rw [readValue] at h
    split at h
    · cases h
    · obtain ⟨⟨s, rest⟩, -, hv⟩ := map_eq_ok_iff.mp h
      cases hv
      exact .text s
    · simp only at h
      split at h
      · cases h
        exact .list [] (by simp)
      · exact ih.items (by simp) h
    · simp only at h
      split at h
      · cases h
        exact .map [] (by simp) (by simp)
      · exact ih.entries (by simp [DocumentEntries]) h
    · exact document_of_readScalar h
  items := by
    intro acc c after v hacc h
    rw [readItems] at h
    split at h
    · cases h
    · rename_i w next hw
      have hall : ∀ x ∈ w :: acc, Document x := List.forall_mem_cons.mpr ⟨ih.value hw, hacc⟩
      simp only at h
      split at h
      · cases h
        exact .list _ fun x hx => hall x (List.mem_reverse.mp hx)
      · exact ih.items hall h
      · cases h
  entries := by
    intro acc c after v hacc h
    rw [readEntries] at h
    split at h
    · cases h
    · rename_i key at_ hkey
      split at h
      · cases h
      · rename_i w next hw
        have hall : DocumentEntries (Value.put (.text key) w acc) :=
          Value.forall_mem_put (K := fun k => ∃ s, k = .text s) (V := Document) ⟨key, rfl⟩
            (ih.value hw) hacc
        simp only at h
        split at h
        · cases h
          exact .map _ (fun e he => (hall e he).1) fun e he => (hall e he).2
        · exact ih.entries hall h
        · cases h

theorem reads (fuel : Nat) : Reads fuel := by
  induction fuel with
  | zero => exact reads_zero
  | succ fuel ih => exact ih.succ

/-- **What is read is a document.** -/
theorem document_of_read {s : String} (h : read s = .ok v) : Document v := by
  rw [read] at h
  split at h
  · cases h
  · obtain ⟨⟨w, whole⟩, hnoted, rfl⟩ := map_eq_ok_iff.mp h
    rw [readNoting] at hnoted
    obtain ⟨⟨x, after⟩, hx, hnoted⟩ := bind_eq_ok_iff.mp hnoted
    simp only at hnoted
    split at hnoted
    · cases hnoted
      exact (reads _).value hx
    · cases hnoted

/-! ## 3. Documents -/

/-- What a map among documents has under a key is a document. -/
theorem Document.find? {entries : List (Value × Value)} {key : Value} (h : Document (.map entries))
    (hv : Value.find? key entries = some v) : Document v := by
  obtain ⟨k, hmem, -⟩ := Value.mem_of_find? hv
  cases h with
  | map _ _ hvalues => exact hvalues _ hmem

/-- A document that is a text is given as such. -/
theorem Document.eq_text {s : String} (h : Document v) (hs : v.text? = some s) : v = .text s := by
  rcases Value.eq_of_text? hs with rfl | ⟨e, n, rfl⟩
  · rfl
  · cases h

end AccessControl.Json
