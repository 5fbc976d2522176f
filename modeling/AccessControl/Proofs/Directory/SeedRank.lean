import AccessControl.Proofs.Directory.SeedFile
import AccessControl.Proofs.Json.Document

/-!
# How large a rank can be

A rank is a whole number of any size, but not one that a seed says has more than 4300 digits: a
number of a JSON text and a number that is given as a text are limited to so many, and a float is
less than `2 ^ 1024`.
-/

namespace AccessControl

namespace Decimal

/-! ## 1. Digits -/

/-- How many of the characters are digits. -/
def countDigits (cs : List Char) : Nat :=
  (cs.filter fun c => (Text.digitValue? c).isSome).length

variable {cs : List Char}

theorem countDigits_le_cons (c : Char) (cs : List Char) :
    countDigits cs ≤ countDigits (c :: cs) :=
  ((List.sublist_cons_self c cs).filter _).length_le

theorem countDigits_trimList (p : Char → Bool) (cs : List Char) :
    countDigits (Text.trimList p cs) ≤ countDigits cs := by
  have hend := (List.dropWhile_sublist p (l := (cs.dropWhile p).reverse)).reverse
  rw [List.reverse_reverse] at hend
  exact ((hend.trans (List.dropWhile_sublist p)).filter _).length_le

theorem digitValue?_le {c : Char} {d : Nat} (h : Text.digitValue? c = some d) : d ≤ 9 := by
  obtain ⟨z, hz, rfl⟩ := Option.map_eq_some_iff.mp h
  have hrange := List.find?_some hz
  simp only [Bool.and_eq_true, decide_eq_true_eq] at hrange
  omega

/-- Digits that follow a number make it longer by no more than their count. -/
theorem readDigits_lt {fresh : Bool} {acc n : Nat} (h : readDigits fresh acc cs = some n) :
    n < (acc + 1) * 10 ^ countDigits cs := by
  fun_induction readDigits fresh acc cs with
  | case1 => cases h
  | case2 =>
    cases h
    simp [countDigits]
  | case3 => cases h
  | case4 fresh acc rest hfresh ih =>
    exact (ih h).trans_le (Nat.mul_le_mul_left _
      (Nat.pow_le_pow_right (by decide) (countDigits_le_cons ..)))
  | case5 fresh acc c rest hc d hd ih =>
    have hcount : countDigits (c :: rest) = countDigits rest + 1 := by
      rw [countDigits, List.filter_cons_of_pos (by rw [hd]; rfl), List.length_cons]
      rfl
    have hdigit := digitValue?_le hd
    rw [hcount, Nat.pow_succ']
    calc n < (acc * 10 + d + 1) * 10 ^ countDigits rest := ih h
      _ ≤ ((acc + 1) * 10) * 10 ^ countDigits rest := Nat.mul_le_mul_right _ (by omega)
      _ = (acc + 1) * (10 * 10 ^ countDigits rest) := Nat.mul_assoc ..
  | case6 => cases h

theorem readSigned_lt {n : Int} (h : readSigned cs = some n) :
    n.natAbs < 10 ^ countDigits cs := by
  have hread {rest : List Char} {m : Nat} (hm : readDigits true 0 rest = some m)
      (hle : countDigits rest ≤ countDigits cs) : m < 10 ^ countDigits cs := by
    have hlt := readDigits_lt hm
    rw [Nat.zero_add, Nat.one_mul] at hlt
    exact hlt.trans_le (Nat.pow_le_pow_right (by decide) hle)
  unfold readSigned at h
  split at h
  · obtain ⟨k, hk, rfl⟩ := Option.map_eq_some_iff.mp h
    obtain ⟨m, hm, hk⟩ := Option.bind_eq_some_iff.mp hk
    cases hk
    rw [Int.natAbs_neg]
    exact hread hm (countDigits_le_cons ..)
  · obtain ⟨k, hk, rfl⟩ := Option.map_eq_some_iff.mp h
    obtain ⟨m, hm, hk⟩ := Option.bind_eq_some_iff.mp hk
    cases hk
    exact hread hm (countDigits_le_cons ..)
  · obtain ⟨k, hk, rfl⟩ := Option.map_eq_some_iff.mp h
    obtain ⟨m, hm, hk⟩ := Option.bind_eq_some_iff.mp hk
    cases hk
    exact hread hm (Nat.le_refl _)

theorem readInt?_lt {s : String} {n : Int} (h : readInt? s = some n) :
    n.natAbs < 10 ^ countDigits s.toList :=
  (readSigned_lt h).trans_le
    (Nat.pow_le_pow_right (by decide) (countDigits_trimList ..))

end Decimal

/-! ## 2. Floats -/

/-- The mantissa of a float has at most 53 bits, and its exponent is at most 971. -/
theorem FloatValue.bounds_ofBits {bits : UInt64} {b : Binary} (h : ofBits bits = .finite b) :
    b.mantissa < 2 ^ 53 ∧ b.exponent ≤ 971 := by
  unfold ofBits at h
  extract_lets n negative e f at h
  have hf : f < 2 ^ 52 := Nat.mod_lt _ (by decide)
  have he : e < 2 ^ 11 := Nat.mod_lt _ (by decide)
  split at h
  · split at h
    · cases h
    · cases h
  · split at h
    · cases h
      have hsmall : (-1074 : Int) ≤ 971 := by decide
      exact ⟨hf.trans (by decide), hsmall⟩
    · cases h
      have hpow : Nat.pow 2 52 = 2 ^ 52 := rfl
      simp only [hpow]
      omega

theorem Binary.natAbs_truncate_lt {b : Binary} {m e : Nat} (hmantissa : b.mantissa < 2 ^ m)
    (hexponent : b.exponent ≤ e) : b.truncate.natAbs < 2 ^ (m + e) := by
  have hwhole : b.ratio.1 / b.ratio.2 < 2 ^ (m + e) := by
    rw [ratio]
    split
    · rw [Nat.div_one, Nat.pow_add]
      exact Nat.mul_lt_mul_of_lt_of_le hmantissa
        (Nat.pow_le_pow_right (by decide) (by omega)) (Nat.pow_pos (by decide))
    · exact (Nat.div_le_self _ _).trans_lt
        (hmantissa.trans_le (Nat.pow_le_pow_right (by decide) (by omega)))
  rw [truncate]
  split
  · rwa [Int.natAbs_neg, Int.natAbs_natCast]
  · rwa [Int.natAbs_natCast]

/-- So many bits have no more digits than are allowed. -/
theorem Binary.natAbs_truncate_lt_mostDigits {b : Binary} {m e : Nat}
    (hmantissa : b.mantissa < 2 ^ m) (hexponent : b.exponent ≤ e)
    (hbits : m + e ≤ Json.mostDigits) : b.truncate.natAbs < 10 ^ Json.mostDigits :=
  calc b.truncate.natAbs < 2 ^ (m + e) := natAbs_truncate_lt hmantissa hexponent
    _ ≤ 10 ^ (m + e) := Nat.pow_le_pow_left (by decide) _
    _ ≤ 10 ^ Json.mostDigits := Nat.pow_le_pow_right (by decide) hbits

namespace Seed

/-! ## 3. Ranks -/

variable {record v : Value} {a : Account} {n : Int}

/-- The rank of a role has few digits. -/
theorem natAbs_rank_lt (role : Role) : (role.rank : Int).natAbs < 10 ^ Json.mostDigits := by
  rw [Int.natAbs_natCast]
  calc role.rank < 10 ^ 1 := by cases role <;> decide
    _ ≤ 10 ^ Json.mostDigits := Nat.pow_le_pow_right (by decide) (by decide)

theorem readInt_lt {s : String} (h : readInt v s = .ok n) : n.natAbs < 10 ^ Json.mostDigits := by
  rw [readInt] at h
  split at h
  · rename_i m hm
    split at h
    · cases h
    · rename_i hfew
      cases h
      exact (Decimal.readInt?_lt hm).trans_le
        (Nat.pow_le_pow_right (by decide) (Nat.le_of_not_lt hfew))
  · cases h

/-- What a document is converted to has no more digits than are allowed. -/
theorem toInt_lt (hv : Json.Document v) (h : toInt v = .ok n) :
    n.natAbs < 10 ^ Json.mostDigits := by
  have hone : 1 < 10 ^ Json.mostDigits := Nat.one_lt_pow (by decide) (by decide)
  cases hv with
  | int m hm =>
    cases h
    exact hm
  | bool b =>
    cases h
    cases b with
    | true => exact hone
    | false => exact Nat.zero_lt_of_lt hone
  | float x =>
    rw [toInt] at h
    split at h
    · rename_i b hb
      cases h
      obtain ⟨hmantissa, hexponent⟩ := FloatValue.bounds_ofBits hb
      exact Binary.natAbs_truncate_lt_mostDigits (e := 971) hmantissa hexponent (by decide)
    · cases h
    · cases h
  | text s => exact readInt_lt h
  | null => cases h
  | list items => cases h
  | map entries => cases h

end Seed

end AccessControl
