import AccessControl.Text.Lines
import AccessControl.Text.Utf8
import Mathlib.Tactic.IntervalCases

/-!
# A text written as bytes

Every text is written as UTF-8, and the bytes are read as this text.
-/

namespace AccessControl.Text

/-! ## 1. Bytes -/

theorem toNat_byte {n : Nat} (h : n < 0x100) : (UInt8.ofNat n).toNat = n := by
  rw [UInt8.toNat_ofNat']
  exact Nat.mod_eq_of_lt h

theorem leadingByte?_two {b : Nat} (hlow : 0xC2 ≤ b) (hhigh : b ≤ 0xDF) :
    leadingByte? b = some (1, b - 0xC0, 0x80, 0xBF) := by
  rw [leadingByte?, if_neg (by omega), if_pos ⟨hlow, hhigh⟩]

theorem leadingByte?_three {b : Nat} (hlow : 0xE0 ≤ b) (hhigh : b ≤ 0xEF) :
    leadingByte? b = some (2, b - 0xE0, if b = 0xE0 then 0xA0 else 0x80,
      if b = 0xED then 0x9F else 0xBF) := by
  interval_cases b <;> rfl

theorem leadingByte?_four {b : Nat} (hlow : 0xF0 ≤ b) (hhigh : b ≤ 0xF4) :
    leadingByte? b = some (3, b - 0xF0, if b = 0xF0 then 0x90 else 0x80,
      if b = 0xF4 then 0x8F else 0xBF) := by
  interval_cases b <;> rfl

variable {place start length code needed low high lead n : Nat} {acc : List Char}
  {rest : List UInt8}

/-- The leading byte of a character of several bytes. -/
theorem readUtf8_lead (hn : n < 0x100) (h : leadingByte? n = some (needed + 1, code, low, high)) :
    readUtf8 place .between acc (UInt8.ofNat n :: rest) =
      readUtf8 (place + 1) (.inside place 1 code (needed + 1) low high n) acc rest := by
  simp only [readUtf8, toNat_byte hn, h]

/-- A continuation byte after which another is needed. -/
theorem readUtf8_continue (hn : n < 0x40) (hlow : low ≤ n + 0x80) (hhigh : n + 0x80 ≤ high) :
    readUtf8 place (.inside start length code (needed + 2) low high lead) acc
        (UInt8.ofNat (n + 0x80) :: rest) =
      readUtf8 (place + 1) (.inside start (length + 1) (code * 64 + n) (needed + 1) 0x80 0xBF lead)
        acc rest := by
  rw [readUtf8, toNat_byte (by omega), if_pos ⟨hlow, hhigh⟩]
  simp only [Nat.add_sub_cancel]
  rw [if_neg (by omega)]
  rfl

/-- The last byte of a character. -/
theorem readUtf8_last (hn : n < 0x40) (hlow : low ≤ n + 0x80) (hhigh : n + 0x80 ≤ high) :
    readUtf8 place (.inside start length code 1 low high lead) acc
        (UInt8.ofNat (n + 0x80) :: rest) =
      readUtf8 (place + 1) .between (Char.ofNat (code * 64 + n) :: acc) rest := by
  rw [readUtf8, toNat_byte (by omega), if_pos ⟨hlow, hhigh⟩]
  simp only [Nat.add_sub_cancel]
  rw [if_pos (Nat.le_refl 1)]

/-! ## 2. Characters -/

theorem toNat_valid (c : Char) : c.toNat < 0xD800 ∨ 0xDFFF < c.toNat ∧ c.toNat < 0x110000 :=
  c.valid

/-- The bytes of a character are read as this character. -/
theorem readUtf8_char (place : Nat) (acc : List Char) (c : Char) (rest : List UInt8) :
    ∃ place', readUtf8 place .between acc (String.utf8EncodeChar c ++ rest) =
      readUtf8 place' .between (c :: acc) rest := by
  have hvalid := toNat_valid c
  have hchar := Char.ofNat_toNat c
  have hval : c.val.toNat = c.toNat := rfl
  generalize hv : c.toNat = v at hvalid hchar hval
  unfold String.utf8EncodeChar
  rw [hval]
  simp only
  split
  · -- one byte
    refine ⟨place + 1, ?_⟩
    have hlead : leadingByte? v = some (0, v, 0, 0) := by rw [leadingByte?, if_pos (by omega)]
    simp only [List.singleton_append, readUtf8, toNat_byte (n := v) (by omega), hlead, hchar]
  · split
    · -- two bytes
      refine ⟨place + 1 + 1, ?_⟩
      have hlead := leadingByte?_two (b := v / 64 % 32 + 192) (by omega) (by omega)
      rw [List.cons_append, List.singleton_append, readUtf8_lead (by omega) hlead,
        readUtf8_last (by omega) (by omega) (by omega)]
      rw [show (v / 64 % 32 + 192 - 0xC0) * 64 + v % 64 = v by omega, hchar]
    · split
      · -- three bytes
        refine ⟨place + 1 + 1 + 1, ?_⟩
        have hlead := leadingByte?_three (b := v / 4096 % 16 + 224) (by omega) (by omega)
        rw [List.cons_append, List.cons_append, List.singleton_append,
          readUtf8_lead (by omega) hlead,
          readUtf8_continue (by omega) (by split <;> omega) (by split <;> omega),
          readUtf8_last (by omega) (by omega) (by omega)]
        rw [show ((v / 4096 % 16 + 224 - 0xE0) * 64 + v / 64 % 64) * 64 + v % 64 = v by omega,
          hchar]
      · -- four bytes
        refine ⟨place + 1 + 1 + 1 + 1, ?_⟩
        have hlead := leadingByte?_four (b := v / 262144 % 8 + 240) (by omega) (by omega)
        rw [List.cons_append, List.cons_append, List.cons_append, List.singleton_append,
          readUtf8_lead (by omega) hlead,
          readUtf8_continue (by omega) (by split <;> omega) (by split <;> omega),
          readUtf8_continue (by omega) (by omega) (by omega),
          readUtf8_last (by omega) (by omega) (by omega)]
        rw [show (((v / 262144 % 8 + 240 - 0xF0) * 64 + v / 4096 % 64) * 64 + v / 64 % 64) * 64
          + v % 64 = v by omega, hchar]

theorem readUtf8_flatMap (place : Nat) (acc cs : List Char) :
    readUtf8 place .between acc (cs.flatMap String.utf8EncodeChar) = .ok (acc.reverse ++ cs) := by
  induction cs generalizing place acc with
  | nil => simp [readUtf8]
  | cons c cs ih =>
    obtain ⟨next, hnext⟩ := readUtf8_char place acc c (cs.flatMap String.utf8EncodeChar)
    rw [List.flatMap_cons, hnext, ih, List.reverse_cons, List.append_assoc, List.singleton_append]

/-! ## 3. Texts -/

theorem toList_loop (bytes : ByteArray) (i : Nat) (acc : List UInt8) :
    ByteArray.toList.loop bytes i acc = acc.reverse ++ bytes.data.toList.drop i := by
  fun_induction ByteArray.toList.loop bytes i acc with
  | case1 i acc hlt ih =>
    have hget : bytes.get! i = bytes.data[i] := by
      have hunfold : bytes.get! i = bytes.data[i]! := by
        cases bytes
        rfl
      rw [hunfold]
      exact getElem!_pos bytes.data i hlt
    rw [ih, hget, List.reverse_cons, List.append_assoc, List.singleton_append,
      List.drop_eq_getElem_cons (i := i) (by simpa using hlt), Array.getElem_toList]
  | case2 i acc hlt =>
    rw [List.drop_eq_nil_of_le (by simpa using Nat.le_of_not_lt hlt), List.append_nil]

/-- The bytes of a text are those of its characters. -/
theorem toList_toUTF8 (s : String) :
    s.toUTF8.toList = s.toList.flatMap String.utf8EncodeChar := by
  have hbytes : s.toUTF8 = (s.toList.flatMap String.utf8EncodeChar).toByteArray := by
    rw [String.toUTF8, ← String.ofList_toList (s := s), String.toByteArray_ofList,
      String.ofList_toList]
    rfl
  rw [ByteArray.toList, toList_loop, hbytes, List.toList_data_toByteArray]
  rfl

/-- **The bytes of a text** are read as this text. -/
theorem utf8Text_toUTF8 (s : String) : utf8Text s.toUTF8.toList = .ok s := by
  rw [utf8Text, toList_toUTF8, readUtf8_flatMap]
  exact congrArg Except.ok String.ofList_toList

/-- A text without carriage returns stays as it is. -/
theorem plainLines_of_not_mem {cs : List Char} (h : '\r' ∉ cs) : plainLines cs = cs := by
  induction cs with
  | nil => rfl
  | cons c cs ih =>
    rw [List.mem_cons, not_or] at h
    unfold plainLines
    split
    · rename_i heq
      cases heq
    · rename_i heq
      cases heq
      exact absurd rfl h.1
    · rename_i heq
      cases heq
      exact absurd rfl h.1
    · rename_i heq
      cases heq
      rw [ih h.2]

end AccessControl.Text
