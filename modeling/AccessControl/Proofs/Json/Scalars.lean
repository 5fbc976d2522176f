import AccessControl.Json.Printer
import AccessControl.Json.Reader
import Mathlib.Algebra.Group.Nat.Defs
import Mathlib.Data.List.Basic

/-!
# Texts and numbers in JSON

What a text or a whole number is written as, in the compact layout, is read as the same text or
number.

* Every character of a text is written as itself or as an escape, and the text ends at the first
  quote that is no part of an escape.  So the induction is on the characters
  (`readText_flatMap`), with one lemma about what a single one is written as
  (`readText_escapeChar`).
* A whole number has no quote to end at: its digits go on as long as there are digits.  What comes
  after a value is a comma, a closing bracket, or nothing (`Closes`), and none of these is a part of
  a number.
-/

namespace AccessControl.Json

/-! ## 1. Texts -/

theorem hexValue?_hexDigit {d : Nat} (h : d < 16) : hexValue? (Text.hexDigit d) = some d := by
  revert h
  revert d
  decide

theorem hexDigits_four (n : Nat) : Text.hexDigits 4 n =
    [Text.hexDigit (n / 16 / 16 / 16 % 16), Text.hexDigit (n / 16 / 16 % 16),
      Text.hexDigit (n / 16 % 16), Text.hexDigit (n % 16)] := rfl

/-- Four digits are read as the code that they were written for. -/
theorem hexCode?_hexDigits {n : Nat} (h : n < 0x10000) :
    hexCode? (Text.hexDigit (n / 16 / 16 / 16 % 16)) (Text.hexDigit (n / 16 / 16 % 16))
      (Text.hexDigit (n / 16 % 16)) (Text.hexDigit (n % 16)) = some n := by
  have hdigit (m : Nat) : hexValue? (Text.hexDigit (m % 16)) = some (m % 16) :=
    hexValue?_hexDigit (Nat.mod_lt _ (by decide))
  simp only [hexCode?, hdigit, Option.bind_eq_bind, Option.bind_some, pure, Option.some.injEq]
  omega

/-- The code of a control character is read as this character. -/
theorem readCode_control {c : Char} (hc : c.toNat < 0x20) (place : Nat) {tail : List Char}
    (htail : tail ≠ []) :
    readCode place (Text.hexDigit (c.toNat / 16 / 16 / 16 % 16))
      (Text.hexDigit (c.toNat / 16 / 16 % 16)) (Text.hexDigit (c.toNat / 16 % 16))
      (Text.hexDigit (c.toNat % 16)) tail = .ok ⟨c, 5, true⟩ := by
  have hempty : tail.isEmpty = false := by simpa using htail
  have hhigh : isHighHalf c.toNat = false := by
    simp only [isHighHalf, Bool.and_eq_false_iff, decide_eq_false_iff_not]
    omega
  have hlow : isLowHalf c.toNat = false := by
    simp only [isLowHalf, Bool.and_eq_false_iff, decide_eq_false_iff_not]
    omega
  have hescape : Escape.ofCode c.toNat = ⟨c, 5, true⟩ := by
    simp [Escape.ofCode, isHalf, hhigh, hlow, Char.ofNat_toNat]
  rw [readCode, hempty, hexCode?_hexDigits (by omega)]
  simp only [Bool.false_eq_true, if_false, hhigh, hescape]
  split <;> rfl

/-- What a character is written as is read as this character; the text goes on after it. -/
theorem readText_escapeChar (start : Nat) (acc : List Char) (place : Nat) (whole : Bool) (c : Char)
    (tail : List Char) (htail : tail ≠ []) : ∃ place',
      readText start acc place 0 whole (escapeChar false c ++ tail) =
        readText start (c :: acc) place' 0 whole tail := by
  unfold escapeChar
  split
  -- the seven escapes with a letter
  iterate 7 exact ⟨_, by cases whole <;> rfl⟩
  · rename_i hquote hslash _ _ _ _ _
    split
    · rename_i hc
      refine ⟨place + 6, ?_⟩
      rw [unicodeEscape, hexDigits_four]
      simp [readText, readEscape, readCode_control hc _ htail]
    · rename_i hc
      refine ⟨place + 1, ?_⟩
      rw [Bool.false_and, if_neg Bool.false_ne_true, List.singleton_append, readText,
        if_neg (Nat.lt_irrefl 0), if_neg hquote, if_neg hslash, if_neg hc]

/-- The rest of a text, up to its closing quote. -/
theorem readText_flatMap (start : Nat) (acc : List Char) (place : Nat) (whole : Bool)
    (cs rest : List Char) : ∃ place',
      readText start acc place 0 whole (cs.flatMap (escapeChar false) ++ '"' :: rest) =
        .ok (String.ofList (acc.reverse ++ cs), ⟨rest, place', whole⟩) := by
  induction cs generalizing acc place with
  | nil => exact ⟨place + 1, by simp [readText]⟩
  | cons c cs ih =>
    obtain ⟨next, hnext⟩ := readText_escapeChar start acc place whole c
      (cs.flatMap (escapeChar false) ++ '"' :: rest) (by simp)
    obtain ⟨place', hrest⟩ := ih (c :: acc) next
    refine ⟨place', ?_⟩
    rw [List.flatMap_cons, List.append_assoc, hnext, hrest, List.reverse_cons, List.append_assoc,
      List.singleton_append]

theorem toList_quote (s : String) :
    (quote false s).toList = '"' :: (s.toList.flatMap (escapeChar false) ++ ['"']) := by
  rw [quote, String.toList_ofList, List.cons_append]

/-- A text is read back. -/
theorem readText_quote (start place : Nat) (whole : Bool) (s : String) (rest : List Char) :
    ∃ place', readText start [] place 0 whole
      (s.toList.flatMap (escapeChar false) ++ '"' :: rest) = .ok (s, ⟨rest, place', whole⟩) := by
  obtain ⟨place', h⟩ := readText_flatMap start [] place whole s.toList rest
  refine ⟨place', ?_⟩
  rw [h, List.reverse_nil, List.nil_append, String.ofList_toList]

theorem printed_hexDigit {d : Nat} (h : d < 16) : 0x20 ≤ (Text.hexDigit d).toNat := by
  revert h
  revert d
  decide

/-- No character is written as a control character. -/
theorem printed_escapeChar (c : Char) : ∀ x ∈ escapeChar false c, 0x20 ≤ x.toNat := by
  unfold escapeChar
  split
  -- the seven escapes with a letter
  iterate 7 simp
  split
  · rename_i hc
    have hdigit (m : Nat) : 0x20 ≤ (Text.hexDigit (m % 16)).toNat :=
      printed_hexDigit (Nat.mod_lt _ (by decide))
    rw [unicodeEscape, hexDigits_four]
    simp [hdigit]
  · rename_i hc
    simpa using hc

/-! ## 2. Numbers -/

/-- A part of a text ends here: nothing follows, or a comma or a closing bracket does. -/
def Closes (rest : List Char) : Prop :=
  ∀ c ∈ rest.head?, c = ',' ∨ c = ']' ∨ c = '\x7d'

variable {rest : List Char}

theorem closes_nil : Closes [] := by simp [Closes]

theorem isDigit_of_mem_toDigits {n : Nat} {c : Char} (h : c ∈ Nat.toDigits 10 n) :
    isDigit c = true := by
  have hdigit := Nat.isDigit_of_mem_toDigits (by decide) (by decide) h
  simp only [Char.isDigit, ge_iff_le, Bool.and_eq_true, decide_eq_true_eq] at hdigit
  simp only [isDigit, Bool.and_eq_true, decide_eq_true_eq, Char.le_def]
  exact hdigit

/-- Decimal digits are the number that they were written for. -/
theorem digitsValue_toDigits (n : Nat) : digitsValue (Nat.toDigits 10 n) = n := by
  have h := @Nat.ofDigitChars_ten_toDigits n
  rw [Nat.ofDigitChars] at h
  simp only [Nat.mul_comm 10] at h
  exact h

/-- Only zero begins with a zero. -/
theorem head?_toDigits {n : Nat} (h : (Nat.toDigits 10 n).head? = some '0') : n = 0 := by
  induction n using Nat.strongRecOn with
  | ind n ih =>
    by_cases hn : n < 10
    · clear ih
      rw [Nat.toDigits_of_lt_base hn] at h
      revert h
      revert hn
      revert n
      decide
    · rw [Nat.toDigits_of_base_le (by decide) (Nat.le_of_not_lt hn), List.head?_append,
        Option.or_of_isSome (by simp [Nat.toDigits_ne_nil])] at h
      have hzero := ih (n / 10) (Nat.div_lt_self (by omega) (by decide)) h
      omega

theorem takeWhile_isDigit_of_closes (h : Closes rest) : rest.takeWhile isDigit = [] := by
  cases rest with
  | nil => rfl
  | cons c rest =>
    rcases h c rfl with rfl | rfl | rfl
    all_goals rfl

theorem wholePart_toDigits (n : Nat) (h : Closes rest) :
    wholePart (Nat.toDigits 10 n ++ rest) = Nat.toDigits 10 n := by
  unfold wholePart
  split
  · rename_i tail hcs
    have hzero : n = 0 := by
      refine head?_toDigits ?_
      rw [← List.head?_append_of_ne_nil _ Nat.toDigits_ne_nil, hcs, List.head?_cons]
    rw [hzero]
    rfl
  · rw [List.takeWhile_append_of_pos fun c hc => isDigit_of_mem_toDigits hc,
      takeWhile_isDigit_of_closes h, List.append_nil]

theorem fractionPart_of_closes (h : Closes rest) : fractionPart rest = [] := by
  cases rest with
  | nil => rfl
  | cons c rest =>
    rcases h c rfl with rfl | rfl | rfl
    all_goals rfl

theorem exponentPart_of_closes (h : Closes rest) : exponentPart rest = none := by
  cases rest with
  | nil => rfl
  | cons c rest =>
    rcases h c rfl with rfl | rfl | rfl
    all_goals rfl

/-- A number without a sign begins with a digit. -/
theorem exists_toDigits (n : Nat) :
    ∃ c cs, Nat.toDigits 10 n = c :: cs ∧ isDigit c = true := by
  cases hn : Nat.toDigits 10 n with
  | nil => exact absurd hn Nat.toDigits_ne_nil
  | cons c cs =>
    refine ⟨c, cs, rfl, isDigit_of_mem_toDigits (n := n) ?_⟩
    rw [hn]
    exact List.mem_cons_self ..

/-- The digits of a number, after a sign or without one, are read as this number. -/
theorem readNumber_toDigits {m : Nat} (hm : m < 10 ^ mostDigits) (negative : Bool) (place : Nat)
    (whole : Bool) (h : Closes rest) : ∃ place',
      readNumber ⟨(if negative then ['-'] else []) ++ (Nat.toDigits 10 m ++ rest), place, whole⟩ =
        .ok (.int (if negative then -m else m), ⟨rest, place', whole⟩) := by
  obtain ⟨c, cs, hdigits, hc⟩ := exists_toDigits m
  have hsign : (((if negative then ['-'] else []) ++ (Nat.toDigits 10 m ++ rest)).head? ==
      some '-') = negative := by
    cases negative with
    | true => rfl
    | false =>
      have hne : c ≠ '-' := by
        rintro rfl
        cases hc
      rw [hdigits]
      simpa using hne
  have hunsigned : (if negative then
      ((if negative then ['-'] else []) ++ (Nat.toDigits 10 m ++ rest)).drop 1
      else (if negative then ['-'] else []) ++ (Nat.toDigits 10 m ++ rest)) =
        Nat.toDigits 10 m ++ rest := by
    cases negative with
    | true => rfl
    | false => rfl
  have hnonempty : (Nat.toDigits 10 m).isEmpty = false := by
    rw [hdigits]
    rfl
  have hfew : ¬ mostDigits < (Nat.toDigits 10 m).length :=
    Nat.not_lt.mpr ((Nat.length_toDigits_le_iff (by decide) (by decide)).mpr hm)
  have hrest : ((if negative then ['-'] else []) ++ (Nat.toDigits 10 m ++ rest)).drop
      ((if negative then 1 else 0) + (Nat.toDigits 10 m).length) = rest := by
    cases negative with
    | true => simp [Nat.add_comm 1]
    | false => simp
  simp only [readNumber, hsign, hunsigned, wholePart_toDigits m h, hnonempty, List.drop_left,
    fractionPart_of_closes h, exponentPart_of_closes h, List.isEmpty_nil, Option.isNone_none,
    Bool.and_self, if_true, if_neg hfew, digitsValue_toDigits, Bool.false_eq_true, if_false,
    Nat.add_zero, hrest]
  exact ⟨_, rfl⟩

/-- A whole number is no word. -/
theorem find?_words_toDigits (m : Nat) (negative : Bool) (rest : List Char) :
    (words.find? fun w => w.1.isPrefixOf
      ((if negative then ['-'] else []) ++ (Nat.toDigits 10 m ++ rest))) = none := by
  obtain ⟨c, cs, hdigits, hc⟩ := exists_toDigits m
  have hother {x : Char} (hx : isDigit x = false) : ¬ x = c := by
    rintro rfl
    rw [hc] at hx
    cases hx
  rw [hdigits]
  cases negative with
  | true => simp [words, @hother 'I' rfl]
  | false =>
    simp [words, @hother 'n' rfl, @hother 't' rfl, @hother 'f' rfl, @hother 'N' rfl,
      @hother 'I' rfl, @hother '-' rfl]

/-- The characters of a whole number: a sign if it is negative, and digits. -/
theorem exists_toDigits_of_int (n : Int) : ∃ negative : Bool,
    (toString n).toList = (if negative then ['-'] else []) ++ Nat.toDigits 10 n.natAbs ∧
      (if negative then -(n.natAbs : Int) else n.natAbs) = n := by
  rw [Int.toString_eq_repr]
  cases n with
  | ofNat m => exact ⟨false, by simp [Int.repr, Nat.toList_repr], by simp⟩
  | negSucc m => exact ⟨true, by simp [Int.repr, Nat.toList_repr], rfl⟩

/-- A character that can begin a whole number. -/
def BeginsNumber (c : Char) : Prop :=
  c = '-' ∨ isDigit c = true

theorem BeginsNumber.ne {c x : Char} (hc : BeginsNumber c) (hx : isDigit x = false)
    (hminus : x ≠ '-') : c ≠ x := by
  rintro rfl
  rcases hc with rfl | hc
  · exact hminus rfl
  · rw [hc] at hx
    cases hx

theorem BeginsNumber.printed {c : Char} (hc : BeginsNumber c) : 0x20 ≤ c.toNat := by
  rcases hc with rfl | hc
  · decide
  · simp only [isDigit, Bool.and_eq_true, decide_eq_true_eq, Char.le_def] at hc
    have hzero : 0x30 ≤ c.val.toNat := hc.1
    have hvalue : c.toNat = c.val.toNat := rfl
    omega

theorem BeginsNumber.not_space {c : Char} (hc : BeginsNumber c) : isSpace c = false := by
  simp [isSpace, hc.ne (x := ' ') rfl (by decide), hc.ne (x := '\t') rfl (by decide),
    hc.ne (x := '\n') rfl (by decide), hc.ne (x := '\r') rfl (by decide)]

/-- What begins with a sign or a digit is read as a word or a number. -/
theorem readValue_eq_readScalar {c : Char} (hc : BeginsNumber c) (fuel : Nat)
    (tail : List Char) (place : Nat) (whole : Bool) :
    readValue (fuel + 1) ⟨c :: tail, place, whole⟩ = readScalar ⟨c :: tail, place, whole⟩ := by
  simp only [readValue]
  split
  · rename_i h
    cases h
  · rename_i h
    cases h
    exact absurd rfl (hc.ne (x := '"') rfl (by decide))
  · rename_i h
    cases h
    exact absurd rfl (hc.ne (x := '[') rfl (by decide))
  · rename_i h
    cases h
    exact absurd rfl (hc.ne (x := '\x7b') rfl (by decide))
  · rfl

end AccessControl.Json
