import AccessControl.Proofs.Json.Scalars
import Mathlib.Data.List.Forall2

/-!
# What is written is read back

A value is written as characters that are read as this value.  This holds of the `Storable` values:
JSON has one kind of list, keys that are texts, and no members of enumerations, so a value with any
of the others comes back as something else; of floats nothing is said here.

## Words

Neither the writer nor the reader goes through the characters of a whole value at once: the writer
puts together what it has written for the parts, and the reader stops where a part ends.  So the
statement that both can be followed through is about a word and what comes after it: `Carries w v`
says that `w` is read as `v`, wherever it stands and whatever it ends at.  A list or an object is a
word if its parts are words (`carries_list`, `carries_map`), and a value is written as such a word
by induction on the value (`writtenBack`).

The reader has fuel.  A word of `n` characters never needs more than `n` units, since every call
that takes a unit comes with a character of its own: a bracket, a comma, or the first character of a
scalar.
-/

namespace AccessControl.Json

variable {rest : List Char}

/-! ## 1. Words -/

theorem skip_of_closes (h : Closes rest) (place : Nat) (whole : Bool) :
    Cursor.skip ⟨rest, place, whole⟩ = ⟨rest, place, whole⟩ := by
  cases rest with
  | nil => rfl
  | cons c rest =>
    rcases h c rfl with rfl | rfl | rfl
    all_goals rfl

/-- The characters are read as the value, whatever it is that the value ends at, and nothing is
replaced in reading them.  They begin with none of the characters that are skipped or that would end
a list, and none of them is a control character. -/
structure Carries (w : List Char) (v : Value) : Prop where
  starts : ∃ c tail, w = c :: tail ∧ isSpace c = false ∧ c ≠ ']' ∧ c ≠ '\uFEFF'
  printed : ∀ c ∈ w, 0x20 ≤ c.toNat
  reads : ∀ fuel place whole rest, w.length ≤ fuel → Closes rest →
    ∃ place', readValue fuel ⟨w ++ rest, place, whole⟩ = .ok (v, ⟨rest, place', whole⟩)

variable {w : List Char} {v : Value}

theorem Carries.skip (h : Carries w v) (rest : List Char) (place : Nat) (whole : Bool) :
    Cursor.skip ⟨w ++ rest, place, whole⟩ = ⟨w ++ rest, place, whole⟩ := by
  obtain ⟨c, tail, rfl, hspace, -⟩ := h.starts
  rw [List.cons_append, Cursor.skip, skipList, hspace, if_neg Bool.false_ne_true]

theorem carries_null : Carries "null".toList .null where
  starts := ⟨'n', _, rfl, rfl, by decide, by decide⟩
  printed := by simp
  reads := by
    intro fuel place whole rest hfuel _
    cases fuel with
    | zero => cases hfuel
    | succ fuel => exact ⟨place + 4, rfl⟩

theorem carries_bool (b : Bool) : Carries (if b then "true" else "false").toList (.bool b) where
  starts := by
    cases b with
    | true => exact ⟨'t', _, rfl, rfl, by decide, by decide⟩
    | false => exact ⟨'f', _, rfl, rfl, by decide, by decide⟩
  printed := by
    cases b with
    | true => simp
    | false => simp
  reads := by
    intro fuel place whole rest hfuel _
    cases fuel with
    | zero => cases b <;> cases hfuel
    | succ fuel =>
      cases b with
      | true => exact ⟨place + 4, rfl⟩
      | false => exact ⟨place + 5, rfl⟩

theorem carries_int {n : Int} (h : n.natAbs < 10 ^ mostDigits) :
    Carries (toString n).toList (.int n) := by
  obtain ⟨negative, hlist, hn⟩ := exists_toDigits_of_int n
  have hall : ∀ c ∈ (toString n).toList, BeginsNumber c := by
    intro c hc
    rw [hlist, List.mem_append] at hc
    rcases hc with hc | hc
    · cases negative with
      | true => exact Or.inl (List.mem_singleton.mp hc)
      | false => cases hc
    · exact Or.inr (isDigit_of_mem_toDigits hc)
  obtain ⟨c, tail, hw⟩ : ∃ c tail, (toString n).toList = c :: tail := by
    refine List.exists_cons_of_ne_nil ?_
    rw [hlist]
    exact List.append_ne_nil_of_right_ne_nil _ Nat.toDigits_ne_nil
  have hc : BeginsNumber c := hall c (by rw [hw]; exact List.mem_cons_self ..)
  constructor
  · exact ⟨c, tail, hw, hc.not_space, hc.ne rfl (by decide), hc.ne rfl (by decide)⟩
  · exact fun c hc => (hall c hc).printed
  · intro fuel place whole rest hfuel hrest
    rw [hw] at hfuel
    cases fuel with
    | zero => cases hfuel
    | succ fuel =>
      obtain ⟨place', hread⟩ := readNumber_toDigits h negative place whole hrest
      refine ⟨place', ?_⟩
      rw [hn, ← List.append_assoc, ← hlist] at hread
      have hword := find?_words_toDigits n.natAbs negative rest
      rw [← List.append_assoc, ← hlist] at hword
      have hscalar : readValue (fuel + 1) ⟨(toString n).toList ++ rest, place, whole⟩ =
          readScalar ⟨(toString n).toList ++ rest, place, whole⟩ := by
        rw [hw]
        exact readValue_eq_readScalar hc fuel (tail ++ rest) place whole
      rw [hscalar, readScalar]
      simp only [hword]
      exact hread

theorem carries_text (s : String) : Carries (quote false s).toList (.text s) where
  starts := by
    rw [toList_quote]
    exact ⟨'"', _, rfl, rfl, by decide, by decide⟩
  printed := by
    rw [toList_quote]
    intro c hc
    simp only [List.mem_cons, List.mem_append, List.mem_flatMap, List.not_mem_nil,
      or_false] at hc
    rcases hc with rfl | ⟨x, -, hx⟩ | rfl
    · decide
    · exact printed_escapeChar x c hx
    · decide
  reads := by
    intro fuel place whole rest hfuel _
    obtain ⟨place', hread⟩ := readText_quote place (place + 1) whole s rest
    cases fuel with
    | zero =>
      rw [toList_quote] at hfuel
      cases hfuel
    | succ fuel =>
      refine ⟨place', ?_⟩
      rw [toList_quote, List.cons_append, List.append_assoc, List.singleton_append]
      simp only [readValue, hread]
      rfl

/-! ## 2. Collections -/

/-- Parts with commas between them. -/
def joined (parts : List (List Char)) : List Char :=
  [','].intercalate parts

theorem joined_singleton (p : List Char) : joined [p] = p := by
  simp [joined, List.intercalate]

theorem joined_cons_cons (p q : List Char) (ps : List (List Char)) :
    joined (p :: q :: ps) = p ++ ',' :: joined (q :: ps) := by
  simp [joined, List.intercalate]

theorem closes_comma (tail : List Char) : Closes (',' :: tail) := by simp [Closes]

theorem closes_bracket (tail : List Char) : Closes (']' :: tail) := by simp [Closes]

theorem closes_brace (tail : List Char) : Closes ('\x7d' :: tail) := by simp [Closes]

/-- Parts begin as the first of them does. -/
theorem joined_skip {p : List Char} (ps : List (List Char)) (h : Carries p v) (tail : List Char)
    (place : Nat) (whole : Bool) : Cursor.skip ⟨joined (p :: ps) ++ tail, place, whole⟩ =
      ⟨joined (p :: ps) ++ tail, place, whole⟩ := by
  cases ps with
  | nil =>
    rw [joined_singleton]
    exact h.skip tail place whole
  | cons q ps =>
    rw [joined_cons_cons, List.append_assoc]
    exact h.skip _ place whole

/-- The elements of a list are read back, up to its end. -/
theorem readItems_joined {parts : List (List Char)} {items : List Value}
    (h : List.Forall₂ Carries parts items) (hne : parts ≠ []) (fuel : Nat)
    (hfuel : (joined parts).length + 1 ≤ fuel) (acc : List Value) (place : Nat) (whole : Bool)
    (rest : List Char) : ∃ place',
      readItems fuel acc ⟨joined parts ++ ']' :: rest, place, whole⟩ =
        .ok (.list (acc.reverse ++ items), ⟨rest, place', whole⟩) := by
  induction h generalizing fuel acc place with
  | nil => exact absurd rfl hne
  | @cons p v ps vs hp hps ih =>
    -- one unit is for this call; the rest covers the first element and, after it, the others
    obtain ⟨fuel, rfl⟩ : ∃ n, fuel = n + 1 := ⟨fuel - 1, by omega⟩
    -- the first element ends at the bracket or at a comma, as there are others or not
    cases hps with
    | nil =>
      rw [joined_singleton] at hfuel ⊢
      obtain ⟨after, hread⟩ := hp.reads fuel place whole _ (by omega)
        (closes_bracket rest)
      refine ⟨after + 1, ?_⟩
      simp only [readItems, hread, skip_of_closes (closes_bracket rest)]
      rw [List.reverse_cons]
    | @cons q w qs ws hq hqs =>
      rw [joined_cons_cons] at hfuel ⊢
      rw [List.length_append, List.length_cons] at hfuel
      rw [List.append_assoc, List.cons_append]
      obtain ⟨after, hread⟩ := hp.reads fuel place whole _ (by omega)
        (closes_comma (joined (q :: qs) ++ ']' :: rest))
      obtain ⟨place', hrest⟩ := ih (List.cons_ne_nil _ _) fuel (by omega) (v :: acc)
        (after + 1)
      refine ⟨place', ?_⟩
      simp only [readItems, hread, skip_of_closes (closes_comma _), joined_skip qs hq]
      rw [hrest, List.reverse_cons, List.append_assoc, List.singleton_append]

theorem mem_joined {parts : List (List Char)} {c : Char} (h : c ∈ joined parts) :
    c = ',' ∨ ∃ p ∈ parts, c ∈ p := by
  induction parts with
  | nil => cases h
  | cons p ps ih =>
    cases ps with
    | nil =>
      rw [joined_singleton] at h
      exact Or.inr ⟨p, List.mem_singleton_self p, h⟩
    | cons q qs =>
      rw [joined_cons_cons, List.mem_append, List.mem_cons] at h
      rcases h with h | h | h
      · exact Or.inr ⟨p, List.mem_cons_self .., h⟩
      · exact Or.inl h
      · exact (ih h).imp_right fun ⟨r, hr, hc⟩ => ⟨r, List.mem_cons_of_mem _ hr, hc⟩

/-- Brackets around parts without control characters. -/
theorem printed_bracketed {parts : List (List Char)} {left right : Char}
    (hleft : 0x20 ≤ left.toNat) (hright : 0x20 ≤ right.toNat)
    (h : ∀ p ∈ parts, ∀ c ∈ p, 0x20 ≤ c.toNat) :
    ∀ c ∈ left :: (joined parts ++ [right]), 0x20 ≤ c.toNat := by
  intro c hc
  rw [List.mem_cons, List.mem_append, List.mem_singleton] at hc
  rcases hc with rfl | hc | rfl
  · exact hleft
  · rcases mem_joined hc with rfl | ⟨p, hp, hc⟩
    · decide
    · exact h p hp c hc
  · exact hright

/-- Parts do not begin with a bracket. -/
theorem joined_ne_bracket {p : List Char} (ps : List (List Char)) (h : Carries p v)
    (tail after : List Char) : joined (p :: ps) ++ tail ≠ ']' :: after := by
  obtain ⟨c, cs, rfl, -, hc, -⟩ := h.starts
  cases ps with
  | nil => simp [joined_singleton, hc]
  | cons q qs => simp [joined_cons_cons, hc]

/-- A list is read back from its elements. -/
theorem carries_list {parts : List (List Char)} {items : List Value}
    (h : List.Forall₂ Carries parts items) :
    Carries ('[' :: (joined parts ++ [']'])) (.list items) where
  starts := ⟨'[', _, rfl, rfl, by decide, by decide⟩
  printed := printed_bracketed (by decide) (by decide)
    ((List.forall₂_and_left _ _).mp (h.imp fun _ _ hc => ⟨hc.printed, hc⟩)).1
  reads := by
    intro fuel place whole rest hfuel _
    rw [List.length_cons, List.length_append, List.length_singleton] at hfuel
    obtain ⟨fuel, rfl⟩ : ∃ n, fuel = n + 1 := ⟨fuel - 1, by omega⟩
    rw [List.cons_append, List.append_assoc, List.singleton_append]
    cases h with
    | nil => exact ⟨place + 2, rfl⟩
    | @cons p v ps vs hp hps =>
      obtain ⟨place', hitems⟩ := readItems_joined (.cons hp hps) (List.cons_ne_nil _ _)
        fuel (by omega) [] (place + 1) whole rest
      refine ⟨place', ?_⟩
      have hskip := joined_skip ps hp (']' :: rest) (place + 1)
      have hopen := joined_ne_bracket ps hp (']' :: rest)
      simp only [readValue, hskip]
      exact hitems

/-- The characters are a key and what is read as the value of the entry. -/
def CarriesEntry (w : List Char) (e : Value × Value) : Prop :=
  ∃ key value, e.1 = .text key ∧ w = (quote false key).toList ++ ':' :: value ∧
    Carries value e.2

theorem CarriesEntry.printed {e : Value × Value} (h : CarriesEntry w e) :
    ∀ c ∈ w, 0x20 ≤ c.toNat := by
  obtain ⟨key, value, -, rfl, hvalue⟩ := h
  intro c hc
  rw [List.mem_append, List.mem_cons] at hc
  rcases hc with hc | rfl | hc
  · exact (carries_text key).printed c hc
  · decide
  · exact hvalue.printed c hc

/-- The key of an entry is read back, up to the value. -/
theorem readKey_quote (key : String) {value : List Char} (h : Carries value v) (place : Nat)
    (whole : Bool) (tail : List Char) : ∃ place',
      readKey ⟨(quote false key).toList ++ ':' :: value ++ tail, place, whole⟩ =
        .ok (key, ⟨value ++ tail, place', whole⟩) := by
  obtain ⟨after, hread⟩ := readText_quote place (place + 1) whole key (':' :: (value ++ tail))
  refine ⟨after + 1, ?_⟩
  have hcolon : Cursor.skip ⟨':' :: (value ++ tail), after, whole⟩ =
      ⟨':' :: (value ++ tail), after, whole⟩ := rfl
  simp only [toList_quote, List.cons_append, List.append_assoc, List.nil_append, readKey, hread,
    hcolon, h.skip]

/-- A key that is not there yet is put at the end. -/
theorem put_of_distinct {key v : Value} {acc : List (Value × Value)}
    (h : ∀ e ∈ acc, Value.same e.1 key = false) : Value.put key v acc = acc ++ [(key, v)] := by
  induction acc with
  | nil => rfl
  | cons first rest ih =>
    rw [List.forall_mem_cons] at h
    rw [Value.put, h.1, if_neg Bool.false_ne_true, ih h.2, List.cons_append]

/-- No key is given twice. -/
def Distinct (entries : List (Value × Value)) : Prop :=
  entries.Pairwise fun e e' => Value.same e.1 e'.1 = false

/-- Entries begin with a quote. -/
theorem joined_quote {p : List Char} (ps : List (List Char)) {e : Value × Value}
    (h : CarriesEntry p e) : ∃ tail, joined (p :: ps) = '"' :: tail := by
  obtain ⟨key, value, -, rfl, -⟩ := h
  rw [toList_quote]
  cases ps with
  | nil => exact ⟨_, joined_singleton _⟩
  | cons q qs => exact ⟨_, joined_cons_cons ..⟩

/-- The entries of an object are read back, up to its end. -/
theorem readEntries_joined {parts : List (List Char)} {entries : List (Value × Value)}
    (h : List.Forall₂ CarriesEntry parts entries) (hne : parts ≠ []) (fuel : Nat)
    (hfuel : (joined parts).length + 1 ≤ fuel) (acc : List (Value × Value))
    (hdistinct : Distinct (acc ++ entries)) (place : Nat) (whole : Bool) (rest : List Char) :
    ∃ place', readEntries fuel acc ⟨joined parts ++ '\x7d' :: rest, place, whole⟩ =
      .ok (.map (acc ++ entries), ⟨rest, place', whole⟩) := by
  induction h generalizing fuel acc place with
  | nil => exact absurd rfl hne
  | @cons p e ps es hp hps ih =>
    obtain ⟨fuel, rfl⟩ : ∃ n, fuel = n + 1 := ⟨fuel - 1, by omega⟩
    obtain ⟨key, value, hkey, rfl, hvalue⟩ := hp
    -- no earlier entry has the key, so the entry is not put in the place of one
    have hput : Value.put (.text key) e.2 acc = acc ++ [e] := by
      have hnew : ∀ a ∈ acc, Value.same a.1 (.text key) = false := by
        intro a ha
        rw [← hkey]
        exact (List.pairwise_append.mp hdistinct).2.2 a ha e (List.mem_cons_self ..)
      rw [put_of_distinct hnew, ← hkey]
    have hlong : value.length + 1 ≤ ((quote false key).toList ++ ':' :: value).length := by
      rw [List.length_append, List.length_cons]
      omega
    cases hps with
    | nil =>
      rw [joined_singleton] at hfuel ⊢
      obtain ⟨before, hreadKey⟩ := readKey_quote key hvalue place whole ('\x7d' :: rest)
      obtain ⟨after, hread⟩ := hvalue.reads fuel before whole _ (by omega)
        (closes_brace rest)
      refine ⟨after + 1, ?_⟩
      simp only [readEntries, hreadKey, hread, skip_of_closes (closes_brace rest), hput]
    | @cons q e' qs es hq hqs =>
      rw [joined_cons_cons] at hfuel ⊢
      rw [List.length_append, List.length_cons] at hfuel
      rw [List.append_assoc, List.cons_append]
      obtain ⟨before, hreadKey⟩ := readKey_quote key hvalue place whole
        (',' :: (joined (q :: qs) ++ '\x7d' :: rest))
      obtain ⟨after, hread⟩ := hvalue.reads fuel before whole _ (by omega)
        (closes_comma (joined (q :: qs) ++ '\x7d' :: rest))
      have hdistinct' : Distinct ((acc ++ [e]) ++ e' :: es) := by
        rwa [List.append_assoc, List.singleton_append]
      obtain ⟨place', hrest⟩ := ih (List.cons_ne_nil _ _) fuel (by omega) _ hdistinct'
        (after + 1)
      have hskip : Cursor.skip ⟨joined (q :: qs) ++ '\x7d' :: rest, after + 1, whole⟩ =
          ⟨joined (q :: qs) ++ '\x7d' :: rest, after + 1, whole⟩ := by
        obtain ⟨tail, htail⟩ := joined_quote qs hq
        rw [htail]
        rfl
      refine ⟨place', ?_⟩
      simp only [readEntries, hreadKey, hread, skip_of_closes (closes_comma _), hput, hskip]
      rw [hrest, List.append_assoc, List.singleton_append]

/-- A map is read back from its entries. -/
theorem carries_map {parts : List (List Char)} {entries : List (Value × Value)}
    (h : List.Forall₂ CarriesEntry parts entries) (hdistinct : Distinct entries) :
    Carries ('\x7b' :: (joined parts ++ ['\x7d'])) (.map entries) where
  starts := ⟨'\x7b', _, rfl, rfl, by decide, by decide⟩
  printed := printed_bracketed (by decide) (by decide)
    ((List.forall₂_and_left _ _).mp (h.imp fun _ _ hc => ⟨hc.printed, hc⟩)).1
  reads := by
    intro fuel place whole rest hfuel _
    rw [List.length_cons, List.length_append, List.length_singleton] at hfuel
    obtain ⟨fuel, rfl⟩ : ∃ n, fuel = n + 1 := ⟨fuel - 1, by omega⟩
    rw [List.cons_append, List.append_assoc, List.singleton_append]
    cases h with
    | nil => exact ⟨place + 2, rfl⟩
    | @cons p e ps es hp hps =>
      obtain ⟨place', hentries⟩ := readEntries_joined (.cons hp hps) (List.cons_ne_nil _ _)
        fuel (by omega) [] hdistinct (place + 1) whole rest
      refine ⟨place', ?_⟩
      obtain ⟨tail, htail⟩ := joined_quote ps hp
      rw [htail] at hentries ⊢
      exact hentries

/-! ## 3. Writing and reading -/

/-- A value that is the same after it has been written and read: no floats, no whole number with
too many digits, and maps whose keys are distinct texts. -/
inductive Storable : Value → Prop
  | null : Storable .null
  | bool (b : Bool) : Storable (.bool b)
  | int (n : Int) (h : n.natAbs < 10 ^ mostDigits) : Storable (.int n)
  | text (s : String) : Storable (.text s)
  | list (items : List Value) (h : ∀ v ∈ items, Storable v) : Storable (.list items)
  | map (entries : List (Value × Value)) (hkeys : ∀ e ∈ entries, ∃ s, e.1 = .text s)
      (hdistinct : Distinct entries) (hvalues : ∀ e ∈ entries, Storable e.2) :
      Storable (.map entries)

/-- At every depth the value is written as something that is read as the value. -/
def WrittenBack (v : Value) : Prop :=
  ∀ depth, ∃ t, write false depth v = .ok t ∧ Carries t.toList v

theorem toList_bracketed (depth : Nat) (left right : String) (parts : List String) :
    (bracketed false depth left right parts).toList =
      left.toList ++ (joined (parts.map String.toList) ++ right.toList) := by
  rw [bracketed]
  split
  · rename_i hparts
    rw [List.isEmpty_iff.mp hparts]
    simp [joined, List.intercalate]
  · simp [joined, String.toList_intercalate]

theorem exists_writeItems {items : List Value} (h : ∀ v ∈ items, WrittenBack v) (depth : Nat) :
    ∃ parts, writeItems false depth items = .ok parts ∧
      List.Forall₂ Carries (parts.map String.toList) items := by
  induction items with
  | nil => exact ⟨[], rfl, .nil⟩
  | cons v rest ih =>
    rw [List.forall_mem_cons] at h
    obtain ⟨t, ht, hcarries⟩ := h.1 depth
    obtain ⟨parts, hparts, hrest⟩ := ih h.2
    refine ⟨t :: parts, ?_, .cons hcarries hrest⟩
    simp only [writeItems, ht, hparts]
    rfl

theorem exists_writeEntries {entries : List (Value × Value)}
    (hkeys : ∀ e ∈ entries, ∃ s, e.1 = .text s) (h : ∀ e ∈ entries, WrittenBack e.2)
    (depth : Nat) : ∃ parts, writeEntries false depth entries = .ok parts ∧
      List.Forall₂ CarriesEntry (parts.map String.toList) entries := by
  induction entries with
  | nil => exact ⟨[], rfl, .nil⟩
  | cons e rest ih =>
    obtain ⟨k, v⟩ := e
    rw [List.forall_mem_cons] at hkeys h
    obtain ⟨key, rfl⟩ := hkeys.1
    obtain ⟨t, ht, hcarries⟩ := h.1 depth
    obtain ⟨parts, hparts, hrest⟩ := ih hkeys.2 h.2
    refine ⟨(quote false key ++ ":" ++ t) :: parts, ?_,
      .cons ⟨key, t.toList, rfl, by simp [String.toList_append], hcarries⟩ hrest⟩
    simp only [writeEntries, keyText?, Value.text?_text, ht, hparts]
    rfl

/-- Every storable value is written and read back. -/
theorem writtenBack (h : Storable v) : WrittenBack v := by
  induction h with
  | null => exact fun depth => ⟨_, rfl, carries_null⟩
  | bool b => exact fun depth => ⟨_, rfl, carries_bool b⟩
  | int n h => exact fun depth => ⟨_, rfl, carries_int h⟩
  | text s => exact fun depth => ⟨_, rfl, carries_text s⟩
  | list items _ ih =>
    intro depth
    obtain ⟨parts, hparts, hcarries⟩ := exists_writeItems ih (depth + 1)
    refine ⟨bracketed false depth "[" "]" parts, ?_, ?_⟩
    · simp only [write, hparts]
      rfl
    · rw [toList_bracketed]
      exact carries_list hcarries
  | map entries hkeys hdistinct _ ih =>
    intro depth
    obtain ⟨parts, hparts, hcarries⟩ := exists_writeEntries hkeys ih (depth + 1)
    refine ⟨bracketed false depth "\x7b" "\x7d" parts, ?_, ?_⟩
    · simp only [write, hparts]
      rfl
    · rw [toList_bracketed]
      exact carries_map hcarries hdistinct

theorem carries_compact (h : Storable v) : Carries (compact v).toList v := by
  obtain ⟨t, ht, hcarries⟩ := writtenBack h 0
  rw [compact, ht]
  exact hcarries

/-- **What is written is read back**, and nothing is replaced in reading it. -/
theorem readNoting_compact (h : Storable v) :
    readNoting (compact v).toList = .ok (v, true) := by
  have hcarries := carries_compact h
  obtain ⟨place', hread⟩ := hcarries.reads (2 * (compact v).toList.length + 4) 0 true [] (by omega)
    closes_nil
  have hskip := hcarries.skip [] 0 true
  rw [List.append_nil] at hread hskip
  rw [readNoting, hskip, hread]
  rfl

/-- A text that is written does not begin with a byte order mark. -/
theorem read_compact (h : Storable v) : read (compact v) = .ok v := by
  obtain ⟨c, tail, hw, -, -, hmark⟩ := (carries_compact h).starts
  have hhead : ((compact v).toList.head? == some '\uFEFF') = false := by
    rw [hw]
    simpa using hmark
  rw [read, hhead, if_neg Bool.false_ne_true, readChars, readNoting_compact h]
  rfl

/-- What is written is whole. -/
theorem isWhole_compact (h : Storable v) : isWhole (compact v) = true := by
  rw [isWhole, readNoting_compact h]

/-- The two halves of a pair are whole together, and one half is not. -/
example : isWhole "\"\\ud83d\\ude00\"" = true ∧ isWhole "\"\\ud83d\"" = false := by
  decide +kernel

example : compact (.list [.map [(.text "rank", .int (-3))], .text "a\r", .null]) =
    "[\x7b\"rank\":-3\x7d,\"a\\r\",null]" := by
  decide +kernel

end AccessControl.Json
