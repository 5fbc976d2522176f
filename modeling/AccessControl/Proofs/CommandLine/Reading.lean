import AccessControl.CommandLine.Reading
import AccessControl.Proofs.Outcome
import Mathlib.Data.List.Nodup

/-!
# What a command line leaves behind when it is read

Reading goes through the arguments once and puts values under keys.  Whoever uses the values relies
on two things that no single step of the reading establishes, `Given.ReadBy`.  Under a key there is
a value of the kind that the part with this key takes, `Given.Fits`; and under the key of a part
that must be there, there is a value.

## What is kept

`Progress.Fits` is the invariant: every value so far is of the kind of its part, every part that has
been seen has a value, and the words that are left are words of the grammar.  One step is
`Progress.Fits.store`: a part of the grammar puts a value of its kind under its key.  It is kept
along the arguments, `Progress.Fits.read`, by induction on these.

A switch that adds to a list needs more than the kind of the new value.  What stands under its key
already has to be a list of texts, and it is one because no other part has this key; that is what
`KeysDiffer` is for.

## The separator that is taken for a word

There is one value that a word can have and that is no text, the empty list: a word that looks like
a separator, and comes after the separator, is taken for one.
-/

namespace AccessControl.CommandLine

/-- What a switch stores once it has been there. -/
inductive Taking.Stores : Taking → Value → Prop
  | nothing : Stores .nothing (.bool true)
  | text (s : String) : Stores .text (.text s)
  | texts (items : List String) (h : items ≠ []) : Stores .texts (.list (items.map .text))
  | number (n : Int) : Stores .number (.int n)
  | choice {among : List String} {s : String} (h : s ∈ among) : Stores (.choice among) (.text s)

/-- What a part stores once it has been there. -/
inductive Part.Stores : Part → Value → Prop
  | switch {s : Switch} {v : Value} (h : s.takes.Stores v) : Stores (.switch s) v
  | word (w : Word) (s : String) : Stores (.word w) (.text s)
  /-- What looks like a separator is taken for one, and nothing is left of it. -/
  | separator (w : Word) : Stores (.word w) (.list [])

/-- Every value is of the kind of the part whose key it has. -/
def Given.Fits (g : Given) (parts : List Part) : Prop :=
  ∀ key v, g.lookup key = some v → ∃ part ∈ parts, part.key = key ∧ part.Stores v

/-- No two parts have the same key. -/
def KeysDiffer (parts : List Part) : Prop :=
  (parts.map Part.key).Nodup

/-- The values have been read by a grammar with these parts: they are of the kinds of their parts,
and no part is missing that must be there. -/
structure Given.ReadBy (g : Given) (parts : List Part) : Prop where
  keysDiffer : KeysDiffer parts
  fits : g.Fits parts
  complete : ∀ part ∈ parts, part.required = true → ∃ v, g.lookup part.key = some v

/-- Nothing that does not fit has been read so far, and what is left to come fits. -/
structure Progress.Fits (p : Progress) (parts : List Part) : Prop where
  given : p.given.Fits parts
  seen : ∀ key ∈ p.seen, ∃ v, p.given.lookup key = some v
  words : ∀ w ∈ p.words, Part.word w ∈ parts

/-- The switch of an argument, if it stands for one, is one of these. -/
def Token.Of (switches : List Switch) : Token → Prop
  | .switch s _ _ _ => s ∈ switches
  | _ => True

variable {parts : List Part} {g g' : Given} {p p' : Progress} {switches : List Switch}

/-! ## 1. Values under keys -/

theorem Given.lookup_set (g : Given) (key k : String) (v : Value) :
    (g.set key v).lookup k = if k = key then some v else g.lookup k := by
  rw [Given.set, List.lookup_cons]
  by_cases hk : k = key
  · simp [hk]
  · rw [beq_false_of_ne hk, if_neg hk]
    induction g with
    | nil => rfl
    | cons first rest ih =>
      obtain ⟨l, w⟩ := first
      by_cases hl : l = key
      · have hdropped : (l != key) = false := by simp [hl]
        rw [List.filter_cons, hdropped, List.lookup_cons, beq_false_of_ne (hl ▸ hk)]
        exact ih
      · have hkept : (l != key) = true := by simp [hl]
        rw [List.filter_cons, hkept, if_pos rfl, List.lookup_cons, List.lookup_cons]
        cases k == l with
        | true => rfl
        | false => exact ih

/-- Two parts with one key are one part. -/
theorem KeysDiffer.eq_of_key_eq (h : KeysDiffer parts) {a b : Part} (ha : a ∈ parts)
    (hb : b ∈ parts) (hkey : a.key = b.key) : a = b :=
  List.inj_on_of_nodup_map h ha hb hkey

/-- A value of the kind of a part can be put under its key. -/
theorem Given.Fits.set (h : g.Fits parts) {part : Part} (hpart : part ∈ parts) {v : Value}
    (hv : part.Stores v) : (g.set part.key v).Fits parts := by
  intro key w hw
  rw [Given.lookup_set] at hw
  split at hw
  · rename_i hkey
    cases hw
    exact ⟨part, hpart, hkey.symm, hv⟩
  · exact h key w hw

/-- What stands under the key of a part is of its kind. -/
theorem Given.Fits.stores (h : g.Fits parts) (hkeys : KeysDiffer parts) {part : Part}
    (hpart : part ∈ parts) {v : Value} (hv : g.lookup part.key = some v) : part.Stores v := by
  obtain ⟨other, hother, hkey, hstores⟩ := h part.key v hv
  rw [← hkeys.eq_of_key_eq hother hpart hkey]
  exact hstores

/-- The texts under the key of a switch that adds to a list. -/
theorem Given.Fits.exists_texts (h : g.Fits parts) (hkeys : KeysDiffer parts) {s : Switch}
    (hs : Part.switch s ∈ parts) (htakes : s.takes = .texts) :
    ∃ items : List String, g.texts s.key = items.map .text := by
  rw [Given.texts]
  cases hfound : g.lookup s.key with
  | none => exact ⟨[], rfl⟩
  | some v =>
    have hstores := h.stores hkeys hs (show g.lookup (Part.switch s).key = some v from hfound)
    cases hstores with
    | switch hv =>
      rw [htakes] at hv
      cases hv with
      | texts items _ => exact ⟨items, rfl⟩

/-! ## 2. One part -/

/-- What a switch takes, it stores. -/
theorem Given.Fits.take (h : g.Fits parts) (hkeys : KeysDiffer parts) {s : Switch}
    (hs : Part.switch s ∈ parts) (hvalue : s.takes.hasValue = true) {value : String}
    (htake : g.take s value = .ok g') : ∃ v, s.takes.Stores v ∧ g' = g.set s.key v := by
  rw [Given.take] at htake
  cases htakes : s.takes with
  | help =>
    rw [htakes] at hvalue
    cases hvalue
  | nothing =>
    rw [htakes] at hvalue
    cases hvalue
  | text =>
    rw [htakes] at htake
    cases htake
    exact ⟨_, .text value, rfl⟩
  | texts =>
    rw [htakes] at htake
    cases htake
    obtain ⟨items, hitems⟩ := h.exists_texts hkeys hs htakes
    refine ⟨_, ?_, rfl⟩
    have hmore : g.texts s.key ++ [.text value] = (items ++ [value]).map Value.text := by
      rw [hitems, List.map_append]
      rfl
    rw [hmore]
    exact .texts _ (by simp)
  | number =>
    simp only [htakes] at htake
    split at htake
    · split at htake
      · cases htake
      · rename_i n _ _
        cases htake
        exact ⟨_, .number n, rfl⟩
    · cases htake
  | choice among =>
    simp only [htakes] at htake
    split at htake
    · rename_i hmem
      cases htake
      exact ⟨_, .choice (List.contains_iff_mem.mp hmem), rfl⟩
    · cases htake

/-- A switch that takes nothing stores that it has been there. -/
theorem Given.exists_of_mark {s : Switch} (hvalue : s.takes.hasValue = false)
    (hmark : g.mark s = .ok g') : ∃ v, s.takes.Stores v ∧ g' = g.set s.key v := by
  rw [Given.mark] at hmark
  split at hmark
  · cases hmark
  · rename_i hhelp
    cases hmark
    cases htakes : s.takes with
    | nothing => exact ⟨_, .nothing, rfl⟩
    | help => exact absurd htakes hhelp
    | _ =>
      rw [htakes] at hvalue
      cases hvalue

/-- A part of the grammar stores a value of its kind. -/
theorem Progress.Fits.store (h : p.Fits parts) {part : Part} (hpart : part ∈ parts) {v : Value}
    (hv : part.Stores v) {words : List Word} (hwords : ∀ w ∈ words, Part.word w ∈ parts) :
    Progress.Fits { p with
      given := p.given.set part.key v, seen := part.key :: p.seen, words := words } parts where
  given := h.given.set hpart hv
  seen := by
    intro key hkey
    simp only [Given.lookup_set]
    by_cases hsame : key = part.key
    · exact ⟨v, if_pos hsame⟩
    · rw [if_neg hsame]
      exact h.seen key ((List.mem_cons.mp hkey).resolve_left hsame)
  words := hwords

theorem Progress.Fits.saw (h : p.Fits parts) {s : Switch} (hs : Part.switch s ∈ parts) {v : Value}
    (hv : s.takes.Stores v) : (p.saw s (p.given.set s.key v)).Fits parts :=
  h.store hs (.switch hv) h.words

theorem Progress.Fits.leave (h : p.Fits parts) (argument : String) :
    (p.leave argument).Fits parts :=
  ⟨h.given, h.seen, h.words⟩

/-- The next word of the grammar stores a text, or nothing if it looks like a separator. -/
theorem Progress.Fits.takeWord (h : p.Fits parts) (s : String) (separator : Bool) :
    (p.takeWord (if separator then .list [] else .text s)).Fits parts := by
  rw [Progress.takeWord]
  split
  · rename_i w rest hwords
    have hmem := h.words
    rw [hwords, List.forall_mem_cons] at hmem
    refine h.store hmem.1 ?_ hmem.2
    cases separator with
    | true => exact .separator w
    | false => exact .word w s
  · exact h

/-! ## 3. All arguments -/

/-- A beginning of a name stands for one of the switches. -/
theorem Token.of_mem_candidates {cs : List Char} {e : String × Token}
    (h : e ∈ candidates switches cs) : e.2.Of switches := by
  have hnamed : ∀ e ∈ (switches.flatMap fun s => s.names.map fun name => (name, s)),
      e.2 ∈ switches := by
    intro e he
    obtain ⟨s, hs, he⟩ := List.mem_flatMap.mp he
    obtain ⟨name, -, rfl⟩ := List.mem_map.mp he
    exact hs
  rw [candidates.eq_def] at h
  split at h
  · obtain ⟨named, hmem, h⟩ := List.mem_filterMap.mp h
    split at h
    · cases h
      exact hnamed named hmem
    · cases h
  · obtain ⟨named, hmem, h⟩ := List.mem_filterMap.mp h
    split at h
    · cases h
      exact hnamed named hmem
    · split at h
      · cases h
        exact hnamed named hmem
      · cases h

/-- The switch that an argument stands for is one of the grammar. -/
theorem Token.of_classify {s : String} {t : Token} (h : classify switches s = .ok t) :
    t.Of switches := by
  simp only [classify] at h
  split at h
  · cases h
    trivial
  · split at h
    -- the name of a switch
    · rename_i w hnamed
      cases h
      exact List.mem_of_find?_eq_some hnamed
    · split at h
      · cases h
        trivial
      · split at h
        -- a name with its value
        · rename_i hnamed
          cases h
          exact List.mem_of_find?_eq_some hnamed
        · split at h
          -- the beginning of one name only
          · rename_i name token hone
            rw [← Except.ok.inj h]
            have hmem : (name, token) ∈ candidates switches s.toList := by
              rw [hone]
              exact List.mem_singleton_self _
            exact Token.of_mem_candidates hmem
          · split at h
            · cases h
              trivial
            · cases h
              trivial
          · cases h

theorem Token.of_mem_tokens {arguments : List String} {ts : List Token}
    (h : tokens switches arguments = .ok ts) : ∀ t ∈ ts, t.Of switches := by
  induction arguments generalizing ts with
  | nil =>
    cases h
    simp
  | cons s rest ih =>
    rw [tokens] at h
    split at h
    · cases h
      simp [Token.Of]
    · obtain ⟨first, hfirst, h⟩ := bind_eq_ok_iff.mp h
      obtain ⟨later, hlater, h⟩ := bind_eq_ok_iff.mp h
      cases h
      rw [List.forall_mem_cons]
      exact ⟨Token.of_classify hfirst, ih hlater⟩

/-- **Reading keeps what fits.** -/
theorem Progress.Fits.read (hkeys : KeysDiffer parts)
    (hswitches : ∀ s ∈ switches, Part.switch s ∈ parts) {before : Before} {ts : List Token}
    (hts : ∀ t ∈ ts, t.Of switches) (h : p.Fits parts) (hread : p.read before ts = .ok p') :
    p'.Fits parts := by
  fun_induction Progress.read p before ts with
  | case1 =>
    cases hread
    exact h
  -- a separator
  | case2 p rest ih | case4 p before rest _ _ ih =>
    rw [List.forall_mem_cons] at hts
    exact ih hts.2 h hread
  | case3 p before rest _ _ ih =>
    rw [List.forall_mem_cons] at hts
    exact ih hts.2 (h.leave _) hread
  -- an argument that no switch takes
  | case5 p before s rest _ ih | case7 p before s rest ih =>
    rw [List.forall_mem_cons] at hts
    exact ih hts.2 (h.leave s) hread
  | case6 p before s rest _ value ih =>
    rw [List.forall_mem_cons] at hts
    exact ih hts.2 (h.takeWord s _) hread
  -- a switch with its value behind it, or in the next argument
  | case8 p before s short joined value rest hvalue given htake ih =>
    rw [List.forall_mem_cons] at hts
    have hs : Part.switch s ∈ parts := hswitches s hts.1
    obtain ⟨v, hv, rfl⟩ := h.given.take hkeys hs hvalue htake
    exact ih hts.2 (h.saw hs hv) hread
  | case11 p before s short joined hvalue value after given htake ih =>
    rw [List.forall_mem_cons, List.forall_mem_cons] at hts
    have hs : Part.switch s ∈ parts := hswitches s hts.1
    obtain ⟨v, hv, rfl⟩ := h.given.take hkeys hs hvalue htake
    exact ih hts.2.2 (h.saw hs hv) hread
  -- a switch that takes nothing
  | case14 p before s short joined rest hvalue given hmark ih =>
    rw [List.forall_mem_cons] at hts
    have hs : Part.switch s ∈ parts := hswitches s hts.1
    obtain ⟨v, hv, rfl⟩ := Given.exists_of_mark (Bool.not_eq_true _ ▸ hvalue) hmark
    exact ih hts.2 (h.saw hs hv) hread
  | case9 | case10 | case12 | case13 | case15 => cases hread

/-! ## 4. Grammars and tools -/

theorem Grammar.mem_parts_of_mem_switches {grammar : Grammar} {s : Switch}
    (h : s ∈ grammar.switches) : Part.switch s ∈ grammar.parts := by
  obtain ⟨part, hpart, heq⟩ := List.mem_filterMap.mp h
  cases part with
  | switch other =>
    cases heq
    exact hpart
  | word w => cases heq

theorem Grammar.mem_parts_of_mem_words {grammar : Grammar} {w : Word} (h : w ∈ grammar.words) :
    Part.word w ∈ grammar.parts := by
  obtain ⟨part, hpart, heq⟩ := List.mem_filterMap.mp h
  cases part with
  | switch s => cases heq
  | word other =>
    cases heq
    exact hpart

/-- In the beginning nothing has been read. -/
theorem Progress.fits_start (grammar : Grammar) :
    Progress.Fits { words := grammar.words } grammar.parts where
  given := by
    intro key v hv
    cases hv
  seen := by
    intro key hkey
    cases hkey
  words := fun _ hw => Grammar.mem_parts_of_mem_words hw

/-- **A grammar is read.** -/
theorem Grammar.readBy {grammar : Grammar} {arguments leftOver : List String}
    (hkeys : KeysDiffer grammar.parts) (hread : grammar.read arguments = .ok (g, leftOver)) :
    g.ReadBy grammar.parts := by
  obtain ⟨ts, hts, hread⟩ := bind_eq_ok_iff.mp hread
  obtain ⟨p, hp, hread⟩ := bind_eq_ok_iff.mp hread
  have hfits : p.Fits grammar.parts :=
    (Progress.fits_start grammar).read hkeys (fun _ => Grammar.mem_parts_of_mem_switches)
      (Token.of_mem_tokens hts) hp
  simp only at hread
  split at hread
  · rename_i hmissing
    cases hread
    refine ⟨hkeys, hfits.given, fun part hpart hrequired => ?_⟩
    have hseen : part.key ∈ p.seen := by
      have hnot := List.filter_eq_nil_iff.mp (List.isEmpty_iff.mp hmissing) part hpart
      simpa [hrequired] using hnot
    exact hfits.seen part.key hseen
  · cases hread

/-- The command that is found has been read by its grammar. -/
theorem Tool.read_of_scan {t : Tool} {e : Entry} {before arguments leftOver : List String}
    (h : t.scan before arguments = .ok (some (e, g), leftOver)) :
    e ∈ t.entries ∧ ∃ rest more, (t.grammar e).read rest = .ok (g, more) := by
  induction arguments generalizing before with
  | nil => cases h
  | cons s rest ih =>
    simp only [Tool.scan] at h
    split at h
    · split at h
      · cases h
      · cases h
    · split at h
      · cases h
      · cases h
      · cases h
      · exact ih h
      · split at h
        · cases h
        · rename_i found hfound
          split at h
          · cases h
          · rename_i given more hread
            cases h
            exact ⟨List.mem_of_find?_eq_some hfound, rest, more, hread⟩

/-- **A tool is read**, and then one of its commands with its grammar. -/
theorem Tool.readBy {t : Tool} {e : Entry} {arguments : List String}
    (hkeys : ∀ e ∈ t.entries, KeysDiffer (t.grammar e).parts)
    (h : t.read arguments = .ok (e, g)) : e ∈ t.entries ∧ g.ReadBy (t.grammar e).parts := by
  rw [Tool.read] at h
  split at h
  · cases h
  · rename_i asked leftOver hscan
    split at h
    · cases h
    · split at h
      · cases h
      · cases h
        obtain ⟨he, rest, more, hread⟩ := Tool.read_of_scan hscan
        exact ⟨he, Grammar.readBy (hkeys e he) hread⟩

/-! ## 5. What a part has stored -/

/-- Under the key of a known part there is nothing, or a value of its kind. -/
theorem Given.ReadBy.stored (h : g.ReadBy parts) {known : List Part} (hknown : known ⊆ parts)
    {key : String} {part : Part} (hpart : (known.find? fun part => part.key == key) = some part) :
    g.lookup key = none ∨ ∃ v, g.lookup key = some v ∧ part.Stores v := by
  have hmem : part ∈ parts := hknown (List.mem_of_find?_eq_some hpart)
  have hkey : part.key = key := by simpa using List.find?_some hpart
  cases hv : g.lookup key with
  | none => exact Or.inl rfl
  | some v =>
    rw [← hkey] at hv
    exact Or.inr ⟨v, rfl, h.fits.stores h.keysDiffer hmem hv⟩

/-- Under the key of a known part that must be there, there is a value of its kind. -/
theorem Given.ReadBy.stored_of_required (h : g.ReadBy parts) {known : List Part}
    (hknown : known ⊆ parts) {key : String} {part : Part}
    (hpart : (known.find? fun part => part.key == key) = some part)
    (hrequired : part.required = true) : ∃ v, g.lookup key = some v ∧ part.Stores v := by
  have hkey : part.key = key := by simpa using List.find?_some hpart
  obtain ⟨v, hv⟩ := h.complete part (hknown (List.mem_of_find?_eq_some hpart)) hrequired
  rw [hkey] at hv
  rcases h.stored hknown hpart with hnone | hsome
  · rw [hv] at hnone
    cases hnone
  · exact hsome

end AccessControl.CommandLine
