import AccessControl.Proofs.Registry.Growth
import AccessControl.Proofs.Value.Names

/-!
# How a start fails

A process must not start with a configuration that is not acceptable, and whoever starts it wants
to be told what is wrong: the error belongs to the configuration, and the log has one line about
it.  The options may be any map, with any value under any key.

## Where the statement could break

Reading a field answers in one of two ways.  What is wrong with the shape becomes an issue, and the
issues of all fields make up one error of the configuration.  A value that cannot even be looked at
is a `Misuse`, which ends the reading on the spot, is no error of the configuration and is not
logged.  Only two fields of a root can end so, and `RootOptions.Derails` says exactly when:

* a role is declared under a member of an enumeration whose value cannot be a key, so that the map
  from plain names cannot be made;
* the global checks are a value that there is no going through, such as a number.

The resources are listed in the same way as the checks, but there a value that lists nothing is an
issue.  The options of a feature never derail.

## What the registry adds

Once the options are read, a registry is built from them by commands, and what the commands
complain about is always the configuration: `Registry.failsWith_build`.  So a start comes to a
judgement exactly when the options do not derail (`Registry.starts_judged`).
-/

namespace AccessControl

variable {α : Type} {v : Value} {entries : List (Value × Value)} {m : Misuse}

/-- Reading options comes to a judgement: they are accepted, or there are issues. -/
def Judged (x : Except Fault α) : Prop :=
  (∃ a, x = .ok a) ∨ ∃ found, x = .error (.config (.issues found))

theorem not_judged_misuse : ¬ Judged (.error (.misuse m) : Except Fault α) := by
  rintro (⟨a, h⟩ | ⟨found, h⟩)
  · cases h
  · cases h

/-! ## 1. Options -/

/-- A map is read as the options of a feature by its entries. -/
theorem FeatureOptions.parse_of_entries? (hmap : v.entries? = some entries) :
    FeatureOptions.parse v =
      (ofFields fun key => Value.find? (.text key) entries).mapError fun found =>
        .config (.issues found) := by
  cases v with
  | map es =>
    cases hmap
    simp only [FeatureOptions.parse, Value.entries?]
    cases ofFields fun key => Value.find? (.text key) entries <;> rfl
  | view es =>
    cases hmap
    simp only [FeatureOptions.parse, Value.entries?]
    cases ofFields fun key => Value.find? (.text key) entries <;> rfl
  | _ => cases hmap

/-- **The options of a feature** always come to a judgement. -/
theorem FeatureOptions.judged_parse (hmap : v.entries? = some entries) :
    Judged (FeatureOptions.parse v) := by
  rw [FeatureOptions.parse_of_entries? hmap]
  cases ofFields fun key => Value.find? (.text key) entries with
  | error found => exact Or.inr ⟨found, rfl⟩
  | ok options => exact Or.inl ⟨options, rfl⟩

namespace RootOptions

/-- The options end the reading with a misuse.  The roles are looked at before the checks. -/
inductive Derails (entries : List (Value × Value)) : Misuse → Prop
  /-- The plain name of a role cannot be a key. -/
  | roles {v : Value} {declared : List (Value × Value)} {kind : String}
      (hfield : Value.find? (.text "roles") entries = some v)
      (hdeclared : v.entries? = some declared)
      (hkey : Value.unhashableItem? (declared.map fun e => e.1.name) = some kind) :
      Derails entries (.unhashable kind)
  /-- There is no going through the global checks. -/
  | checks {v : Value}
      (hroles : ∀ w declared, Value.find? (.text "roles") entries = some w →
        w.entries? = some declared →
        Value.unhashableItem? (declared.map fun e => e.1.name) = none)
      (hfield : Value.find? (.text "global_checks") entries = some v)
      (hnull : v.isNull = false) (hitems : v.items? = none) :
      Derails entries (.notIterable v.operandName)

theorem plainKeys_eq_error_iff {declared acc : List (Value × Value)} :
    plainKeys acc declared = .error m ↔
      ∃ kind, Value.unhashableItem? (declared.map fun e => e.1.name) = some kind ∧
        m = .unhashable kind := by
  induction declared generalizing acc with
  | nil => simp [plainKeys, Value.unhashableItem?]
  | cons e rest ih =>
    obtain ⟨k, w⟩ := e
    rw [plainKeys, List.map_cons, Value.unhashableItem?]
    cases hkind : k.name.unhashable? with
    | none => exact ih
    | some kind => simp [eq_comm]

/-- The roles derail by a name that cannot be a key. -/
theorem rolesField_eq_error_iff {field : Option Value} :
    rolesField field = .error m ↔ ∃ v declared kind, field = some v ∧
      v.entries? = some declared ∧
      Value.unhashableItem? (declared.map fun e => e.1.name) = some kind ∧
      m = .unhashable kind := by
  cases field with
  | none => simp [rolesField]
  | some v =>
    rw [rolesField]
    cases hdeclared : v.entries? with
    | none => simp [hdeclared]
    | some declared =>
      have hmap : (plainKeys [] declared).map readRoles = .error m ↔
          plainKeys [] declared = .error m := by
        cases plainKeys [] declared with
        | error m' => simp [Except.map]
        | ok es => simp [Except.map]
      simp only [hmap, plainKeys_eq_error_iff]
      constructor
      · rintro ⟨kind, hkey, rfl⟩
        exact ⟨v, declared, kind, rfl, hdeclared, hkey, rfl⟩
      · rintro ⟨w, declared', kind, hw, hdeclared', hkey, rfl⟩
        cases hw
        cases hdeclared.symm.trans hdeclared'
        exact ⟨kind, hkey, rfl⟩

/-- A text and a map can be gone through, so for the checks to derail it is enough that there is
no going through them. -/
theorem checksField_eq_error_iff {field : Option Value} :
    checksField field = .error m ↔ ∃ v, field = some v ∧ v.isNull = false ∧ v.items? = none ∧
      m = .notIterable v.operandName := by
  have hlisted : ∀ v : Value, v.items? = none → v.text? = none ∧ v.entries? = none := by
    intro v hitems
    constructor
    · cases htext : v.text? with
      | none => rfl
      | some s =>
        rcases Value.eq_of_text? htext with rfl | ⟨e, n, rfl⟩
        · cases hitems
        · cases hitems
    · cases v with
      | map es => cases hitems
      | view es => cases hitems
      | _ => rfl
  cases field with
  | none => simp [checksField]
  | some v =>
    rw [checksField]
    cases hitems : v.items? with
    | some items =>
      constructor
      · intro h
        split at h
        · cases h
        · cases h
      · rintro ⟨w, hw, -, hnone, -⟩
        cases hw
        rw [hitems] at hnone
        cases hnone
    | none =>
      obtain ⟨htext, hentries⟩ := hlisted v hitems
      rw [htext, hentries]
      cases hnull : v.isNull with
      | true => simp [hnull]
      | false =>
        constructor
        · intro h
          cases h
          exact ⟨v, rfl, hnull, hitems, rfl⟩
        · rintro ⟨w, hw, -, -, rfl⟩
          cases hw
          rfl

/-- **The options of a root derail** in the two ways of `Derails`, and in no other. -/
theorem ofEntries_eq_error_iff : ofEntries entries = .error m ↔ Derails entries m := by
  rw [ofEntries]
  cases hroles : rolesField (Value.find? (.text "roles") entries) with
  | error m' =>
    obtain ⟨v, declared, kind, hfield, hdeclared, hkey, rfl⟩ := rolesField_eq_error_iff.mp hroles
    constructor
    · intro h
      cases h
      exact .roles hfield hdeclared hkey
    · intro h
      cases h with
      | roles hfield' hdeclared' hkey' =>
        cases hfield.symm.trans hfield'
        cases hdeclared.symm.trans hdeclared'
        cases hkey.symm.trans hkey'
        rfl
      | checks hroles' hfield' _ _ =>
        rw [hroles' v declared hfield hdeclared] at hkey
        cases hkey
  | ok roles =>
    have hnames : ∀ w declared, Value.find? (.text "roles") entries = some w →
        w.entries? = some declared →
        Value.unhashableItem? (declared.map fun e => e.1.name) = none := by
      intro w declared hfield hdeclared
      cases hkey : Value.unhashableItem? (declared.map fun e => e.1.name) with
      | none => rfl
      | some kind =>
        rw [rolesField_eq_error_iff.mpr ⟨w, declared, kind, hfield, hdeclared, hkey, rfl⟩] at hroles
        cases hroles
    cases hchecks : checksField (Value.find? (.text "global_checks") entries) with
    | error m' =>
      obtain ⟨v, hfield, hnull, hitems, rfl⟩ := checksField_eq_error_iff.mp hchecks
      constructor
      · intro h
        cases h
        exact .checks hnames hfield hnull hitems
      · intro h
        cases h with
        | roles hfield' hdeclared' hkey' =>
          rw [hnames _ _ hfield' hdeclared'] at hkey'
          cases hkey'
        | checks _ hfield' _ _ =>
          cases hfield.symm.trans hfield'
          rfl
    | ok checks =>
      constructor
      · intro h
        cases h
      · intro h
        cases h with
        | roles hfield' hdeclared' hkey' =>
          rw [hnames _ _ hfield' hdeclared'] at hkey'
          cases hkey'
        | checks _ hfield' hnull' hitems' =>
          rw [checksField_eq_error_iff.mpr ⟨_, hfield', hnull', hitems', rfl⟩] at hchecks
          cases hchecks

theorem parse_of_entries (hmap : v.entries? = some entries) :
    parse v = match ofEntries entries with
      | .error m => .error (.misuse m)
      | .ok (.error found) => .error (.config (.issues found))
      | .ok (.ok options) => .ok options := by
  cases v with
  | map es =>
    cases hmap
    rfl
  | view es =>
    cases hmap
    rfl
  | _ => cases hmap

theorem parse_of_derails (hmap : v.entries? = some entries) (h : Derails entries m) :
    parse v = .error (.misuse m) := by
  rw [parse_of_entries hmap, ofEntries_eq_error_iff.mpr h]

/-- **The options of a root** come to a judgement exactly when they do not derail. -/
theorem judged_parse_iff (hmap : v.entries? = some entries) :
    Judged (parse v) ↔ ∀ m, ¬ Derails entries m := by
  constructor
  · intro h m hderails
    rw [parse_of_derails hmap hderails] at h
    exact not_judged_misuse h
  · intro h
    rw [parse_of_entries hmap]
    cases hread : ofEntries entries with
    | error m => exact absurd (ofEntries_eq_error_iff.mp hread) (h m)
    | ok read =>
      cases read with
      | error found => exact Or.inr ⟨found, rfl⟩
      | ok options => exact Or.inl ⟨options, rfl⟩

end RootOptions

/-! ## 2. Registries -/

/-- Steps that fail in one way fail in this way one after the other. -/
theorem failsWith_foldlM {ε β : Type} {P : ε → Prop} {f : β → α → Except ε β}
    (hf : ∀ b a, FailsWith P (f b a)) (items : List α) (b : β) :
    FailsWith P (items.foldlM f b) := by
  induction items generalizing b with
  | nil => exact failsWith_ok b
  | cons a rest ih =>
    rw [List.foldlM_cons]
    exact failsWith_bind (hf b a) fun next => ih next

namespace Registry

open RootOptions

/-- The step fails, if at all, with an error of the configuration. -/
abbrev Blames (x : Except Fault α) : Prop :=
  FailsWith (fun e => e.isConfiguration = true) x

theorem blames_requireName (what : String) (v : Value) : Blames (requireName what v) := by
  rw [requireName]
  split
  · split
    · exact failsWith_error rfl
    · exact failsWith_ok _
  · exact failsWith_error rfl

theorem blames_requireFunction (what : String) (v : Value) : Blames (requireFunction what v) := by
  rw [requireFunction]
  split
  · exact failsWith_ok _
  · exact failsWith_error rfl

theorem blames_addRole (r : Registry) (role definition : Value) :
    Blames (r.addRole role definition) := by
  rw [addRole]
  refine failsWith_bind (blames_requireName _ role) fun name => ?_
  by_cases hnull : definition.isNull = true
  · rw [if_pos hnull]
    exact failsWith_error rfl
  · simp only [if_neg hnull]
    split
    · exact failsWith_ok _
    · exact failsWith_ok _

theorem blames_setDefaultRole (r : Registry) (role : Value) (force : Bool) :
    Blames (r.setDefaultRole role force) := by
  rw [setDefaultRole]
  refine failsWith_bind (blames_requireName _ role) fun name => ?_
  by_cases hrole : (!r.hasRole name) = true
  · rw [if_pos hrole]
    exact failsWith_error rfl
  · simp only [if_neg hrole]
    split
    · exact failsWith_ok _
    · exact failsWith_ok _

theorem blames_addResource (r : Registry) (resource definition : Value) :
    Blames (r.addResource resource definition) := by
  rw [addResource]
  refine failsWith_bind (blames_requireName _ resource) fun name => ?_
  split
  · rw [declare]
    split
    · exact failsWith_error rfl
    · exact failsWith_ok _
  · rw [define]
    split
    · exact failsWith_error rfl
    · split
      · exact failsWith_error rfl
      · split
        · rename_i defect _
          cases defect with
          | misuse m => exact failsWith_error rfl
          | flaw f => exact failsWith_error rfl
          | unknownRole role => exact failsWith_error rfl
        · exact failsWith_ok _

theorem blames_readCheck (v : Value) : Blames (readCheck v) := by
  rw [readCheck]
  exact failsWith_bind (blames_requireName _ _) fun _ =>
    failsWith_bind (blames_requireFunction _ _) fun _ =>
      failsWith_bind (blames_requireName _ _) fun _ => failsWith_ok _

theorem blames_setChecks (r : Registry) (v : Value) : Blames (r.setChecks v) := by
  rw [setChecks]
  split
  · exact failsWith_error rfl
  · exact failsWith_bind (failsWith_mapM blames_readCheck _) fun _ => failsWith_ok _

/-- **Building a registry** fails with an error of the configuration, if it fails. -/
theorem failsWith_build (o : RootOptions) : Blames (build o) := by
  rw [build]
  refine failsWith_bind (failsWith_foldlM (fun r _ => blames_addRole r _ _) _ _) fun _ => ?_
  refine failsWith_bind (failsWith_foldlM (fun r _ => blames_addResource r _ _) _ _) fun _ => ?_
  exact failsWith_bind (blames_setDefaultRole _ _ _) fun _ =>
    failsWith_bind (blames_setChecks _ _) fun _ => failsWith_ok _

/-- A start comes to a judgement: there is a registry and the log announces it, or there is an
error of the configuration and the log has one line, which is about it. -/
inductive Started : Run Registry → Prop
  | accepted (r : Registry) : Started ⟨[.logged (logLine .info r.readyMessage)], .ok r⟩
  | refused (e : Fault) (he : e.isConfiguration = true) :
      Started ⟨[.logged (logLine .error ("AuthZ configuration failed: " ++ e.message))], .error e⟩

theorem fromOptions_of_derails (hmap : v.entries? = some entries) (h : Derails entries m) :
    fromOptions v = ⟨[], .error (.misuse m)⟩ := by
  rw [fromOptions, parse_of_derails hmap h]
  rfl

theorem started_of_judged (h : Judged (RootOptions.parse v)) : Started (fromOptions v) := by
  rw [fromOptions]
  rcases h with ⟨o, ho⟩ | ⟨found, hfound⟩
  · rw [ho]
    simp only [Except.bind]
    cases hbuild : build o with
    | ok r => exact .accepted r
    | error e =>
      have he : e.isConfiguration = true := failsWith_build o e hbuild
      simp only [failureEvents, if_pos he]
      exact .refused e he
  · rw [hfound]
    exact .refused _ rfl

/-- The options of a shop with one role and one resource, and these global checks. -/
def shopOptions (checks : Value) : List (Value × Value) :=
  [(.text "roles", .map [(.text "CLERK", .map [(.text "rank", .int 1)])]),
    (.text "default", .text "CLERK"),
    (.text "resources", .list [.text "Invoice"]),
    (.text "context_resolver", .callable (.resolver .directory)),
    (.text "global_checks", checks)]

theorem derails_shopOptions_iff {checks : Value} : Derails (shopOptions checks) m ↔
    checks.isNull = false ∧ checks.items? = none ∧ m = .notIterable checks.operandName := by
  have hroles : Value.find? (.text "roles") (shopOptions checks) =
      some (.map [(.text "CLERK", .map [(.text "rank", .int 1)])]) := by
    simp [shopOptions, Value.find?]
  have hchecks : Value.find? (.text "global_checks") (shopOptions checks) = some checks := by
    simp [shopOptions, Value.find?]
  constructor
  · rintro (⟨hfield, hdeclared, hkey⟩ | ⟨-, hfield, hnull, hitems⟩)
    · cases hroles.symm.trans hfield
      cases hdeclared
      simp [Value.unhashableItem?] at hkey
    · cases hchecks.symm.trans hfield
      exact ⟨hnull, hitems, rfl⟩
  · rintro ⟨hnull, hitems, rfl⟩
    refine .checks (fun w declared hfield hdeclared => ?_) hchecks hnull hitems
    cases hroles.symm.trans hfield
    cases hdeclared
    simp [Value.unhashableItem?]

theorem derails_number : Derails (shopOptions (.int 5)) (.notIterable "int") :=
  derails_shopOptions_iff.mpr ⟨rfl, rfl, rfl⟩

end Registry

end AccessControl
