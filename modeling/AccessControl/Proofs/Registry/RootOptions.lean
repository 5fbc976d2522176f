import AccessControl.Options.Root
import AccessControl.Proofs.Http.Presentation
import AccessControl.Proofs.Json.RoundTrip
import AccessControl.Proofs.Registry.Table

/-!
# What reading the options of a root makes sure of

Reading is not yet accepting.  It looks at the shape of each field and turns names into texts; which
names there are, and whether they fit together, is left to the registry.  What is certain of options
that have been read is little, and `RootOptions.Validated` says all of it: there is a role, no two
roles have the same name, the default is not the empty text, and the checks are records of checks.

That this is all is said by `validated_iff`: whatever has these four properties is read from
something.  It is read from its own record, `parse_toValue`.

## Where names could be lost

The roles are a map, and its keys are turned into texts.  Two keys can turn into one text, and then
the later definition takes the place of the earlier one.  So distinct names are a property of what
has been read, `nodup_assignAll`, and not of what was given; and only if they are distinct is every
role read as it stands, `assignAll_of_nodup`.  The resources are a list, in which a name can be
repeated.
-/

namespace AccessControl

namespace RootOptions

variable {o : RootOptions} {v : Value} {roles : List (String × Value)} {checks : List Value}

/-- What is certain of the options of a root that have been read. -/
structure Validated (o : RootOptions) : Prop where
  some_role : o.roles ≠ []
  distinct : (o.roles.map Prod.fst).Nodup
  default : o.defaultRole ≠ ""
  checks : ∀ check ∈ o.checks, ∃ fields, check = .record .check fields

/-! ## 1. The roles -/

/-- The role as an entry of a map. -/
def entry (role : String × Value) : Value × Value :=
  (.text role.1, role.2)

/-- Texts as keys are plain already; if they are distinct, no entry replaces another. -/
theorem plainKeys_texts (before : List (String × Value))
    (h : ((before ++ roles).map Prod.fst).Nodup) :
    plainKeys (before.map entry) (roles.map entry) = .ok ((before ++ roles).map entry) := by
  induction roles generalizing before with
  | nil => rw [List.map_nil, plainKeys, List.append_nil]
  | cons role rest ih =>
    have hnew : ∀ e ∈ before.map entry, Value.same e.1 (.text role.1) = false := by
      intro e he
      obtain ⟨earlier, hearlier, rfl⟩ := List.mem_map.mp he
      rw [entry, Value.same_text, beq_eq_false_iff_ne]
      exact fun hsame => notMem_of_nodup_append h (hsame ▸ List.mem_map_of_mem hearlier)
    have hput : Value.put (.text role.1) role.2 (before.map entry) =
        (before ++ [role]).map entry := by
      rw [Json.put_of_distinct hnew, List.map_append]
      rfl
    rw [List.append_cons] at h ⊢
    rw [List.map_cons, plainKeys, entry, Value.name_text, Value.unhashable?_text]
    simp only
    rw [hput, ih _ h]

theorem readRoles_texts (hne : roles ≠ []) (hdistinct : (roles.map Prod.fst).Nodup) :
    readRoles (roles.map entry) = .ok roles := by
  have hput : assignAll [] roles = roles := assignAll_of_nodup hdistinct
  rw [readRoles, List.map_map, Checked.all_of_ok (g := fun role => role), List.map_id']
  · cases roles with
    | nil => exact absurd rfl hne
    | cons first rest => exact congrArg Except.ok hput
  · intro role _
    rfl

/-- Roles that have been read are some, and have distinct names. -/
theorem roles_of_readRoles {entries : List (Value × Value)} (h : readRoles entries = .ok roles) :
    roles ≠ [] ∧ (roles.map Prod.fst).Nodup := by
  rw [readRoles] at h
  split at h
  · cases h
  · cases h
  · rename_i es hne hall
    cases h
    have hdistinct : ((assignAll [] es).map Prod.fst).Nodup :=
      nodup_assignAll [] List.nodup_nil es
    refine ⟨?_, hdistinct⟩
    cases es with
    | nil => exact absurd rfl hne
    | cons e rest => exact assignAll_ne_nil (assign_ne_nil e.1 e.2 []) rest

theorem roles_of_rolesField {field : Option Value} (h : rolesField field = .ok (.ok roles)) :
    roles ≠ [] ∧ (roles.map Prod.fst).Nodup := by
  cases field with
  | none => cases h
  | some w =>
    rw [rolesField] at h
    split at h
    · obtain ⟨entries, -, hread⟩ := map_eq_ok_iff.mp h
      exact roles_of_readRoles hread
    · cases h

/-! ## 2. The resources and the checks -/

theorem resourcesField_texts (names : List String) :
    resourcesField (.list (names.map .text)) = .ok names := by
  have hnames : Value.names? (.list (names.map .text)) = some (names.map .text) := by
    simp [Value.names?, Value.items?]
  have htexts : ∀ w ∈ names.map Value.text, ∀ n : Nat,
      Field.text [.key "resources", .index n] w = .ok (w.text?.getD "") := by
    intro w hw n
    obtain ⟨name, -, rfl⟩ := List.mem_map.mp hw
    rfl
  rw [resourcesField, hnames]
  simp only [Value.isNull, Bool.false_eq_true, if_false]
  rw [Checked.each_of_ok htexts, List.map_map]
  exact congrArg Except.ok (List.map_id names)

theorem shape_of_readCheck {w check : Value} (h : readCheck w = .ok check) :
    ∃ fields, check = .record .check fields := by
  unfold readCheck at h
  split at h
  · cases h
    exact ⟨_, rfl⟩
  · split at h
    · cases h
      exact ⟨_, rfl⟩
    · cases h

/-- Checks that have been read are records of checks. -/
theorem shape_of_readChecks {items : List Value} (h : readChecks items = .ok checks) :
    ∀ check ∈ checks, ∃ fields, check = .record .check fields := by
  induction items generalizing checks with
  | nil =>
    cases h
    exact fun _ hmem => nomatch hmem
  | cons w rest ih =>
    rw [readChecks] at h
    split at h
    · rename_i first hfirst
      obtain ⟨later, hlater, rfl⟩ := map_eq_ok_iff.mp h
      rw [List.forall_mem_cons]
      exact ⟨shape_of_readCheck hfirst, ih hlater⟩
    · cases h

theorem shape_of_checksField {field : Option Value} (h : checksField field = .ok (.ok checks)) :
    ∀ check ∈ checks, ∃ fields, check = .record .check fields := by
  cases field with
  | none =>
    cases h
    exact fun _ hmem => nomatch hmem
  | some w =>
    rw [checksField] at h
    split at h
    · cases h
    · split at h
      · exact shape_of_readChecks (Except.ok.inj h)
      · cases h

/-- Records of checks are read as they are. -/
theorem readChecks_records (h : ∀ check ∈ checks, ∃ fields, check = .record .check fields) :
    readChecks checks = .ok checks := by
  induction checks with
  | nil => rfl
  | cons check rest ih =>
    rw [List.forall_mem_cons] at h
    obtain ⟨fields, rfl⟩ := h.1
    have hread : readCheck (.record .check fields) = .ok (.record .check fields) := rfl
    rw [readChecks, hread]
    simp only
    rw [ih h.2, map_ok]

/-! ## 3. The options -/

theorem ne_empty_of_nonemptyText {place : List Place} {w : Value} {s : String}
    (h : Field.nonemptyText place w = .ok s) : s ≠ "" := by
  rw [Field.nonemptyText] at h
  split at h
  · split at h
    · cases h
    · rename_i hnonempty
      cases h
      rintro rfl
      exact hnonempty rfl
  · cases h

theorem validated_of_ofEntries {entries : List (Value × Value)}
    (h : ofEntries entries = .ok (.ok o)) : o.Validated := by
  rw [ofEntries, bind_eq_ok_iff] at h
  obtain ⟨roles, hroles, h⟩ := h
  rw [bind_eq_ok_iff] at h
  obtain ⟨checks, hchecks, h⟩ := h
  simp only [pure_eq_ok, Except.ok.injEq, Checked.also_eq_ok_iff] at h
  obtain ⟨_, authz, ⟨_, authn, ⟨_, sink, ⟨_, logging, ⟨_, read, ⟨_, resolver, ⟨_, resources,
    ⟨_, default, hmap, hdefault, rfl⟩, -, rfl⟩, -, rfl⟩, rfl, rfl⟩, -, rfl⟩, -, rfl⟩, -, rfl⟩, -,
    rfl⟩ := h
  obtain ⟨declared, rfl, rfl⟩ := map_eq_ok_iff.mp hmap
  obtain ⟨hsome, hdistinct⟩ := roles_of_rolesField hroles
  refine ⟨hsome, hdistinct, ?_, shape_of_checksField hchecks⟩
  cases hfield : Value.find? (.text "default") entries with
  | none =>
    rw [hfield] at hdefault
    cases hdefault
  | some w =>
    rw [hfield] at hdefault
    exact ne_empty_of_nonemptyText hdefault

/-- What a reading of all fields comes to. -/
def judge : Except Misuse (Checked RootOptions) → Except Fault RootOptions
  | .error m => .error (.misuse m)
  | .ok (.error issues) => .error (.config (.issues issues))
  | .ok (.ok options) => .ok options

theorem eq_ok_of_judge {x : Except Misuse (Checked RootOptions)} (h : judge x = .ok o) :
    x = .ok (.ok o) := by
  unfold judge at h
  split at h
  · cases h
  · cases h
  · cases h
    rfl

/-- What has been read is certain. -/
theorem validated_of_parse (h : parse v = .ok o) : o.Validated := by
  have hread : ∃ entries, ofEntries entries = .ok (.ok o) := by
    unfold parse at h
    dsimp only at h
    split at h
    · exact ⟨_, eq_ok_of_judge h⟩
    · split at h
      · exact ⟨_, eq_ok_of_judge h⟩
      · cases h
  obtain ⟨entries, hread⟩ := hread
  exact validated_of_ofEntries hread

/-- Options are read if each of the fields is read as a part of them. -/
theorem ofEntries_of_fields {entries : List (Value × Value)}
    (hroles : rolesField (Value.find? (.text "roles") entries) = .ok (.ok o.roles))
    (hdefault : Field.needed [.key "default"] (fun w => Field.nonemptyText [.key "default"] w.name)
      (Value.find? (.text "default") entries) = .ok o.defaultRole)
    (hresources : Field.needed [.key "resources"] resourcesField
      (Value.find? (.text "resources") entries) = .ok o.resources)
    (hresolver : Field.needed [.key "context_resolver"] (Field.function [.key "context_resolver"])
      (Value.find? (.text "context_resolver") entries) = .ok o.resolver)
    (hchecks : checksField (Value.find? (.text "global_checks") entries) = .ok (.ok o.checks))
    (hlogging : Field.flag? [.key "log"] (Value.find? (.text "log") entries) = .ok o.logging)
    (hsink : Field.function? [.key "logger"] (Value.find? (.text "logger") entries) = .ok o.sink)
    (hauthn : Field.function? [.key "authn_exception"]
      (Value.find? (.text "authn_exception") entries) = .ok o.authnRefusal)
    (hauthz : Field.function? [.key "authz_exception"]
      (Value.find? (.text "authz_exception") entries) = .ok o.authzRefusal) :
    ofEntries entries = .ok (.ok o) := by
  simp only [ofEntries, hroles, hdefault, hresources, hresolver, hchecks, hlogging, hsink, hauthn,
    hauthz, ok_bind]
  rfl

/-- **Options are read from their own record**, as they are. -/
theorem parse_toValue (h : o.Validated) : parse o.toValue = .ok o := by
  have hroles : rolesField (some (.map (o.roles.map entry))) = .ok (.ok o.roles) := by
    have hkeys : plainKeys [] (o.roles.map entry) = .ok (o.roles.map entry) :=
      plainKeys_texts [] h.distinct
    simp only [rolesField, Value.entries?, hkeys, map_ok]
    rw [readRoles_texts h.some_role h.distinct]
  have hchecks : checksField (some (.list o.checks)) = .ok (.ok o.checks) :=
    congrArg Except.ok (readChecks_records h.checks)
  have hdefault : Field.nonemptyText [.key "default"] (.text o.defaultRole) = .ok o.defaultRole :=
    if_neg fun hempty => h.default (String.isEmpty_iff.mp hempty)
  have hresources : resourcesField (.list (o.resources.map .text)) = .ok o.resources :=
    resourcesField_texts o.resources
  have hlogging : Field.flag? [.key "log"] (some ((o.logging.map Value.bool).getD .null)) =
      .ok o.logging := by
    cases o.logging <;> rfl
  have hhook : ∀ (place : List Place) (f : Option Callable),
      Field.function? place (some (hook f)) = .ok f := by
    intro place f
    cases f <;> rfl
  change judge _ = judge (.ok (.ok o))
  refine congrArg judge ?_
  exact ofEntries_of_fields hroles hdefault hresources rfl hchecks hlogging (hhook _ o.sink)
    (hhook _ o.authnRefusal) (hhook _ o.authzRefusal)

/-- **What is certain of options that have been read** is that they are validated. -/
theorem validated_iff : o.Validated ↔ ∃ v, parse v = .ok o := by
  constructor
  · exact fun h => ⟨_, parse_toValue h⟩
  · rintro ⟨v, h⟩
    exact validated_of_parse h

end RootOptions

end AccessControl
