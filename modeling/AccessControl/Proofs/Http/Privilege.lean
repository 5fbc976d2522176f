import AccessControl.Proofs.Http.Transition

/-!
# No escalation of privileges

Nobody but a super admin has a say in who is a super admin.  This does not hold of every
directory: a rank is data, and a manager may change whoever is assigned.  It holds as long as ranks
and assignments keep the super admins apart from all others, `Guarded`.

* A super admin has rank zero or less.
* Everybody else has rank one or more.
* Nobody else manages a super admin.

## Why the three are kept

They are needed together.  An admin can reach those of equal or lower authority only, and these are
no super admins because of the ranks (`Guarded.not_superAdmin_of_le`).  A manager can reach those
that are assigned, and these are no super admins because of the third.  And a new manager, by whom
somebody could get at a super admin in the end, is assigned only those whom the admin can reach.

So a transition in the name of anybody else leaves the super admins as they are and the directory
guarded, `Guarded.step`; and by induction over the requests so does any run, `super_admins_kept`.
-/

namespace AccessControl.Http

variable {c s t t' u : Account} {accounts accounts' : List Account} {d : Directory}

/-- Ranks and assignments keep the super admins apart from all others. -/
structure Guarded (accounts : List Account) : Prop where
  superAdmin_rank : ∀ s ∈ accounts, s.role = .superAdmin → s.rank ≤ 0
  other_rank : ∀ a ∈ accounts, a.role ≠ .superAdmin → 1 ≤ a.rank
  unassigned : ∀ a ∈ accounts, a.role ≠ .superAdmin → ∀ s ∈ accounts, s.role = .superAdmin →
    s.userId ∉ a.assigned

theorem guarded_iff : Guarded accounts ↔
    (∀ s ∈ accounts, s.role = .superAdmin → s.rank ≤ 0) ∧
    (∀ a ∈ accounts, a.role ≠ .superAdmin → 1 ≤ a.rank) ∧
    ∀ a ∈ accounts, a.role ≠ .superAdmin → ∀ s ∈ accounts, s.role = .superAdmin →
      s.userId ∉ a.assigned :=
  ⟨fun h => ⟨h.superAdmin_rank, h.other_rank, h.unassigned⟩, fun h => ⟨h.1, h.2.1, h.2.2⟩⟩

instance : Decidable (Guarded accounts) := decidable_of_iff _ guarded_iff.symm

/-- The super admins, in their order. -/
def superAdmins (accounts : List Account) : List Account :=
  accounts.filter fun a => decide (a.role = .superAdmin)

theorem mem_superAdmins : s ∈ superAdmins accounts ↔ s ∈ accounts ∧ s.role = .superAdmin := by
  rw [superAdmins, List.mem_filter, decide_eq_true_iff]

/-! ## 1. Whom others can reach -/

/-- Whoever has no more authority than an account that is no super admin is none either. -/
theorem Guarded.not_superAdmin_of_le (hg : Guarded accounts) (hc : c ∈ accounts)
    (hrole : c.role ≠ .superAdmin) (ht : t ∈ accounts) (hle : c.rank ≤ t.rank) :
    t.role ≠ .superAdmin := by
  intro hsuper
  have hhigh := hg.superAdmin_rank t ht hsuper
  have hlow := hg.other_rank c hc hrole
  omega

/-- Whoever is revised by an account that is no super admin is none either. -/
theorem Guarded.not_superAdmin_of_revision (hg : Guarded accounts) (hd : d.Holds accounts)
    (hc : c ∈ accounts) (hrole : c.role ≠ .superAdmin) (ht : t ∈ accounts)
    (h : Revision c accounts accounts' t t') : t.role ≠ .superAdmin := by
  have hself : t.userId = c.userId → t.role ≠ .superAdmin := by
    intro hid
    rw [hd.eq_of_userId_eq ht hc hid]
    exact hrole
  rcases h.authority with hsuper | ⟨-, hle⟩ | ⟨-, hassigned | hid⟩ | ⟨-, hid⟩
  · exact absurd hsuper hrole
  · exact hg.not_superAdmin_of_le hc hrole ht hle
  · exact fun hsuper => hg.unassigned c hc hrole t ht hsuper hassigned
  · exact hself hid
  · exact hself hid

/-- Whoever is removed by an account that is no super admin is none either. -/
theorem Guarded.not_superAdmin_of_deletion (hg : Guarded accounts) (hc : c ∈ accounts)
    (hrole : c.role ≠ .superAdmin) (ht : t ∈ accounts) (h : Deletion c accounts accounts' t) :
    t.role ≠ .superAdmin := by
  rcases h.authority with hsuper | ⟨-, hle⟩
  · exact absurd hsuper hrole
  · exact hg.not_superAdmin_of_le hc hrole ht hle

/-! ## 2. One transition -/

/-- Accounts that agree with guarded ones in all that matters are guarded. -/
theorem Guarded.of_counterparts (hg : Guarded accounts)
    (h : ∀ a ∈ accounts', ∃ b ∈ accounts, b.role = a.role ∧ b.rank = a.rank ∧
      b.userId = a.userId ∧ b.assigned = a.assigned) : Guarded accounts' := by
  refine ⟨?_, ?_, ?_⟩
  · intro s hs hsuper
    obtain ⟨b, hb, hrole, hrank, -, -⟩ := h s hs
    rw [← hrank]
    exact hg.superAdmin_rank b hb (hrole.trans hsuper)
  · intro a ha hother
    obtain ⟨b, hb, hrole, hrank, -, -⟩ := h a ha
    rw [← hrank]
    exact hg.other_rank b hb (by rw [hrole]; exact hother)
  · intro a ha hother s hs hsuper
    obtain ⟨b, hb, hrole, -, -, hassigned⟩ := h a ha
    obtain ⟨b', hb', hrole', -, hid', -⟩ := h s hs
    rw [← hassigned, ← hid']
    exact hg.unassigned b hb (by rw [hrole]; exact hother) b' hb' (hrole'.trans hsuper)

/-- **A creation** by an account that is no super admin creates none, and assigns none. -/
theorem Guarded.creation (hg : Guarded accounts) (hc : c ∈ accounts) (hrole : c.role ≠ .superAdmin)
    (h : Creation c accounts accounts' u) :
    Guarded accounts' ∧ superAdmins accounts' = superAdmins accounts := by
  have hlow := hg.other_rank c hc hrole
  rcases h.authority with hsuper | ⟨-, hrank, hassigned⟩
  · exact absurd hsuper hrole
  have hu : u.role ≠ .superAdmin := by
    intro hsuper
    have hzero := h.rank
    rw [hsuper] at hzero
    have hle : c.rank ≤ ((Role.superAdmin.rank : Nat) : Int) := hzero ▸ hrank
    have hnone : ((Role.superAdmin.rank : Nat) : Int) = 0 := rfl
    omega
  rw [h.added]
  refine ⟨⟨?_, ?_, ?_⟩, ?_⟩
  · intro s hs hsuper
    rcases List.mem_append.mp hs with hs | hs
    · exact hg.superAdmin_rank s hs hsuper
    · rw [List.mem_singleton.mp hs] at hsuper
      exact absurd hsuper hu
  · intro a ha hother
    rcases List.mem_append.mp ha with ha | ha
    · exact hg.other_rank a ha hother
    · rw [List.mem_singleton.mp ha]
      omega
  · intro a ha hother s hs hsuper
    -- a super admin is an old account, whoever it is that should not manage it
    have hold : s ∈ accounts := by
      rcases List.mem_append.mp hs with hs | hs
      · exact hs
      · rw [List.mem_singleton.mp hs] at hsuper
        exact absurd hsuper hu
    rcases List.mem_append.mp ha with ha | ha
    · exact hg.unassigned a ha hother s hold hsuper
    · rw [List.mem_singleton.mp ha]
      intro hmem
      exact hg.not_superAdmin_of_le hc hrole hold (hassigned s hold hmem) hsuper
  · rw [superAdmins, List.filter_append, List.filter_cons_of_neg (by simpa using hu),
      List.filter_nil, List.append_nil]
    rfl

/-- **A revision** by an account that is no super admin changes none. -/
theorem Guarded.revision (hg : Guarded accounts) (hd : d.Holds accounts) (hc : c ∈ accounts)
    (hrole : c.role ≠ .superAdmin) (h : Revision c accounts accounts' t t') :
    Guarded accounts' ∧ superAdmins accounts' = superAdmins accounts := by
  obtain ⟨before, after, hbefore, hafter⟩ := h.place
  have ht : t ∈ accounts := by
    rw [hbefore]
    exact List.mem_append_right _ (List.mem_cons_self ..)
  have hother := hg.not_superAdmin_of_revision hd hc hrole ht h
  have hrole' : t'.role = t.role := by
    rw [h.fields]
  refine ⟨hg.of_counterparts fun a ha => ?_, ?_⟩
  · rw [hafter, List.mem_append, List.mem_cons] at ha
    rcases ha with ha | rfl | ha
    · exact ⟨a, by rw [hbefore]; exact List.mem_append_left _ ha, rfl, rfl, rfl, rfl⟩
    · refine ⟨t, ht, ?_⟩
      rw [h.fields]
      exact ⟨rfl, rfl, rfl, rfl⟩
    · refine ⟨a, ?_, rfl, rfl, rfl, rfl⟩
      rw [hbefore]
      exact List.mem_append_right _ (List.mem_cons_of_mem _ ha)
  · rw [hbefore, hafter, superAdmins, superAdmins, List.filter_append, List.filter_append,
      List.filter_cons_of_neg (by simpa [hrole'] using hother),
      List.filter_cons_of_neg (by simpa using hother)]

/-- **A deletion** by an account that is no super admin takes none away. -/
theorem Guarded.deletion (hg : Guarded accounts) (hc : c ∈ accounts) (hrole : c.role ≠ .superAdmin)
    (h : Deletion c accounts accounts' t) :
    Guarded accounts' ∧ superAdmins accounts' = superAdmins accounts := by
  obtain ⟨before, after, hbefore, hafter⟩ := h.place
  have ht : t ∈ accounts := by
    rw [hbefore]
    exact List.mem_append_right _ (List.mem_cons_self ..)
  have hother := hg.not_superAdmin_of_deletion hc hrole ht h
  refine ⟨hg.of_counterparts fun a ha => ⟨a, ?_, rfl, rfl, rfl, rfl⟩, ?_⟩
  · rw [hafter, List.mem_append] at ha
    rw [hbefore]
    rcases ha with ha | ha
    · exact List.mem_append_left _ ha
    · exact List.mem_append_right _ (List.mem_cons_of_mem _ ha)
  · rw [hbefore, hafter, superAdmins, superAdmins, List.filter_append, List.filter_append,
      List.filter_cons_of_neg (by simpa using hother)]

/-- A transition in the name of an account that is no super admin leaves the super admins as they
are, and the accounts guarded. -/
theorem Guarded.step (hg : Guarded accounts) (hd : d.Holds accounts) (hc : c ∈ accounts)
    (hrole : c.role ≠ .superAdmin) (h : Transition c accounts accounts') :
    Guarded accounts' ∧ superAdmins accounts' = superAdmins accounts := by
  cases h with
  | creation u h => exact hg.creation hc hrole h
  | revision t t' h => exact hg.revision hd hc hrole h
  | deletion t h => exact hg.deletion hc hrole h

/-! ## 3. Runs -/

variable {settings : Settings} {server : Server}

/-- The request does not forward the id of any of these super admins. -/
def Request.SparesSuperAdmins (r : Request) (settings : Settings) (accounts : List Account) :
    Prop :=
  ∀ s ∈ superAdmins accounts, r.header? (Text.small settings.identityHeader) ≠ some s.userId

instance (r : Request) : Decidable (r.SparesSuperAdmins settings accounts) :=
  inferInstanceAs (Decidable (∀ s ∈ superAdmins accounts,
    r.header? (Text.small settings.identityHeader) ≠ some s.userId))

/-- Requests in the name of others leave the super admins as they are. -/
theorem Server.Running.exists_guarded (hs : server.Running settings accounts)
    (hg : Guarded accounts) {requests : List Request}
    (hothers : ∀ r ∈ requests, r.SparesSuperAdmins settings accounts) :
    ∃ accounts', (server.serveAll .standard requests).Running settings accounts' ∧
      superAdmins accounts' = superAdmins accounts ∧ Guarded accounts' := by
  induction requests generalizing server accounts with
  | nil => exact ⟨accounts, hs, rfl, hg⟩
  | cons r rest ih =>
    rw [List.forall_mem_cons] at hothers
    obtain ⟨next, hnext, ⟨-, rfl⟩ | ⟨c, hc, -, hheader, htransition⟩⟩ := hs.step r
    · exact ih hnext hg hothers.2
    · have hrole : c.role ≠ .superAdmin := fun hsuper =>
        hothers.1 c (mem_superAdmins.mpr ⟨hc, hsuper⟩) hheader
      obtain ⟨hguarded, hsame⟩ := hg.step hs.holds hc hrole htransition
      have hlater : ∀ r ∈ rest, r.SparesSuperAdmins settings next := by
        intro r hr s hmem
        rw [hsame] at hmem
        exact hothers.2 r hr s hmem
      obtain ⟨accounts', hs', hkept, hg'⟩ := ih hnext hguarded hlater
      exact ⟨accounts', hs', hkept.trans hsame, hg'⟩

/-- **No escalation of privileges.**  Take a seed in which ranks and assignments keep the super
admins apart, and any requests none of which is in the name of a super admin.  After each of them
the super admins are those of the seed, field for field and in the same order, and ranks and
assignments still keep them apart. -/
theorem super_admins_kept {location : String} {contents : Option (List UInt8)}
    (hstart : (Server.start settings location contents).2 = .ok server)
    (hseed : server.directory.Holds accounts) (hguarded : Guarded accounts)
    (requests : List Request)
    (hothers : ∀ r ∈ requests, r.SparesSuperAdmins settings accounts) :
    ∀ served, served <+: requests → ∃ accounts',
      (server.serveAll .standard served).directory.Holds accounts' ∧
      superAdmins accounts' = superAdmins accounts ∧ Guarded accounts' := by
  intro served hserved
  obtain ⟨held, hrunning⟩ := Server.exists_running_of_start hstart
  have hs : server.Running settings accounts :=
    ⟨hrunning.settings_eq, hrunning.registry_eq, hrunning.published_eq, hseed⟩
  obtain ⟨accounts', hs', hkept, hg'⟩ :=
    hs.exists_guarded hguarded fun r hr => hothers r (hserved.subset hr)
  exact ⟨accounts', hs'.holds, hkept, hg'⟩

/-- A seed with a super admin, an administrator and an agent. -/
def officeSeed : List UInt8 :=
  ("[\x7b\"user_id\":\"s1\",\"role\":\"SUPER_ADMIN\"\x7d,"
    ++ "\x7b\"user_id\":\"a1\",\"role\":\"ADMIN\"\x7d,"
    ++ "\x7b\"user_id\":\"g1\",\"role\":\"AGENT\"\x7d]").toUTF8.toList

/-- The administrator removes the agent. -/
def firing : Request := requestBy "a1" "DELETE" "/api/v1/users/g1" ""

/-- The case of an administrator who creates a manager, of this manager who changes an agent, and
of the administrator again, who removes the agent. -/
theorem super_admins_kept_office :
    ∃ server accounts,
      (Server.start seededSettings "users.json" (some officeSeed)).2 = .ok server ∧
      server.directory.Holds accounts ∧ Guarded accounts ∧ superAdmins accounts ≠ [] ∧
      (∀ r ∈ [hiring, naming, firing], r.SparesSuperAdmins seededSettings accounts) ∧
      ∀ served, served <+: [hiring, naming, firing] → ∃ accounts',
        (server.serveAll .standard served).directory.Holds accounts' ∧
        superAdmins accounts' = superAdmins accounts ∧ Guarded accounts' := by
  have htested : (Server.start seededSettings "users.json" (some officeSeed)).2.toOption.any
      (fun server =>
        decide (Guarded server.directory.accounts) &&
        !(superAdmins server.directory.accounts).isEmpty &&
        decide (∀ r ∈ [hiring, naming, firing],
          r.SparesSuperAdmins seededSettings server.directory.accounts)) = true := by
    decide +kernel
  obtain ⟨server, hstart, htested⟩ := exists_ok_of_any htested
  obtain ⟨accounts, hrunning⟩ := Server.exists_running_of_start hstart
  rw [hrunning.holds.accounts_eq, Bool.and_eq_true_iff, Bool.and_eq_true_iff] at htested
  obtain ⟨⟨hguarded, hsome⟩, hothers⟩ := htested
  have hguarded := of_decide_eq_true hguarded
  have hothers := of_decide_eq_true hothers
  have hnonempty : superAdmins accounts ≠ [] := by
    intro hnil
    rw [hnil] at hsome
    cases hsome
  exact ⟨server, accounts, hstart, hrunning.holds, hguarded, hnonempty, hothers,
    super_admins_kept hstart hrunning.holds hguarded _ hothers⟩

end AccessControl.Http
