import AccessControl.Proofs.Http.Privilege
import Mathlib.Data.List.Induction

/-!
# Assignments and the accounts that they name

An account lists the ids of those that it manages.  When an account is created, each of these ids
is looked up, and the request is refused if there is nobody behind it.  Accounts are *linked* if
all the ids that they list lead to an account; a manager's authority is about these.

## Which requests keep the links

The route that creates an account is careful, and the one that changes an account touches neither
ids nor lists.  The route that removes an account takes its id away, and does not ask who still
lists it.  So an id that leads nowhere after a transition has led nowhere before, or it is the one
that has been taken away: `Transition.linkedUpTo`.

## What a run does

Along a run the ids that lead nowhere add up.  A server that is started with linked accounts has
linked accounts after every request exactly if no request *strands* an account, which is to take
away an account whose id another one goes on listing: `assignments_linked_iff`.

It does happen, and it is more than an entry that is out of date.  Whoever is given the id next
comes under the authority of the manager who lists it: `stranded_manager`.
-/

namespace AccessControl.Http

variable {c u t t' : Account} {accounts accounts' : List Account} {gone : String → Prop}

/-- Every id that an account lists is the id of an account, or one of those that are gone. -/
def LinkedUpTo (gone : String → Prop) (accounts : List Account) : Prop :=
  ∀ a ∈ accounts, ∀ id ∈ a.assigned, id ∈ accounts.map Account.userId ∨ gone id

/-- Every id that an account lists is the id of an account. -/
def Linked (accounts : List Account) : Prop :=
  ∀ a ∈ accounts, ∀ id ∈ a.assigned, id ∈ accounts.map Account.userId

instance (accounts : List Account) : Decidable (Linked accounts) :=
  inferInstanceAs (Decidable (∀ a ∈ accounts, ∀ id ∈ a.assigned,
    id ∈ accounts.map Account.userId))

/-- Somebody takes an account away whose id another account goes on listing. -/
def Strands (accounts accounts' : List Account) : Prop :=
  ∃ c t, Deletion c accounts accounts' t ∧ ∃ a ∈ accounts', t.userId ∈ a.assigned

theorem linkedUpTo_false : LinkedUpTo (fun _ => False) accounts ↔ Linked accounts := by
  simp only [LinkedUpTo, Linked, or_false]

theorem LinkedUpTo.mono {gone' : String → Prop} (h : LinkedUpTo gone accounts)
    (hmore : ∀ id, gone id → gone' id) : LinkedUpTo gone' accounts :=
  fun a ha id hid => (h a ha id hid).imp_right (hmore id)

/-! ## 1. One transition -/

/-- A new account lists ids of accounts that are there. -/
theorem Creation.linkedUpTo (h : Creation c accounts accounts' u)
    (hlinked : LinkedUpTo gone accounts) : LinkedUpTo gone accounts' := by
  intro a ha id hid
  rw [h.added] at ha ⊢
  rw [List.map_append, List.mem_append]
  rcases List.mem_append.mp ha with hold | hnew
  · exact (hlinked a hold id hid).imp_left Or.inl
  · rw [List.mem_singleton.mp hnew] at hid
    exact Or.inl (Or.inl (List.mem_map.mpr (h.assigned id hid)))

/-- A revision keeps what the account has in common with its former state. -/
theorem Revision.map_eq {α : Type} (h : Revision c accounts accounts' t t') {f : Account → α}
    (hf : f t' = f t) : accounts'.map f = accounts.map f := by
  obtain ⟨before, after, rfl, rfl⟩ := h.place
  simp only [List.map_append, List.map_cons, hf]

/-- A revision changes neither ids nor the lists of ids. -/
theorem Revision.linkedUpTo (h : Revision c accounts accounts' t t')
    (hlinked : LinkedUpTo gone accounts) : LinkedUpTo gone accounts' := by
  intro a ha id hid
  have hids : accounts'.map Account.userId = accounts.map Account.userId :=
    h.map_eq (by rw [h.fields])
  have hlists : accounts'.map Account.assigned = accounts.map Account.assigned :=
    h.map_eq (by rw [h.fields])
  have hlist : a.assigned ∈ accounts.map Account.assigned := by
    rw [← hlists]
    exact List.mem_map_of_mem ha
  obtain ⟨b, hb, hsame⟩ := List.mem_map.mp hlist
  rw [hids]
  rw [← hsame] at hid
  exact hlinked b hb id hid

/-- A deletion takes one id away, and leaves the lists of the others. -/
theorem Deletion.linkedUpTo (h : Deletion c accounts accounts' t)
    (hlinked : LinkedUpTo gone accounts) :
    LinkedUpTo (fun id => gone id ∨ t.userId = id) accounts' := by
  obtain ⟨before, after, rfl, rfl⟩ := h.place
  intro a ha id hid
  have hold : a ∈ before ++ t :: after := by
    rw [List.mem_append, List.mem_cons]
    exact (List.mem_append.mp ha).imp_right Or.inr
  rcases hlinked a hold id hid with hthere | hgone
  · rw [List.map_append, List.map_cons, List.mem_append, List.mem_cons] at hthere
    rw [List.map_append, List.mem_append]
    rcases hthere with hbefore | rfl | hafter
    · exact Or.inl (Or.inl hbefore)
    · exact Or.inr (Or.inr rfl)
    · exact Or.inl (Or.inr hafter)
  · exact Or.inr (Or.inl hgone)

/-- **An id that leads nowhere after a transition** has led nowhere before, or it is that of the
account which has been taken away. -/
theorem Transition.linkedUpTo (h : Transition c accounts accounts')
    (hlinked : LinkedUpTo gone accounts) :
    LinkedUpTo (fun id => gone id ∨ ∃ c t, Deletion c accounts accounts' t ∧ t.userId = id)
      accounts' := by
  cases h with
  | creation u h => exact (h.linkedUpTo hlinked).mono fun _ => Or.inl
  | revision t t' h => exact (h.linkedUpTo hlinked).mono fun _ => Or.inl
  | deletion t h =>
    exact (h.linkedUpTo hlinked).mono fun id => Or.imp_right fun hid => ⟨c, t, h, hid⟩

/-- Accounts stay linked unless one of them is stranded. -/
theorem Transition.linked (h : Transition c accounts accounts') (hlinked : Linked accounts)
    (hstrands : ¬ Strands accounts accounts') : Linked accounts' := by
  intro a ha id hid
  rcases h.linkedUpTo (linkedUpTo_false.mpr hlinked) a ha id hid with
    hthere | hnothing | ⟨c, t, hdeletion, rfl⟩
  · exact hthere
  · exact hnothing.elim
  · exact absurd ⟨c, t, hdeletion, a, ha, hid⟩ hstrands

/-- Accounts one of which is stranded are not linked: the id is not given to anybody else. -/
theorem Strands.not_linked {d : Directory} (hd : d.Holds accounts)
    (h : Strands accounts accounts') : ¬ Linked accounts' := by
  obtain ⟨c, t, hdeletion, a, ha, hid⟩ := h
  obtain ⟨before, after, rfl, rfl⟩ := hdeletion.place
  intro hlinked
  obtain ⟨b, hb, hsame⟩ := List.mem_map.mp (hlinked a ha t.userId hid)
  exact hd.userId_ne b hb hsame

/-! ## 2. Runs -/

namespace Server

variable {s : Server} {settings : Settings}

/-- One of the requests has taken the account with this id away. -/
def TakenAway (s : Server) (requests : List Request) (id : String) : Prop :=
  ∃ served r c t, served ++ [r] <+: requests ∧
    Deletion c (s.accountsAfter served) (s.accountsAfter (served ++ [r])) t ∧ t.userId = id

/-- One more request leaves the accounts alone, or makes a transition. -/
theorem Running.step_after (hs : s.Running settings accounts) (served : List Request)
    (r : Request) :
    s.accountsAfter (served ++ [r]) = s.accountsAfter served ∨
      ∃ c, Transition c (s.accountsAfter served) (s.accountsAfter (served ++ [r])) := by
  obtain ⟨accounts', hs', hsame | ⟨c, -, -, -, htransition⟩⟩ := (hs.serveAll served).step r
  · rw [accountsAfter, serveAll_concat, hsame.1]
    exact Or.inl rfl
  · rw [← hs'.holds.accounts_eq, ← serveAll_concat] at htransition
    exact Or.inr ⟨c, htransition⟩

theorem TakenAway.mono {requests later : List Request} {id : String}
    (h : s.TakenAway requests id) (hearlier : requests <+: later) : s.TakenAway later id := by
  obtain ⟨served, r, c, t, hserved, hdeletion, hid⟩ := h
  exact ⟨served, r, c, t, hserved.trans hearlier, hdeletion, hid⟩

/-- An id that leads nowhere is that of an account which has been taken away. -/
theorem Running.linkedUpTo (hs : s.Running settings accounts) (hlinked : Linked accounts)
    (requests : List Request) :
    LinkedUpTo (s.TakenAway requests) (s.accountsAfter requests) := by
  induction requests using List.reverseRecOn with
  | nil =>
    rw [accountsAfter, (show s.serveAll .standard [] = s from rfl), hs.holds.accounts_eq]
    exact (linkedUpTo_false.mpr hlinked).mono fun _ => False.elim
  | append_singleton served r ih =>
    have hkept : ∀ id, s.TakenAway served id → s.TakenAway (served ++ [r]) id :=
      fun id h => h.mono (List.prefix_append _ _)
    rcases hs.step_after served r with hsame | ⟨c, htransition⟩
    · rw [hsame]
      exact ih.mono hkept
    · refine (htransition.linkedUpTo ih).mono fun id => ?_
      rintro (h | ⟨c, t, hdeletion, hid⟩)
      · exact hkept id h
      · exact ⟨served, r, c, t, List.prefix_rfl, hdeletion, hid⟩

/-- As long as no request strands an account, the accounts are linked. -/
theorem Running.linked (hs : s.Running settings accounts) (hlinked : Linked accounts)
    {requests : List Request}
    (hstrands : ∀ served r, served ++ [r] <+: requests →
      ¬ Strands (s.accountsAfter served) (s.accountsAfter (served ++ [r]))) :
    Linked (s.accountsAfter requests) := by
  induction requests using List.reverseRecOn with
  | nil =>
    rw [accountsAfter, (show s.serveAll .standard [] = s from rfl), hs.holds.accounts_eq]
    exact hlinked
  | append_singleton served r ih =>
    have hserved := ih fun earlier q hearlier =>
      hstrands earlier q (hearlier.trans (List.prefix_append _ _))
    rcases hs.step_after served r with hsame | ⟨c, htransition⟩
    · rw [hsame]
      exact hserved
    · exact htransition.linked hserved (hstrands served r List.prefix_rfl)

end Server

/-- **Assignments along a run.**  Let a server be started with linked accounts, and let it serve
any requests.

* After each of them the directory holds the accounts that are spoken of here.
* The accounts are linked after each request exactly if no request takes away an account whose id
  another account goes on listing.
* In any case an id that leads nowhere is that of an account which one of the requests has taken
  away. -/
theorem assignments_linked_iff {settings : Settings} {location : String}
    {contents : Option (List UInt8)} {s : Server}
    (hstart : (Server.start settings location contents).2 = .ok s)
    (hlinked : Linked s.directory.accounts) (requests : List Request) :
    (∀ served, served <+: requests →
      (s.serveAll .standard served).directory.Holds (s.accountsAfter served)) ∧
    ((∀ served, served <+: requests → Linked (s.accountsAfter served)) ↔
      ∀ served r, served ++ [r] <+: requests →
        ¬ Strands (s.accountsAfter served) (s.accountsAfter (served ++ [r]))) ∧
    LinkedUpTo (s.TakenAway requests) (s.accountsAfter requests) := by
  obtain ⟨accounts, hs⟩ := Server.exists_running_of_start hstart
  rw [hs.holds.accounts_eq] at hlinked
  refine ⟨fun served _ => (hs.serveAll served).holds, ⟨?_, ?_⟩, hs.linkedUpTo hlinked requests⟩
  · intro hall served r hearlier hstrands
    exact hstrands.not_linked (hs.serveAll served).holds (hall _ hearlier)
  · intro hstrands served hserved
    exact hs.linked hlinked fun earlier r hearlier => hstrands earlier r (hearlier.trans hserved)

/-- The case of an administrator who creates a manager for the agent, and of this manager who
changes the agent: the accounts are linked all along, since nobody has been taken away. -/
theorem assignments_linked_iff_manager :
    ∃ s, (Server.start seededSettings "users.json" (some staffSeed)).2 = .ok s ∧
      Linked s.directory.accounts ∧
      ((∀ served, served <+: [hiring, naming] → Linked (s.accountsAfter served)) ↔
        ∀ served r, served ++ [r] <+: [hiring, naming] →
          ¬ Strands (s.accountsAfter served) (s.accountsAfter (served ++ [r]))) ∧
      LinkedUpTo (s.TakenAway [hiring, naming]) (s.accountsAfter [hiring, naming]) := by
  have htested : (Server.start seededSettings "users.json" (some staffSeed)).2.toOption.any
      (fun s => decide (Linked s.directory.accounts)) = true := by
    decide +kernel
  obtain ⟨s, hstart, hlinked⟩ := exists_ok_of_any htested
  have hlinked := of_decide_eq_true hlinked
  obtain ⟨-, hiff, hgone⟩ := assignments_linked_iff hstart hlinked [hiring, naming]
  exact ⟨s, hstart, hlinked, hiff, hgone⟩

/-- The administrator gives the id of the agent to a seller. -/
def rehiring : Request :=
  requestBy "a1" "POST" "/api/v1/users"
    ("\x7b\"user_id\":\"g1\",\"email\":\"g1@localhost\",\"role\":\"SELLER\","
      ++ "\"display_name\":\"Seller One\"\x7d")

/-- **A manager is stranded.**  The seed is linked, and so are the accounts once there is a manager
for the agent.  Then the agent is removed, and the accounts are not linked any more.  When the id
of the agent is given to a seller, they are linked again; but the manager, who has never been
assigned this seller, changes the name of the seller. -/
theorem stranded_manager :
    ∃ s, (Server.start seededSettings "users.json" (some staffSeed)).2 = .ok s ∧
      Linked s.directory.accounts ∧ Linked (s.accountsAfter [hiring]) ∧
      ¬ Linked (s.accountsAfter [hiring, firing]) ∧
      (s.accountsAfter [hiring, firing, rehiring]).map (fun a => a.displayName.plain) =
        ["", "", "Seller One"] ∧
      (s.accountsAfter [hiring, firing, rehiring, naming]).map (fun a => a.displayName.plain) =
        ["", "", "Agent One"] := by
  have htested : (Server.start seededSettings "users.json" (some staffSeed)).2.toOption.any
      (fun s =>
        decide (Linked s.directory.accounts) && decide (Linked (s.accountsAfter [hiring])) &&
        !decide (Linked (s.accountsAfter [hiring, firing])) &&
        ((s.accountsAfter [hiring, firing, rehiring]).map fun a => a.displayName.plain) ==
          ["", "", "Seller One"] &&
        ((s.accountsAfter [hiring, firing, rehiring, naming]).map fun a => a.displayName.plain) ==
          ["", "", "Agent One"]) = true := by
    decide +kernel
  obtain ⟨s, hstart, htested⟩ := exists_ok_of_any htested
  simp only [Bool.and_eq_true, Bool.not_eq_true', decide_eq_true_eq, decide_eq_false_iff_not,
    beq_iff_eq] at htested
  obtain ⟨⟨⟨⟨hseed, hhired⟩, hfired⟩, hseller⟩, hrenamed⟩ := htested
  exact ⟨s, hstart, hseed, hhired, hfired, hseller, hrenamed⟩

end AccessControl.Http
