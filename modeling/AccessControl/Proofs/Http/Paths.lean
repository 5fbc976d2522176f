import AccessControl.Http.Routing

/-!
# Where a path leads

A path is cut at its slashes, and the parts decide which endpoint it leads to.  The fixed parts of
a route have no slashes, so only the last part can be cut once more: `ofPath_pathOf` says which
parts a path has, whatever text comes last.

Two things are drawn from it.  If the texts in the variable places of a route are *segments*,
neither empty nor with a slash in them, the path leads to the endpoint of its form with these very
texts.  And below the users, a text with a slash leads nowhere, `status_of_slash`.
-/

namespace AccessControl.Http

/-! ## 1. Cutting -/

theorem splitAt_of_not_mem {sep : Char} {cs : List Char} (h : sep ∉ cs) :
    splitAt sep cs = [cs] := by
  induction cs with
  | nil => rfl
  | cons c rest ih =>
    rw [List.mem_cons, not_or] at h
    rw [splitAt, if_neg (Ne.symm h.1), ih h.2]

/-- The first separator ends the first part. -/
theorem splitAt_append {sep : Char} {cs : List Char} (h : sep ∉ cs) (rest : List Char) :
    splitAt sep (cs ++ sep :: rest) = cs :: splitAt sep rest := by
  induction cs with
  | nil => rw [List.nil_append, splitAt, if_pos rfl]
  | cons c more ih =>
    rw [List.mem_cons, not_or] at h
    rw [List.cons_append, splitAt, if_neg (Ne.symm h.1), ih h.2]

theorem splitAt_ne_nil (sep : Char) (cs : List Char) : splitAt sep cs ≠ [] := by
  cases cs with
  | nil => exact List.cons_ne_nil _ _
  | cons c rest =>
    rw [splitAt]
    split
    · exact List.cons_ne_nil _ _
    · split
      · exact List.cons_ne_nil _ _
      · exact List.cons_ne_nil _ _

/-- Where there is a separator there are at least two parts. -/
theorem exists_splitAt_of_mem {sep : Char} {cs : List Char} (h : sep ∈ cs) :
    ∃ first second rest, splitAt sep cs = first :: second :: rest := by
  obtain ⟨before, after, rfl, hbefore⟩ := List.eq_append_cons_of_mem h
  rw [splitAt_append hbefore]
  cases hafter : splitAt sep after with
  | nil => exact absurd hafter (splitAt_ne_nil sep after)
  | cons second rest => exact ⟨before, second, rest, rfl⟩

/-! ## 2. The parts of a path -/

/-- The path that has these parts below the root of the interface. -/
def pathOf (parts : List String) : String :=
  parts.foldl (fun path part => path ++ "/" ++ part) "/api/v1"

theorem toList_pathOf (parts : List String) :
    (pathOf parts).toList = "/api/v1".toList ++ parts.flatMap fun part => '/' :: part.toList := by
  have hfold : ∀ start : String, (parts.foldl (fun path part => path ++ "/" ++ part) start).toList =
      start.toList ++ parts.flatMap fun part => '/' :: part.toList := by
    induction parts with
    | nil => simp
    | cons part rest ih =>
      intro start
      rw [List.foldl_cons, ih]
      simp
  exact hfold _

/-- Parts that have no slashes are cut off one by one. -/
theorem splitAt_flatMap {sep : Char} {parts : List (List Char)} (h : ∀ part ∈ parts, sep ∉ part)
    {first : List Char} (hfirst : sep ∉ first) (last : List Char) :
    splitAt sep (first ++ (parts.flatMap fun part => sep :: part) ++ sep :: last) =
      first :: (parts ++ splitAt sep last) := by
  induction parts generalizing first with
  | nil =>
    rw [List.flatMap_nil, List.append_nil, splitAt_append hfirst]
    rfl
  | cons part rest ih =>
    rw [List.forall_mem_cons] at h
    rw [List.flatMap_cons, List.cons_append, List.append_assoc, List.cons_append,
      splitAt_append hfirst, ih h.2 h.1]
    rfl

/-- **Where a path leads** is decided by its parts, of which the last may have slashes itself. -/
theorem Endpoint.ofPath_pathOf {parts : List String} (h : ∀ part ∈ parts, '/' ∉ part.toList)
    (last : String) :
    ofPath (pathOf parts ++ "/" ++ last) =
      ofParts (parts ++ (splitAt '/' last.toList).map String.ofList) := by
  have hpath : (pathOf parts ++ "/" ++ last).toList =
      [] ++ (((["api", "v1"] ++ parts).map String.toList).flatMap fun part => '/' :: part) ++
        '/' :: last.toList := by
    simp [toList_pathOf, List.flatMap_map]
  have hparts : ∀ part ∈ (["api", "v1"] ++ parts).map String.toList, '/' ∉ part := by
    simpa using h
  have hback : ((["api", "v1"] ++ parts).map String.toList).map String.ofList =
      ["api", "v1"] ++ parts := by
    simp [Function.comp_def]
  rw [ofPath, hpath, splitAt_flatMap hparts List.not_mem_nil, List.map_cons, List.map_append, hback]
  rfl

/-! ## 3. Segments -/

/-- The text can stand in a variable place of a route. -/
structure IsSegment (s : String) : Prop where
  nonempty : s ≠ ""
  slashless : '/' ∉ s.toList

namespace Endpoint

variable {r : Request} {e first : Endpoint} {method resource name userId : String}
  {rest : List (String × Endpoint)}

/-- A request is routed by the first endpoint of its path that has its method. -/
theorem route_of_parts {parts : List String} {last : String}
    (hends : ofParts (parts ++ [last]) = (method, first) :: rest)
    (hparts : ∀ part ∈ parts, '/' ∉ part.toList) (hlast : '/' ∉ last.toList)
    (hpath : r.path = pathOf parts ++ "/" ++ last)
    (hmethod : ((method, first) :: rest).lookup r.method = some e) : route r = .ok e := by
  have hends' : ofPath r.path = (method, first) :: rest := by
    rw [hpath, ofPath_pathOf hparts, splitAt_of_not_mem hlast, List.map_singleton,
      String.ofList_toList, hends]
  simp only [route, hends', hmethod]

/-! ### The registry -/

theorem route_showRole (hmethod : r.method = "GET") (hname : IsSegment name)
    (hpath : r.path = "/api/v1/authz/roles/" ++ name) : route r = .ok (.showRole name) := by
  have hends : ofParts (["authz", "roles"] ++ [name]) = [("GET", .showRole name)] := by
    simp [ofParts, on, hname.nonempty]
  exact route_of_parts hends (by decide) hname.slashless hpath (by rw [hmethod]; rfl)

theorem route_tryPermission (hmethod : r.method = "GET") (hresource : IsSegment resource)
    (hname : IsSegment name)
    (hpath : r.path = "/api/v1/authz/permissions/" ++ resource ++ "/" ++ name) :
    route r = .ok (.tryPermission resource name) := by
  have hparts : ∀ part ∈ ["authz", "permissions", resource], '/' ∉ part.toList := by
    simp [hresource.slashless]
  have hends : ofParts (["authz", "permissions", resource] ++ [name]) =
      [("GET", .tryPermission resource name)] := by
    simp [ofParts, on, hresource.nonempty, hname.nonempty]
  exact route_of_parts hends hparts hname.slashless hpath (by rw [hmethod]; rfl)

theorem route_tryRelationship (hmethod : r.method = "GET") (hresource : IsSegment resource)
    (hname : IsSegment name)
    (hpath : r.path = "/api/v1/authz/relationships/" ++ resource ++ "/" ++ name) :
    route r = .ok (.tryRelationship resource name) := by
  have hparts : ∀ part ∈ ["authz", "relationships", resource], '/' ∉ part.toList := by
    simp [hresource.slashless]
  have hends : ofParts (["authz", "relationships", resource] ++ [name]) =
      [("GET", .tryRelationship resource name)] := by
    simp [ofParts, on, hresource.nonempty, hname.nonempty]
  exact route_of_parts hends hparts hname.slashless hpath (by rw [hmethod]; rfl)

/-! ### The users -/

/-- The endpoints of all users are those for listing and for creating. -/
theorem ofPath_users (hpath : r.path = "/api/v1/users") :
    ofPath r.path = [("GET", listUsers), ("POST", createUser)] := by
  rw [hpath]
  decide

theorem route_listUsers (hmethod : r.method = "GET") (hpath : r.path = "/api/v1/users") :
    route r = .ok .listUsers := by
  simp only [route, ofPath_users hpath, hmethod]
  rfl

theorem route_createUser (hmethod : r.method = "POST") (hpath : r.path = "/api/v1/users") :
    route r = .ok .createUser := by
  simp only [route, ofPath_users hpath, hmethod]
  rfl

/-- The endpoints of a user are those for reading, changing and removing it, after the one for the
caller's own record where the two paths fall together. -/
theorem ofParts_user (hid : userId ≠ "") :
    ofParts (["users"] ++ [userId]) = on (endsIn "me" userId) [("GET", ownRecord)] ++
      [("GET", readUser userId), ("PATCH", changeUser userId), ("DELETE", removeUser userId)] := by
  simp [ofParts, on, hid]

theorem route_readUser (hmethod : r.method = "GET") (hid : IsSegment userId)
    (hme : endsIn "me" userId = false) (hpath : r.path = "/api/v1/users/" ++ userId) :
    route r = .ok (.readUser userId) := by
  have hends := ofParts_user hid.nonempty
  rw [hme] at hends
  exact route_of_parts hends (by decide) hid.slashless hpath (by rw [hmethod]; rfl)

theorem route_ownRecord (hmethod : r.method = "GET") (hpath : r.path = "/api/v1/users/" ++ "me") :
    route r = .ok .ownRecord :=
  route_of_parts (@ofParts_user "me" (by decide)) (by decide) (by decide) hpath
    (by rw [hmethod]; rfl)

theorem route_removeUser (hmethod : r.method = "DELETE") (hid : IsSegment userId)
    (hpath : r.path = "/api/v1/users/" ++ userId) : route r = .ok (.removeUser userId) := by
  have hends := ofParts_user hid.nonempty
  cases hme : endsIn "me" userId with
  | true =>
    rw [hme] at hends
    exact route_of_parts hends (by decide) hid.slashless hpath (by rw [hmethod]; rfl)
  | false =>
    rw [hme] at hends
    exact route_of_parts hends (by decide) hid.slashless hpath (by rw [hmethod]; rfl)

/-- **Below the users** a text with a slash leads nowhere: the client is sent elsewhere, or told
that there is nothing. -/
theorem status_of_slash (hslash : '/' ∈ userId.toList)
    (hpath : r.path = "/api/v1/users/" ++ userId) :
    ∃ response, route r = .error response ∧ (response.status = 307 ∨ response.status = 404) := by
  obtain ⟨part, next, more, hsplit⟩ := exists_splitAt_of_mem hslash
  have hnone : ofPath r.path = [] := by
    have hroot : "/api/v1/users/" = pathOf ["users"] ++ "/" := rfl
    rw [hpath, hroot, ofPath_pathOf (by decide), hsplit]
    rfl
  simp only [route, hnone]
  split
  · exact ⟨_, rfl, Or.inl rfl⟩
  · exact ⟨_, rfl, Or.inr rfl⟩

end Endpoint

end AccessControl.Http
