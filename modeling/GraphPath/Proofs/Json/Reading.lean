import GraphPath.Proofs.Json.Location

/-! # Documents that are read

Whatever text a document is read from, the keys of its objects ascend, and it does not nest
deeper than `Json.maxNesting` (`wellRead_of_read?`).  The first is the work of
`Json.sortMembers`, which puts members one after the other where they belong; of members
whose keys ascend already it changes nothing (`sortMembers_of_ascending`).
-/

namespace GraphPath.Json

/-! ## Members in the order of their keys -/

section
variable {α : Type} {key : String} {v : α} {member : String × α} {members : List (String × α)}

theorem mem_putMember (h : member ∈ putMember key v members) :
    member = (key, v) ∨ member ∈ members := by
  induction members with
  | nil => exact Or.inl (List.mem_singleton.mp h)
  | cons head rest ih =>
    obtain ⟨k, w⟩ := head
    rw [putMember] at h
    split at h
    · exact List.mem_cons.mp h
    · exact (List.mem_cons.mp h).imp_right (List.mem_cons_of_mem _)
    · rcases List.mem_cons.mp h with rfl | h
      · exact Or.inr List.mem_cons_self
      · exact (ih h).imp_right (List.mem_cons_of_mem _)

/-- **A member is put where it belongs.** -/
theorem Ascending.putMember (h : Ascending members) (key : String) (v : α) :
    Ascending (putMember key v members) := by
  induction members with
  | nil => exact List.pairwise_singleton _ _
  | cons head rest ih =>
    obtain ⟨k, w⟩ := head
    obtain ⟨hhead, hrest⟩ := List.pairwise_cons.mp h
    rw [Json.putMember]
    split
    · rename_i hlt
      refine List.pairwise_cons.mpr ⟨fun member hmember => ?_, h⟩
      rcases List.mem_cons.mp hmember with rfl | hmember
      · exact hlt
      · exact Std.TransCmp.lt_trans hlt (hhead member hmember)
    · rename_i heq
      obtain rfl : key = k := Std.LawfulEqCmp.eq_of_compare heq
      exact List.pairwise_cons.mpr ⟨hhead, hrest⟩
    · rename_i hgt
      refine List.pairwise_cons.mpr ⟨fun member hmember => ?_, ih hrest⟩
      rcases mem_putMember hmember with rfl | hmember
      · exact Std.OrientedCmp.lt_of_gt hgt
      · exact hhead member hmember

/-- Sorting puts one member after the other where it belongs. -/
theorem ascending_sortMembers (members : List (String × α)) : Ascending (sortMembers members) := by
  apply List.foldlRecOn
  · exact List.Pairwise.nil
  · intro sorted hsorted member _
    exact hsorted.putMember member.1 member.2

theorem mem_sortMembers (h : member ∈ sortMembers members) : member ∈ members := by
  refine List.foldlRecOn (motive := fun sorted => member ∈ sorted → member ∈ members) members _
    (fun hnil => absurd hnil List.not_mem_nil) ?_ h
  intro sorted hsorted head hhead hmember
  rcases mem_putMember hmember with rfl | hmember
  · exact hhead
  · exact hsorted hmember

/-- A member with the greatest key goes to the end. -/
theorem putMember_of_lt (h : ∀ member ∈ members, compare member.1 key = .lt) :
    putMember key v members = members ++ [(key, v)] := by
  induction members with
  | nil => rfl
  | cons head rest ih =>
    obtain ⟨k, w⟩ := head
    have hgt : compare key k = .gt := Std.OrientedCmp.gt_of_lt (h (k, w) List.mem_cons_self)
    rw [putMember, hgt]
    dsimp only
    rw [ih fun member hmember => h member (List.mem_cons_of_mem _ hmember)]
    rfl

/-- **Members in order stay where they are.** -/
theorem sortMembers_of_ascending (h : Ascending members) : sortMembers members = members := by
  have hfold : ∀ (members sorted : List (String × α)), Ascending (sorted ++ members) →
      members.foldl (fun sorted member => putMember member.1 member.2 sorted) sorted =
        sorted ++ members := by
    intro members
    induction members with
    | nil => exact fun sorted _ => (List.append_nil sorted).symm
    | cons member rest ih =>
      intro sorted hsorted
      have hlt : ∀ other ∈ sorted, compare other.1 member.1 = .lt := fun other hother =>
        (List.pairwise_append.mp hsorted).2.2 other hother member List.mem_cons_self
      rw [List.foldl_cons, putMember_of_lt hlt, ih _ (by simpa using hsorted)]
      simp
  exact hfold members [] h

end

/-! ## Documents from texts -/

/-- **A document nests no deeper than so many levels.** -/
def NestsWithin : Nat → Json → Prop
  | 0, d => d.values = []
  | depth + 1, d => ∀ e ∈ d.values, e.NestsWithin depth

theorem NestsWithin.exists_of_inside {d e : Json} {depth : Nat} (hd : d.NestsWithin depth)
    (he : d.Inside e) : ∃ n, depth = n + 1 ∧ e.NestsWithin n := by
  cases depth with
  | zero =>
    have hnone : d.values = [] := hd
    rw [Inside, hnone] at he
    cases he
  | succ depth => exact ⟨depth, rfl, hd e he⟩

theorem nestsWithin_of_values_eq_nil {d : Json} (hd : d.values = []) (depth : Nat) :
    d.NestsWithin depth := by
  cases depth with
  | zero => exact hd
  | succ depth =>
    intro e he
    rw [hd] at he
    cases he

/-- What is known of a document that is read inside so many containers. -/
def WellRead (nesting : Nat) (d : Json) : Prop := d.Ordered ∧ d.NestsWithin (maxNesting - nesting)

theorem wellRead_of_values_eq_nil {nesting : Nat} {d : Json} (hd : d.values = [])
    (hkeys : d.KeysAscend) : d.WellRead nesting := by
  refine ⟨.intro hkeys fun e he => ?_, nestsWithin_of_values_eq_nil hd _⟩
  rw [hd] at he
  cases he

/-- A container is well read if what is inside is, one level deeper. -/
theorem wellRead_of_values {nesting : Nat} {d : Json} (hnesting : nesting < maxNesting)
    (hkeys : d.KeysAscend) (hvalues : ∀ e ∈ d.values, e.WellRead (nesting + 1)) :
    d.WellRead nesting := by
  have hdepth : maxNesting - nesting = maxNesting - (nesting + 1) + 1 := by omega
  refine ⟨.intro hkeys fun e he => (hvalues e he).1, ?_⟩
  rw [hdepth]
  exact fun e he => (hvalues e he).2

mutual

theorem wellRead_of_ofSource? {nesting : Nat} {source : JsonSource} {d : Json}
    (h : ofSource? nesting source = some d) : d.WellRead nesting := by
  match source with
  | .null | .bool _ =>
    rw [ofSource?] at h
    cases h
    exact wellRead_of_values_eq_nil rfl trivial
  | .number text =>
    rw [ofSource?] at h
    obtain ⟨number, -, rfl⟩ := Option.map_eq_some_iff.mp h
    unfold ofNumber
    split
    · split <;> exact wellRead_of_values_eq_nil rfl trivial
    · exact wellRead_of_values_eq_nil rfl trivial
  | .string parts =>
    rw [ofSource?] at h
    obtain ⟨text, -, rfl⟩ := Option.map_eq_some_iff.mp h
    exact wellRead_of_values_eq_nil rfl trivial
  | .array items =>
    rw [ofSource?] at h
    split at h
    · rename_i hnesting
      obtain ⟨items, hitems, rfl⟩ := Option.map_eq_some_iff.mp h
      exact wellRead_of_values hnesting trivial (wellRead_of_ofItems? hitems)
    · cases h
  | .object members =>
    rw [ofSource?] at h
    split at h
    · rename_i hnesting
      obtain ⟨members, hmembers, rfl⟩ := Option.map_eq_some_iff.mp h
      refine wellRead_of_values hnesting (ascending_sortMembers members) fun e he => ?_
      obtain ⟨member, hmember, rfl⟩ := List.mem_map.mp he
      exact wellRead_of_ofMembers? hmembers member (mem_sortMembers hmember)
    · cases h

theorem wellRead_of_ofItems? {nesting : Nat} {sources : List JsonSource} {items : List Json}
    (h : ofItems? nesting sources = some items) : ∀ d ∈ items, d.WellRead nesting := by
  match sources with
  | [] =>
    rw [ofItems?] at h
    cases h
    exact nofun
  | source :: rest =>
    rw [ofItems?] at h
    split at h
    · rename_i item others hitem hothers
      cases h
      intro d hd
      rcases List.mem_cons.mp hd with rfl | hd
      · exact wellRead_of_ofSource? hitem
      · exact wellRead_of_ofItems? hothers d hd
    · cases h

theorem wellRead_of_ofMembers? {nesting : Nat} {sources : List (List StringPart × JsonSource)}
    {members : List (String × Json)} (h : ofMembers? nesting sources = some members) :
    ∀ member ∈ members, member.2.WellRead nesting := by
  match sources with
  | [] =>
    rw [ofMembers?] at h
    cases h
    exact nofun
  | (key, source) :: rest =>
    rw [ofMembers?] at h
    split at h
    · rename_i key d others hkey hd hothers
      cases h
      intro member hmember
      rcases List.mem_cons.mp hmember with rfl | hmember
      · exact wellRead_of_ofSource? hd
      · exact wellRead_of_ofMembers? hothers member hmember
    · cases h

end

/-- **What every document that is read from a text is like.** -/
theorem wellRead_of_read? {text : String} {d : Json} (h : read? text = some d) :
    d.Ordered ∧ d.NestsWithin maxNesting := by
  obtain ⟨source, -, hsource⟩ := Option.bind_eq_some_iff.mp h
  exact wellRead_of_ofSource? hsource

end GraphPath.Json
