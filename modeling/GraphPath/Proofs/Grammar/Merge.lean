import GraphPath.Proofs.Grammar.Special

/-! # What a merge does, and what it leaves alone

A change names the characters that it gives roles or takes roles from.  An accepted
change does what it names (`Grammar.Obeys`, `obeys_of_merge`) and no more
(`Grammar.Keeps`, `Valid.keeps_of_merge`):

* a character that is no key of a table's change keeps its entry in that table;
* the one exception is the former property separator, which makes way for a new
  one without being named;
* a closer has no entry of its own but is part of its opener's, and so stays a closer
  as long as there is an opener left that is not named.
-/

namespace GraphPath.Grammar
variable {g g' : Grammar} {change : Change} {c : Char}

/-! ## Lookups in changed tables -/

section
variable {α : Type} {table : OrderedMap Char α} {revision : OrderedMap Char (Option α)}

theorem get?_revise_of_ne {entry : Char × Option α} (h : c ≠ entry.1) :
    (revise table entry).get? c = table.get? c := by
  obtain ⟨d, role?⟩ := entry
  cases role? with
  | none => exact table.get?_erase_of_ne h
  | some role => exact table.get?_insert_of_ne h role

theorem get?_revise_self (role? : Option α) : (revise table (c, role?)).get? c = role? := by
  cases role? with
  | none => exact table.get?_erase_self c
  | some role => exact table.get?_insert_self c role

/-- **What a change says of a character decides**; otherwise the character keeps its entry. -/
theorem get?_reviseAll (table : OrderedMap Char α) (revision : OrderedMap Char (Option α))
    (c : Char) : (reviseAll table revision).get? c = (revision.get? c).getD (table.get? c) := by
  have hnodup := revision.nodup
  unfold reviseAll
  unfold OrderedMap.get?
  generalize revision.entries = entries at hnodup ⊢
  induction entries generalizing table with
  | nil => rfl
  | cons entry rest ih =>
    rw [List.map_cons, List.nodup_cons] at hnodup
    rw [List.foldl_cons, ih _ hnodup.2]
    obtain ⟨d, role?⟩ := entry
    by_cases hc : c = d
    · -- no later entry of the change is about this character again
      subst hc
      have habsent : rest.lookup c = none := List.lookup_eq_none_iff.mpr fun e he => by
        have hne : c ≠ e.1 := fun h => hnodup.1 (List.mem_map.mpr ⟨e, he, h.symm⟩)
        simpa using hne
      rw [habsent, List.lookup_cons_self]
      exact get?_revise_self role?
    · have hb : (c == d) = false := by simpa using hc
      have hkept : (revise table (d, role?)).get? c = table.get? c := get?_revise_of_ne hc
      rw [List.lookup_cons, hb]
      exact congrArg _ hkept

/-- A character that is not named keeps its entry. -/
theorem get?_reviseAll_of_not_mem (h : c ∉ revision.keys) :
    (reviseAll table revision).get? c = table.get? c := by
  rw [get?_reviseAll, revision.get?_eq_none_iff.mpr h]
  rfl

end

/-- A character that is named has the entry that it is named with, or none. -/
theorem get?_reviseAll_of_get? {α : Type} {revision : OrderedMap Char (Option α)} {role? : Option α}
    (h : revision.get? c = some role?) (table : OrderedMap Char α) :
    (reviseAll table revision).get? c = role? := by
  rw [get?_reviseAll, h]
  rfl

section
variable {table : OrderedMap Char SeparatorRole}
  {revision : OrderedMap Char (Option SeparatorRole)}

theorem get?_reviseSeparators_of_not_mem (h : c ∉ revision.keys) :
    (reviseSeparators table revision).get? c =
      if some .property ∈ revision.values then (table.get? c).filter (· != .property)
      else table.get? c := by
  rw [reviseSeparators, get?_reviseAll_of_not_mem h]
  by_cases hnew : some SeparatorRole.property ∈ revision.values
  · rw [if_pos (List.contains_iff_mem.mpr hnew), if_pos hnew, OrderedMap.get?_filter]
  · rw [if_neg (mt List.contains_iff_mem.mp hnew), if_neg hnew]

end

/-! ## Roles that are named -/

/-- **What a change asks for**: the entry of every character that it names, or that it has none. -/
structure Obeys (g : Grammar) (change : Change) : Prop where
  /-- The modifiers that are named. -/
  modifier? : ∀ c role?, change.modifiers.get? c = some role? → g.modifier? c = role?
  /-- The separators that are named. -/
  separator? : ∀ c role?, change.separators.get? c = some role? → g.separator? c = role?
  /-- The enclosures that are named, by their openers. -/
  enclosure? : ∀ c role?, change.enclosures.get? c = some role? → g.enclosure? c = role?

/-- **An accepted change does what it names.** -/
theorem obeys_of_merge (h : g.merge change = .ok g') : g'.Obeys change := by
  obtain ⟨-, hmodifiers, hseparators, henclosures, -⟩ := merge_eq_ok_iff.mp h
  constructor
  · intro c role? hc
    rw [Grammar.modifier?, hmodifiers]
    exact get?_reviseAll_of_get? hc _
  · intro c role? hc
    rw [Grammar.separator?, hseparators]
    exact get?_reviseAll_of_get? hc _
  · intro c role? hc
    rw [Grammar.enclosure?, henclosures]
    exact get?_reviseAll_of_get? hc _

/-! ## Roles that are kept -/

/-- **What a change leaves alone** when it makes one grammar of another: the entries of all
characters that it does not name. -/
structure Keeps (g : Grammar) (change : Change) (g' : Grammar) : Prop where
  /-- A modifier that is not named. -/
  modifier? : ∀ c ∉ change.modifiers.keys, g'.modifier? c = g.modifier? c
  /-- A separator that is not named, unless it makes way for a new property separator. -/
  separator? : ∀ c ∉ change.separators.keys,
    (c = g.propertySeparator → some .property ∉ change.separators.values) →
      g'.separator? c = g.separator? c
  /-- A property separator that makes way for a new one. -/
  former : g.propertySeparator ∉ change.separators.keys →
    some .property ∈ change.separators.values → g'.separator? g.propertySeparator = none
  /-- An enclosure that is not named, with its closer. -/
  enclosure? : ∀ c ∉ change.enclosures.keys, g'.enclosure? c = g.enclosure? c
  /-- A character that is not named, not as a closer either, closes what it closed, less the
  enclosures that are named. -/
  isCloser : ∀ c ∉ change.mentioned, g'.isCloser c = true ↔
    ∃ opener ∉ change.enclosures.keys, ∃ enclosure, g.enclosure? opener = some enclosure ∧
      enclosure.closer = c

/-- An enclosure that is named and there after the change has a closer that is named. -/
theorem closer_mem_mentioned {table : OrderedMap Char Enclosure} {opener : Char}
    {enclosure : Enclosure} (hopener : opener ∈ change.enclosures.keys)
    (h : (reviseAll table change.enclosures).get? opener = some enclosure) :
    enclosure.closer ∈ change.mentioned := by
  rw [get?_reviseAll] at h
  cases hnew : change.enclosures.get? opener with
  | none => exact absurd hopener (change.enclosures.get?_eq_none_iff.mp hnew)
  | some enclosure? =>
    rw [hnew] at h
    have hentry : (opener, some enclosure) ∈ change.enclosures.entries :=
      change.enclosures.get?_eq_some_iff.mp (hnew.trans (congrArg some h))
    exact List.mem_append_right _
      (List.mem_filterMap.mpr ⟨some enclosure, List.mem_map_of_mem hentry, rfl⟩)

/-- **An accepted change leaves alone what it does not name.** -/
theorem Valid.keeps_of_merge (hg : g.Valid) (h : g.merge change = .ok g') : g.Keeps change g' := by
  obtain ⟨-, hmodifiers, hseparators, henclosures, -⟩ := merge_eq_ok_iff.mp h
  have hseparator : ∀ c ∉ change.separators.keys, g'.separator? c =
      if some .property ∈ change.separators.values then (g.separator? c).filter (· != .property)
      else g.separator? c := by
    intro c hc
    rw [Grammar.separator?, hseparators]
    exact get?_reviseSeparators_of_not_mem hc
  have henclosure : ∀ c ∉ change.enclosures.keys, g'.enclosure? c = g.enclosure? c := by
    intro c hc
    rw [Grammar.enclosure?, henclosures]
    exact get?_reviseAll_of_not_mem hc
  refine ⟨fun c hc => ?modifier, fun c hc hkept => ?separator, fun hc hnew => ?former, henclosure,
    fun c hc => ?closer⟩
  case modifier =>
    rw [Grammar.modifier?, hmodifiers]
    exact get?_reviseAll_of_not_mem hc
  case separator =>
    rw [hseparator c hc]
    by_cases hproperty : c = g.propertySeparator
    · rw [if_neg (hkept hproperty)]
    · -- no other separator has the role that makes way
      have hrole : g.separator? c ≠ some .property := mt hg.separator?_eq_property_iff.mp hproperty
      cases hrole' : g.separator? c with
      | none => exact ite_self _
      | some role => cases role <;> simp_all
  case former =>
    rw [hseparator _ hc, if_pos hnew, hg.separator?_propertySeparator]
    rfl
  case closer =>
    rw [isCloser_iff_enclosure?]
    constructor
    · rintro ⟨opener, enclosure, h, rfl⟩
      have hopener : opener ∉ change.enclosures.keys := fun hopener =>
        hc (closer_mem_mentioned hopener (by rwa [Grammar.enclosure?, henclosures] at h))
      exact ⟨opener, hopener, enclosure, (henclosure opener hopener).symm.trans h, rfl⟩
    · rintro ⟨opener, hopener, enclosure, h, rfl⟩
      exact ⟨opener, enclosure, (henclosure opener hopener).trans h, rfl⟩

/-- A change that names nothing changes nothing. -/
theorem Valid.merge_nothing (hg : g.Valid) : g.merge {} = .ok g :=
  merge_eq_ok_iff.mpr
    ⟨fun _ hc => absurd hc List.not_mem_nil, rfl, rfl, rfl, hg.property, hg.derived⟩

end GraphPath.Grammar
