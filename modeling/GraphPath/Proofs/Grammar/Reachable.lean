import GraphPath.Grammar.Basic
import GraphPath.Proofs.OrderedMap

/-! # Grammars in force

The grammar of an engine begins as `Grammar.default` and changes by `merge` only.
A change that is rejected leaves the old grammar in force (`attempt`), so the
grammars that can ever be in force are those of `Reachable`.

Every one of them is `Valid` (`Reachable.valid`).  A merge cannot break the rules
because it looks at every character the change mentions, and a table after the
change holds nothing but old pairs and pairs of the change
(`mem_entries_reviseAll`).
-/

namespace GraphPath.Grammar

/-- The grammar in force after a change was asked for: the changed one, or the old
one if the change is rejected. -/
def attempt (g : Grammar) (change : Change) : Grammar :=
  match g.merge change with
  | .ok changed => changed
  | .error _ => g

/-- **The grammars that can be in force**: the default one, and what any row of
changes makes of it. -/
inductive Reachable : Grammar → Prop
  | initial : Reachable default
  | change {g : Grammar} (hg : Reachable g) (change : Change) : Reachable (g.attempt change)

/-! ## Tables after a change -/

theorem mem_entries_revise {α : Type} {table : OrderedMap Char α} {entry : Char × Option α}
    {e : Char × α} (h : e ∈ (revise table entry).entries) :
    e ∈ table.entries ∨ (e.1, some e.2) = entry := by
  obtain ⟨c, role?⟩ := entry
  cases role? with
  | none => exact Or.inl (OrderedMap.mem_entries_filter.mp h).1
  | some role =>
    rcases OrderedMap.mem_entries_insert h with rfl | h
    · exact Or.inr rfl
    · exact Or.inl h

/-- A pair of a changed table is an old one, or a new role of the change. -/
theorem mem_entries_reviseAll {α : Type} {table : OrderedMap Char α}
    {change : OrderedMap Char (Option α)} {e : Char × α}
    (h : e ∈ (reviseAll table change).entries) :
    e ∈ table.entries ∨ (e.1, some e.2) ∈ change.entries := by
  unfold reviseAll at h
  generalize change.entries = entries at h ⊢
  induction entries generalizing table with
  | nil => exact Or.inl h
  | cons entry rest ih =>
    rcases ih h with h | h
    · exact (mem_entries_revise h).imp_right fun he => List.mem_cons.mpr (Or.inl he)
    · exact Or.inr (List.mem_cons_of_mem _ h)

/-- The characters of a changed table are old ones or mentioned by the change. -/
theorem mem_keys_reviseAll {α : Type} {table : OrderedMap Char α}
    {change : OrderedMap Char (Option α)} {c : Char} (h : c ∈ (reviseAll table change).keys) :
    c ∈ table.keys ∨ c ∈ change.keys := by
  obtain ⟨e, he, rfl⟩ := List.mem_map.mp h
  exact (mem_entries_reviseAll he).imp (fun he => List.mem_map_of_mem he)
    (fun he => List.mem_map_of_mem he)

theorem mem_keys_reviseSeparators {table : OrderedMap Char SeparatorRole}
    {change : OrderedMap Char (Option SeparatorRole)} {c : Char}
    (h : c ∈ (reviseSeparators table change).keys) : c ∈ table.keys ∨ c ∈ change.keys := by
  refine (mem_keys_reviseAll h).imp_left fun hkept => ?_
  split at hkept
  · exact (OrderedMap.keys_filter_sublist _ _).subset hkept
  · exact hkept

/-! ## Merging keeps the rules -/

/-- What an accepted change looks like: it mentions no reserved character, the new tables have
one property separator, and what is kept of them is derived anew. -/
theorem merge_eq_ok_iff {g g' : Grammar} {change : Change} :
    g.merge change = .ok g' ↔
      (∀ c ∈ change.mentioned, isReserved c = false) ∧
      g'.modifiers = reviseAll g.modifiers change.modifiers ∧
      g'.separators = reviseSeparators g.separators change.separators ∧
      g'.enclosures = reviseAll g.enclosures change.enclosures ∧
      propertySeparators g'.separators = [g'.propertySeparator] ∧
      g' = ofTables g'.modifiers g'.separators g'.enclosures g'.propertySeparator := by
  unfold merge
  split
  · -- a reserved character is reported whatever the tables would have become
    rename_i c hfind
    have hc : isReserved c = true := List.find?_some hfind
    have hmem : c ∈ change.mentioned := List.mem_of_find?_eq_some hfind
    refine ⟨nofun, fun ⟨hunreserved, _⟩ => ?_⟩
    rw [hunreserved c hmem] at hc
    cases hc
  · rename_i hnone
    have hunreserved : ∀ c ∈ change.mentioned, isReserved c = false := fun c hc => by
      simpa using List.find?_eq_none.mp hnone c hc
    unfold build
    constructor
    · intro h
      split at h <;> cases h
      exact ⟨hunreserved, rfl, rfl, rfl, ‹_›, rfl⟩
    · rintro ⟨-, hmodifiers, hseparators, henclosures, hproperty, hderived⟩
      rw [← hmodifiers, ← hseparators, ← henclosures, hproperty]
      exact congrArg Except.ok hderived.symm

theorem Valid.merge {g g' : Grammar} {change : Change} (hg : g.Valid)
    (h : g.merge change = .ok g') : g'.Valid := by
  obtain ⟨hmentioned, hmodifiers, hseparators, henclosures, hproperty, hderived⟩ :=
    merge_eq_ok_iff.mp h
  have hold : ∀ c ∈ g.roleChars, isReserved c = false := hg.unreserved
  simp only [Change.mentioned, roleChars, List.mem_append, or_imp, forall_and] at hmentioned hold
  obtain ⟨⟨⟨hnewModifiers, hnewSeparators⟩, hnewEnclosures⟩, hnewClosers⟩ := hmentioned
  obtain ⟨⟨⟨holdModifiers, holdSeparators⟩, holdEnclosures⟩, holdClosers⟩ := hold
  refine ⟨hproperty, fun c hc => ?_, hderived⟩
  simp only [roleChars, closers, hmodifiers, hseparators, henclosures, List.mem_append] at hc
  rcases hc with ((hc | hc) | hc) | hc
  · exact (mem_keys_reviseAll hc).elim (holdModifiers c) (hnewModifiers c)
  · exact (mem_keys_reviseSeparators hc).elim (holdSeparators c) (hnewSeparators c)
  · exact (mem_keys_reviseAll hc).elim (holdEnclosures c) (hnewEnclosures c)
  · -- a closer is no key of its table, so its whole pair has to be traced back
    obtain ⟨enclosure, henclosure, rfl⟩ := List.mem_map.mp hc
    obtain ⟨e, he, rfl⟩ := List.mem_map.mp henclosure
    rcases mem_entries_reviseAll he with he | he
    · exact holdClosers _ (List.mem_map_of_mem (List.mem_map_of_mem he))
    · exact hnewClosers _ (List.mem_filterMap.mpr ⟨some e.2, List.mem_map_of_mem he, rfl⟩)

/-- A rejected change breaks no rule either. -/
theorem Valid.attempt {g : Grammar} (hg : g.Valid) (change : Change) :
    (g.attempt change).Valid := by
  unfold Grammar.attempt
  split
  · exact hg.merge ‹_›
  · exact hg

/-- **Every grammar in force obeys the rules.** -/
theorem Reachable.valid {g : Grammar} (hg : g.Reachable) : g.Valid := by
  induction hg with
  | initial => exact default_valid
  | change _ change ih => exact ih.attempt change

end GraphPath.Grammar
