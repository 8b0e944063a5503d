import GraphPath.Proofs.Graph.Document
import GraphPath.Proofs.Resolve.Writes

/-! # Documents along keys

Where a value stands for a document, a row of keys that is a location of the document leads
to what stands there (`Stands.exists_valueAt?`), and a write along the keys replaces it by
another document, in place (`Stands.follow_write`).

Both go through the document from key to key.  For the write, what is rewritten in one part
of a document is rewritten in the document (`Stands.rewritten_of_part`): the containers of
the other parts and those of the new value are not touched, because no container is used
twice in all of them.
-/

namespace GraphPath

namespace Graph
variable {g g' : Graph} {s t : List Handle} {v new : Value} {d e sub : Json} {key : String}
  {keys : List String}

/-- **A location of a document leads to what stands there.** -/
theorem Stands.exists_valueAt? (h : g.Stands s v d) (hsub : d.valueAt? keys = some sub) :
    ∃ t w, g.valueAt? v keys = some w ∧ g.Stands t w sub ∧ t.Sublist s := by
  induction keys generalizing s v d with
  | nil =>
    cases hsub
    exact ⟨s, v, rfl, h, List.Sublist.refl s⟩
  | cons key rest ih =>
    obtain ⟨e, hkey, hrest⟩ := Option.bind_eq_some_iff.mp hsub
    obtain ⟨k, s₁, t, s₂, w, rfl, rfl, hget, hw, -⟩ := h.select hkey
    obtain ⟨u, x, hvalue, hx, hpart⟩ := ih hw hrest
    have hinside : t.Sublist (k :: (s₁ ++ t ++ s₂)) :=
      ((List.sublist_append_right s₁ t).trans (List.sublist_append_left _ s₂)).cons k
    have hfound : g.getKey? (.container k) key = some w := hget
    exact ⟨u, x, (valueAt?_cons hfound rest).trans hvalue, hx, hpart.trans hinside⟩

/-- **What a write in place leaves**: of all containers that were there, only some of the footprint
`s` have changed, and the value stands for the given document, made up of containers of `s` and of
the footprint `t` of what was written. -/
structure Rewritten (g : Graph) (s t : List Handle) (v : Value) (d : Json) (g' : Graph) :
    Prop where
  /-- There are no new containers. -/
  size_eq : g'.cells.size = g.cells.size
  /-- Containers outside of the footprint have not changed. -/
  frame : ∀ h, h ∉ s → g'.read h = g.read h
  /-- The value stands for the document. -/
  stands : ∃ s', g'.Stands s' v d ∧ s'.Nodup ∧ ∀ h ∈ s', h ∈ s ∨ h ∈ t

/-- A part can be exchanged for one of its containers and others. -/
theorem nodup_exchange {k : Handle} {s₁ u s₂ u' : List Handle}
    (hnodup : (k :: (s₁ ++ u ++ s₂) ++ t).Nodup) (hu' : u'.Nodup)
    (hsub : ∀ h ∈ u', h ∈ u ∨ h ∈ t) : (k :: (s₁ ++ u' ++ s₂)).Nodup := by
  simp only [List.cons_append, List.nodup_cons, List.nodup_append, List.mem_append] at hnodup ⊢
  grind

/-- A write under a key of a document replaces what stands there. -/
theorem Stands.write_key (hs : g.Stands s v d) (hnew : g.Stands t new e) (hnodup : (s ++ t).Nodup)
    (hown : ∀ h ∈ s, h < g.cells.size) (hkey : d.getKey? key = some sub) (setup : Setup) :
    ∃ g', Flat.follow setup (some new) v [key] g = .ok new g' ∧
      g.Rewritten s t v (d.setKey key e) g' := by
  obtain ⟨k, s₁, u, s₂, w, rfl, rfl, -, -, hput⟩ := hs.select hkey
  obtain ⟨cell, hset, hstands⟩ := hput new
  have hk : k < g.cells.size := hown k List.mem_cons_self
  have hapart : k ∉ s₁ ++ s₂ ∧ k ∉ t ∧ t.Nodup := by
    simp only [List.cons_append, List.nodup_cons, List.nodup_append, List.mem_append] at hnodup ⊢
    grind
  obtain ⟨hkothers, hkt, hnodupt⟩ := hapart
  have hframe : ∀ h, h ≠ k → (g.write k cell).read h = g.read h := fun h hh =>
    g.read_write_of_ne hh cell
  refine ⟨g.write k cell, ?_, g.size_write k cell, fun h hh => hframe h ?_,
    k :: (s₁ ++ t ++ s₂), ?_, nodup_exchange hnodup hnodupt fun h hh => Or.inr hh, ?_⟩
  · rw [Flat.follow_last]
    exact Step.writeKey_of_set hk hset
  · rintro rfl
    exact hh List.mem_cons_self
  · refine hstands _ t _ (g.read_write_self hk cell) (fun h hh => hframe h ?_)
      (hnew.congr fun h hh => hframe h ?_)
    · rintro rfl
      exact hkothers hh
    · rintro rfl
      exact hkt hh
  · simp only [List.mem_cons, List.mem_append]
    grind

/-- **What is rewritten under a key of a document is rewritten in the document.** -/
theorem Stands.rewritten_of_part (hs : g.Stands s v d) (hnodup : (s ++ t).Nodup)
    (hkey : d.getKey? key = some sub) :
    ∃ w u, g.getKey? v key = some w ∧ g.Stands u w sub ∧ u ⊆ s ∧ (u ++ t).Nodup ∧
      ∀ g' e', g.Rewritten u t w e' g' → g.Rewritten s t v (d.setKey key e') g' := by
  obtain ⟨k, s₁, u, s₂, w, rfl, rfl, hget, hw, hput⟩ := hs.select hkey
  have hapart : k ∉ u ∧ (∀ h ∈ s₁ ++ s₂, h ∉ u) ∧ (u ++ t).Nodup := by
    simp only [List.cons_append, List.nodup_cons, List.nodup_append, List.mem_append] at hnodup ⊢
    grind
  obtain ⟨hku, hothers, hnodup'⟩ := hapart
  have hpart : u ⊆ k :: (s₁ ++ u ++ s₂) := fun h hh => by simp [hh]
  refine ⟨w, u, hget, hw, hpart, hnodup', fun g' e' hrewritten => ?_⟩
  obtain ⟨u', hu', hnodupu', hsubset⟩ := hrewritten.stands
  -- the container has the value that it had, and so is as it was
  obtain ⟨cell, hset, hstands⟩ := hput w
  obtain rfl : g.read k = cell := Except.ok.inj ((Cell.set_of_get? hget).symm.trans hset)
  refine ⟨hrewritten.size_eq, fun h hh => hrewritten.frame h fun hin => hh (hpart hin),
    k :: (s₁ ++ u' ++ s₂), ?_, nodup_exchange hnodup hnodupu' hsubset, ?_⟩
  · exact hstands g' u' e' (hrewritten.frame k hku) (fun h hh => hrewritten.frame h (hothers h hh)) hu'
  · simp only [List.mem_cons, List.mem_append]
    grind

/-- **A write at a location of a document replaces what stands there**, and changes nothing else. -/
theorem Stands.follow_write (hs : g.Stands s v d) (hnew : g.Stands t new e)
    (hnodup : (s ++ t).Nodup) (hown : ∀ h ∈ s, h < g.cells.size) (hne : keys ≠ [])
    (hsub : d.valueAt? keys = some sub) (setup : Setup) :
    ∃ g', Flat.follow setup (some new) v keys g = .ok new g' ∧
      g.Rewritten s t v (d.replaceAt keys e) g' := by
  induction keys generalizing s v d with
  | nil => exact absurd rfl hne
  | cons key rest ih =>
    obtain ⟨sub', hkey, hrest⟩ := Option.bind_eq_some_iff.mp hsub
    have hreplace : d.replaceAt (key :: rest) e = d.setKey key (sub'.replaceAt rest e) := by
      rw [Json.replaceAt, hkey]
    rw [hreplace]
    by_cases hlast : rest = []
    · subst hlast
      exact hs.write_key hnew hnodup hown hkey setup
    · obtain ⟨w, u, hget, hw, hpart, hnodup', hwhole⟩ := hs.rewritten_of_part hnodup hkey
      have hown' : ∀ h ∈ u, h < g.cells.size := fun h hh => hown h (hpart hh)
      obtain ⟨g', hfollow, hrewritten⟩ := ih hw hnodup' hown' hlast hrest
      refine ⟨g', ?_, hwhole g' _ hrewritten⟩
      rw [Flat.follow_cons hlast, bind_of_ok (Step.byKey_of_getKey? hget _)]
      exact hfollow

end Graph

end GraphPath
