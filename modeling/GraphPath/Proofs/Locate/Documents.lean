import GraphPath.Proofs.Graph.Document
import GraphPath.Proofs.Graph.Reach
import GraphPath.Proofs.Locate.Occurrences

/-! # Searching a document

A document is searched in the graph that it is built in.  What is inside of it there are
the values that stand for the documents in it, at any depth: a descent leads to each of
them (`Stands.exists_descent`), and to nothing else (`Stands.exists_way`).

A value matches what is searched for if it is equal, as long as it is no container.
Containers match only themselves, and those of a document are not those of another one that
was built apart from it, however equal the two look (`Stands.matches_iff`).  So **a search
finds scalars, and no arrays or objects** (`Stands.exists_occursAt_iff`).
-/

namespace GraphPath

/-- Equality of documents that are neither arrays nor objects; floats compare as numbers. -/
def Json.scalarBeq : Json → Json → Bool
  | .null, .null => true
  | .bool a, .bool b => a == b
  | .integer m, .integer n => m == n
  | .float x, .float y => x == y
  | .string s, .string t => s == t
  | _, _ => false

theorem Value.handle?_of_scalarBeq {a b : Value} (h : a.scalarBeq b = true) :
    a.handle? = none ∧ b.handle? = none := by
  cases a <;> cases b <;> first | exact ⟨rfl, rfl⟩ | cases h

/-- What a container stands for is no scalar. -/
theorem Cell.Mirrors.scalarBeq_left {cell : Cell} {d : Json} (h : cell.Mirrors d) (x : Json) :
    d.scalarBeq x = false := by
  cases cell <;> cases d <;> first | rfl | cases h

theorem Cell.Mirrors.scalarBeq_right {cell : Cell} {d : Json} (h : cell.Mirrors d) (y : Json) :
    y.scalarBeq d = false := by
  cases cell <;> cases d <;> first | (cases y <;> rfl) | cases h

namespace Graph
variable {g : Graph} {s t u : List Handle} {v w node target : Value} {d e x y : Json} {h : Handle}
  {key : String}

/-! ## What is inside -/

theorem StandAll.exists_value {s : List Handle} {vs : List Value} {ds : List Json}
    (h : g.StandAll s vs ds) (he : e ∈ ds) : ∃ w ∈ vs, ∃ t, g.Stands t w e ∧ t.Sublist s := by
  match h with
  | .nil => cases he
  | .cons hv hvs =>
    rcases List.mem_cons.mp he with rfl | he
    · exact ⟨_, List.mem_cons_self, _, hv, List.sublist_append_left _ _⟩
    · obtain ⟨w, hw, t, hstands, hsub⟩ := hvs.exists_value he
      exact ⟨w, List.mem_cons_of_mem _ hw, t, hstands, hsub.trans (List.sublist_append_right _ _)⟩

theorem StandAll.exists_document {s : List Handle} {vs : List Value} {ds : List Json}
    (h : g.StandAll s vs ds) (hw : w ∈ vs) : ∃ e ∈ ds, ∃ t, g.Stands t w e ∧ t.Sublist s := by
  match h with
  | .nil => cases hw
  | .cons hv hvs =>
    rcases List.mem_cons.mp hw with rfl | hw
    · exact ⟨_, List.mem_cons_self, _, hv, List.sublist_append_left _ _⟩
    · obtain ⟨e, he, t, hstands, hsub⟩ := hvs.exists_document hw
      exact ⟨e, List.mem_cons_of_mem _ he, t, hstands, hsub.trans (List.sublist_append_right _ _)⟩

/-- What is inside a document is an entry of the container that stands for it. -/
theorem Stands.exists_entry (h : g.Stands s v d) (he : d.Inside e) :
    ∃ k key w t, v = .container k ∧ (key, w) ∈ (g.read k).entries ∧ g.Stands t w e ∧
      (k :: t).Sublist s := by
  cases h with
  | @container k s d _ hvalues =>
    obtain ⟨w, hw, t, hstands, hsub⟩ := hvalues.exists_value he
    obtain ⟨key, hentry⟩ := Cell.mem_values_iff_mem_entries.mp hw
    exact ⟨k, key, w, t, rfl, hentry, hstands, hsub.cons_cons k⟩
  | _ => cases he

/-- The entries of a container stand for what is inside the document. -/
theorem Stands.exists_inside (hs : g.Stands s (.container h) d)
    (hentry : (key, w) ∈ (g.read h).entries) :
    ∃ e t, d.Inside e ∧ g.Stands t w e ∧ (h :: t).Sublist s := by
  cases hs with
  | @container h s d _ hvalues =>
    obtain ⟨e, he, t, hstands, hsub⟩ :=
      hvalues.exists_document (Cell.mem_values_iff_mem_entries.mpr ⟨key, hentry⟩)
    exact ⟨e, t, he, hstands, hsub.cons_cons h⟩

/-- **A descent leads to everything in a document**, through containers that stand in the footprint
in this order, and not farther than the document nests. -/
theorem Stands.exists_descent {depth : Nat} (hs : g.Stands s v d) (hd : d.NestsWithin depth)
    (hway : Relation.ReflTransGen Json.Inside d y) :
    ∃ steps node t, g.Descent v steps node ∧ g.Stands t node y ∧ steps.length ≤ depth ∧
      (steps.map Prod.fst ++ t).Sublist s := by
  induction hway using Relation.ReflTransGen.head_induction_on generalizing s v depth with
  | refl => exact ⟨[], v, s, .stop v, hs, Nat.zero_le _, List.Sublist.refl s⟩
  | head hin _ ih =>
    obtain ⟨depth, rfl, he⟩ := hd.exists_of_inside hin
    obtain ⟨k, key, w, t, rfl, hentry, hw, hsub⟩ := hs.exists_entry hin
    obtain ⟨steps, node, u, hdescent, hnode, hlength, hpart⟩ := ih hw he
    exact ⟨(k, key) :: steps, node, u, .step hentry hdescent, hnode, Nat.succ_le_succ hlength,
      (hpart.cons_cons k).trans hsub⟩

/-- **A descent leads to nothing else.** -/
theorem Stands.exists_way {steps : List (Handle × String)} (hs : g.Stands s v d)
    (hdescent : g.Descent v steps node) :
    ∃ y t, g.Stands t node y ∧ t ⊆ s ∧ Relation.ReflTransGen Json.Inside d y ∧
      (steps ≠ [] → Relation.TransGen Json.Inside d y) := by
  induction hdescent generalizing s d with
  | stop v => exact ⟨d, s, hs, List.Subset.refl s, .refl, fun h => absurd rfl h⟩
  | step hentry _ ih =>
    obtain ⟨e, t, hin, hw, hsub⟩ := hs.exists_inside hentry
    obtain ⟨y, u, hnode, hpart, hway, -⟩ := ih hw
    have hway' : Relation.TransGen Json.Inside d y := .head' hin hway
    refine ⟨y, u, hnode, fun h hh => hsub.subset (List.mem_cons_of_mem _ (hpart hh)),
      hway'.to_reflTransGen, fun _ => hway'⟩

/-! ## What matches -/

/-- Values are equal as scalars if the documents are. -/
theorem Stands.scalarBeq_eq (hnode : g.Stands t node y) (htarget : g.Stands u target x) :
    node.scalarBeq target = y.scalarBeq x := by
  cases hnode with
  | container hmirrors _ => exact (hmirrors.scalarBeq_left x).symm
  | _ =>
    cases htarget with
    | container hmirrors _ => exact (hmirrors.scalarBeq_right _).symm
    | _ => rfl

/-- **A value of one document matches what stands for another** exactly if the two are equal
scalars, where the documents have no container in common. -/
theorem Stands.matches_iff (hnode : g.Stands t node y) (htarget : g.Stands u target x)
    (hapart : ∀ h ∈ t, h ∉ u) : g.Matches target node ↔ y.scalarBeq x = true := by
  rw [← hnode.scalarBeq_eq htarget]
  constructor
  · intro hmatch
    cases hmatch with
    | container h =>
      cases hnode with
      | container =>
        cases htarget with
        | container => exact absurd List.mem_cons_self (hapart h List.mem_cons_self)
    | scalar ht hn heq => rwa [equal, g.equalWithin_of_handle?_eq_none _ hn ht] at heq
  · intro hbeq
    obtain ⟨hn, ht⟩ := Value.handle?_of_scalarBeq hbeq
    refine .scalar ht hn ?_
    rwa [equal, g.equalWithin_of_handle?_eq_none _ hn ht]

/-- **What is searched for occurs in a document if an equal scalar is in it**, and not otherwise. -/
theorem Stands.exists_occursAt_iff {root : Value} {depth maxDepth : Nat}
    (hroot : g.Stands s root d) (htarget : g.Stands u target x) (hnodup : s.Nodup)
    (hapart : ∀ h ∈ s, h ∉ u) (hd : d.NestsWithin depth) (hdepth : depth ≤ maxDepth) :
    (∃ keys, g.OccursAt target root maxDepth keys) ↔
      ∃ y, Relation.TransGen Json.Inside d y ∧ y.scalarBeq x = true := by
  constructor
  · rintro ⟨-, steps, node, hoccurs, -⟩
    obtain ⟨y, t, hnode, hpart, -, hinside⟩ := hroot.exists_way hoccurs.descent
    have hbeq : y.scalarBeq x = true :=
      (hnode.matches_iff htarget fun h hh => hapart h (hpart hh)).mp hoccurs.hit
    exact ⟨y, hinside hoccurs.nonempty, hbeq⟩
  · rintro ⟨y, hway, hbeq⟩
    obtain ⟨e, hin, hrest⟩ := Relation.TransGen.head'_iff.mp hway
    obtain ⟨n, rfl, he⟩ := hd.exists_of_inside hin
    obtain ⟨k, key, w, t, rfl, hentry, hw, hsub⟩ := hroot.exists_entry hin
    obtain ⟨steps, node, t', hdescent, hnode, hlength, hpart⟩ := hw.exists_descent he hrest
    have htscalar : target.handle? = none :=
      (Value.handle?_of_scalarBeq ((hnode.scalarBeq_eq htarget).trans hbeq)).2
    have hentered : (k :: (steps.map Prod.fst ++ t')).Sublist s := (hpart.cons_cons k).trans hsub
    have hhit : g.Matches target node := by
      refine (hnode.matches_iff htarget fun h hh => hapart h (hentered.subset ?_)).mpr hbeq
      exact List.mem_cons_of_mem k (List.mem_append.mpr (Or.inr hh))
    refine ⟨_, (k, key) :: steps, node, ⟨.step hentry hdescent, List.cons_ne_nil _ _, ?_, ?_, ?_,
      hhit⟩, rfl⟩
    · show steps.length + 1 ≤ maxDepth
      omega
    · exact (hnodup.sublist hentered).sublist ((List.sublist_append_left _ t').cons_cons k)
    · -- a scalar matches no container on the way
      intro h _ hmatch
      cases hmatch with
      | container h => cases htscalar
      | scalar _ hn _ => cases hn

/-! ## What is answered -/

/-- Nothing is answered if and only if there is no occurrence. -/
theorem find?_eq_none_iff {grammar : Grammar} {maxDepth : Nat} {root : Value} {mode : FindMode} :
    g.find? grammar maxDepth root target mode = none ↔
      ¬ ∃ keys, g.OccursAt target root maxDepth keys := by
  have hall : g.locateAll target maxDepth root = [] ↔
      ¬ ∃ keys, g.OccursAt target root maxDepth keys := by
    rw [List.eq_nil_iff_forall_not_mem]
    simp only [mem_locateAll_iff, not_exists]
  rw [← hall]
  cases mode with
  | many => simp [find?]
  | one =>
    have hfirst : g.locateFirst target maxDepth root = (g.locateAll target maxDepth root).head? :=
      locateFirstBelow_eq_head? _ _ _
    simp only [find?, hfirst]
    cases g.locateAll target maxDepth root <;> simp

end Graph

end GraphPath
