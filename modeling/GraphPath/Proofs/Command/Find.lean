import GraphPath.Proofs.Command.GetSet
import GraphPath.Proofs.Locate.Documents

/-! # Searching a document by command

What is searched for is read from a text of its own, and built in containers of its own.
Containers match only themselves, so a search by command finds nothing if it is for an array
or an object, also where an equal one is in the document.  **It finds nothing exactly if no
equal scalar is in the document** (`Request.execute_find`), whether one occurrence is asked for
or all of them.

A document that was read nests less deep than paths may be long by default, so the limit on
the length of paths does not show.
-/

namespace GraphPath

section
variable {input value : String} {d x : Json}

/-- **A search finds nothing if and only if no equal scalar is in the document.** -/
theorem Request.execute_find (hinput : Json.read? input = some d)
    (hvalue : Json.read? value = some x) (all : Bool) :
    ({ command := .find value all, input? := some input } : Request).execute = .error .notFound ↔
      ∀ y, Relation.TransGen Json.Inside d y → y.scalarBeq x = false := by
  obtain ⟨hordered, hnests⟩ := Json.wellRead_of_read? hinput
  obtain ⟨s, hroot, hs⟩ := Graph.closed_empty.stands_addJson d hordered
  let root := Graph.addJson {} d
  have hbuilt := Graph.closed_empty.addJson d
  obtain ⟨t, htarget, ht⟩ := hbuilt.closed.stands_addJson x (Json.wellRead_of_read? hvalue).1
  have hmade := hbuilt.closed.addJson x
  let target := root.2.addJson x
  have hstands : target.2.Stands s root.1 d := hroot.congr fun h hh => hmade.kept h (hs.new h hh).2
  have hapart : ∀ h ∈ s, h ∉ t := by
    intro h hh hh'
    have hlt := (hs.new h hh).2
    have hge := (ht.new h hh').1
    omega
  have hdepth : Json.maxNesting ≤ ({} : Engine).settings.maxDepth := by decide
  refine (execute_eq_notFound_iff rfl rfl (document_eq_ok rfl hinput) hvalue).trans ?_
  refine Graph.find?_eq_none_iff.trans ?_
  rw [hstands.exists_occursAt_iff htarget hs.nodup hapart hnests hdepth]
  simp

/-- An array that is in the document is not found. -/
theorem Request.execute_find_array :
    let d := Json.object [("a", .array [.bool true])]
    let x := Json.array [.bool true]
    Json.read? "\x7b\"a\":[true]\x7d" = some d ∧ Json.read? "[true]" = some x ∧
      Relation.TransGen Json.Inside d x ∧
      ({ command := .find "[true]" false, input? := some "\x7b\"a\":[true]\x7d" } :
        Request).execute = .error .notFound := by
  intro d x
  have hinput : Json.read? "\x7b\"a\":[true]\x7d" = some d := by with_unfolding_all rfl
  have hvalue : Json.read? "[true]" = some x := by with_unfolding_all rfl
  have hinside : d.Inside x := List.mem_singleton_self x
  have hscalar : ∀ y : Json, y.scalarBeq x = false := fun y => by cases y <;> rfl
  exact ⟨hinput, hvalue, .single hinside,
    (execute_find hinput hvalue false).mpr fun y _ => hscalar y⟩

end

end GraphPath
