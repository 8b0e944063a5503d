import GraphPath.Method
import GraphPath.Proofs.Graph.Reach

/-! # What methods do to a graph

A method answers with a scalar, with something that is inside its receiver, or with a
new list; or it puts the items of its receiver in another order and answers with the
receiver.  Nothing else happens to a graph, whatever method is called on whatever
receiver (`Graph.callMethod_eq_ok`).
-/

namespace GraphPath

/-- Sorting only rearranges. -/
theorem mem_sortValues {items : List Value} {v : Value} : v ∈ sortValues items ↔ v ∈ items :=
  (List.mergeSort_perm items _).mem_iff

namespace Graph
variable {g g' : Graph} {method : Method} {receiver v w : Value} {args : List Value}

/-- **All that a method can do.** -/
inductive MethodResult (g : Graph) (receiver : Value) : Value → Graph → Prop
  /-- It answers with a scalar. -/
  | scalar {w : Value} (hw : w.isContainer = false) : MethodResult g receiver w g
  /-- It answers with something that is inside its receiver. -/
  | inside {w : Value} (hw : g.Inside receiver w) : MethodResult g receiver w g
  /-- It answers with a new list of scalars and of things that are inside its receiver. -/
  | newList {items : List Value}
      (hitems : ∀ v ∈ items, v.isContainer = false ∨ g.Inside receiver v) :
      MethodResult g receiver (g.newList items).1 (g.newList items).2
  /-- It puts the items of its receiver in another order. -/
  | rearranged {h : Handle} {items items' : List Value} (hreceiver : receiver = .container h)
      (hread : g.read h = .list items) (hsame : ∀ v, v ∈ items' ↔ v ∈ items) :
      MethodResult g receiver receiver (g.write h (.list items'))

theorem callMethod_eq_ok (hcall : g.callMethod method receiver args = .ok (w, g')) :
    g.MethodResult receiver w g' := by
  cases receiver with
  | container h =>
    have hkeys : ∀ v ∈ (g.read h).keys.map Value.string, v.isContainer = false := fun v hv => by
      obtain ⟨key, -, rfl⟩ := List.mem_map.mp hv
      rfl
    have hinside : ∀ v ∈ (g.read h).values, g.Inside (.container h) v := fun v hv =>
      inside_container_iff.mpr hv
    unfold callMethod at hcall
    dsimp only at hcall
    cases hread : g.read h with
    | list items =>
      rw [hread] at hcall hkeys hinside
      cases method with
      | sort =>
        cases hcall
        exact .rearranged rfl hread fun _ => mem_sortValues
      | reverse =>
        cases hcall
        exact .rearranged rfl hread fun _ => List.mem_reverse
      | keys =>
        cases hcall
        exact .newList fun v hv => Or.inl (hkeys v hv)
      | values =>
        cases hcall
        exact .newList fun v hv => Or.inr (hinside v hv)
      | first =>
        cases hcall
        cases items with
        | nil => exact .scalar rfl
        | cons v rest => exact .inside (hinside v List.mem_cons_self)
      | last =>
        cases hcall
        cases hlast : items.getLast? with
        | none => exact .scalar rfl
        | some v => exact .inside (hinside v (List.mem_of_getLast? hlast))
      | join =>
        cases hjoin : g.join items args with
        | error failure =>
          simp only [hjoin] at hcall
          cases hcall
        | ok text =>
          simp only [hjoin] at hcall
          cases hcall
          exact .scalar rfl
      | upper | lower | trim => cases hcall
    | map fields =>
      rw [hread] at hcall hkeys hinside
      cases method with
      | keys =>
        cases hcall
        exact .newList fun v hv => Or.inl (hkeys v hv)
      | values =>
        cases hcall
        exact .newList fun v hv => Or.inr (hinside v hv)
      | _ => cases hcall
  | string s => cases method <;> cases hcall <;> exact .scalar rfl
  | _ => cases hcall

end Graph

end GraphPath
