import GraphPath.Graph.Keys
import GraphPath.Json.Basic
import GraphPath.Proofs.OrderedMap

/-! # Locations in documents

A document that is no scalar has other documents in it, items under their positions in
decimal and members under their keys (`Json.getKey?`).  A row of keys is a location
(`Json.valueAt?`), and another document can be put there, with everything else left as it
was (`Json.replaceAt`).

Some properties are asked of all documents at any depth (`Json.Everywhere`): that floats are
finite (`Json.Finite`), and that the keys of objects ascend (`Json.Ordered`).  Such a property
survives a replacement if it does not depend on what stands under a key
(`Everywhere.replaceAt`).
-/

namespace GraphPath.Json

/-! ## Documents inside documents -/

/-- The documents directly inside a document, in order. -/
def values : Json → List Json
  | .array items => items
  | .object members => members.map Prod.snd
  | _ => []

/-- **One document is directly inside another.** -/
def Inside (d e : Json) : Prop := e ∈ d.values

/-- The document under a key. -/
def getKey? : Json → String → Option Json
  | .array items, key =>
    match listIndex? key with
    | some i => items[i]?
    | none => none
  | .object members, key => members.lookup key
  | _, _ => none

/-- Put another document under a key that is there. -/
def setKey : Json → String → Json → Json
  | .array items, key, e =>
    match listIndex? key with
    | some i => .array (items.set i e)
    | none => .array items
  | .object members, key, e => .object (OrderedMap.put key e members)
  | d, _, _ => d

/-- **The document at a location.** -/
def valueAt? (d : Json) : List String → Option Json
  | [] => some d
  | key :: rest => (d.getKey? key).bind fun e => e.valueAt? rest

/-- **A document with another one put at a location**, if there is such a location. -/
def replaceAt (d : Json) : List String → Json → Json
  | [], e => e
  | key :: rest, e =>
    match d.getKey? key with
    | some sub => d.setKey key (sub.replaceAt rest e)
    | none => d

variable {d e sub : Json} {key : String} {keys : List String}

theorem mem_values_of_getKey? (h : d.getKey? key = some e) : e ∈ d.values := by
  cases d with
  | array items =>
    rw [getKey?] at h
    split at h
    · exact List.mem_of_getElem? h
    · cases h
  | object members =>
    exact List.mem_map_of_mem (OrderedMap.mem_of_lookup h)
  | _ => cases h

/-- What is inside a document after a change was put there, or was inside before. -/
theorem mem_values_setKey (h : sub ∈ (d.setKey key e).values) : sub = e ∨ sub ∈ d.values := by
  cases d with
  | array items =>
    rw [setKey] at h
    split at h
    · exact (List.mem_or_eq_of_mem_set h).symm
    · exact Or.inr h
  | object members =>
    obtain ⟨member, hmember, rfl⟩ := List.mem_map.mp h
    rcases OrderedMap.mem_put hmember with rfl | hmember
    · exact Or.inl rfl
    · exact Or.inr (List.mem_map_of_mem hmember)
  | _ => exact Or.inr h

/-! ## Properties of all documents inside -/

/-- **A property of a document and of all documents in it**, at any depth. -/
inductive Everywhere (p : Json → Prop) : Json → Prop
  | intro {d : Json} (here : p d) (below : ∀ e ∈ d.values, Everywhere p e) : Everywhere p d

/-- A float is finite. -/
def IsFinite : Json → Prop
  | .float x => x.isFinite = true
  | _ => True

/-- The keys of some members ascend. -/
def Ascending {α : Type} (members : List (String × α)) : Prop :=
  members.Pairwise fun member other => compare member.1 other.1 = .lt

/-- The keys of an object ascend. -/
def KeysAscend : Json → Prop
  | .object members => Ascending members
  | _ => True

/-- **All floats are finite.** -/
def Finite : Json → Prop := Everywhere IsFinite

/-- **The keys of all objects ascend.** -/
def Ordered : Json → Prop := Everywhere KeysAscend

variable {p : Json → Prop}

theorem Everywhere.here (h : d.Everywhere p) : p d := by
  cases h with
  | intro here _ => exact here

theorem Everywhere.inside (h : d.Everywhere p) (he : d.Inside e) : e.Everywhere p := by
  cases h with
  | intro _ below => exact below e he

theorem Everywhere.valueAt? (hd : d.Everywhere p) (h : d.valueAt? keys = some sub) :
    sub.Everywhere p := by
  induction keys generalizing d with
  | nil =>
    cases h
    exact hd
  | cons key rest ih =>
    obtain ⟨e, hkey, hrest⟩ := Option.bind_eq_some_iff.mp h
    exact ih (hd.inside (mem_values_of_getKey? hkey)) hrest

/-- A replacement keeps what does not depend on the documents under keys. -/
theorem Everywhere.replaceAt
    (hp : ∀ d key old e, d.getKey? key = some old → p d → p (d.setKey key e)) (hd : d.Everywhere p)
    (he : e.Everywhere p) : (d.replaceAt keys e).Everywhere p := by
  induction keys generalizing d with
  | nil => exact he
  | cons key rest ih =>
    rw [Json.replaceAt]
    cases hkey : d.getKey? key with
    | none => exact hd
    | some sub =>
      have hsub : (sub.replaceAt rest e).Everywhere p := ih (hd.inside (mem_values_of_getKey? hkey))
      refine .intro (hp d key sub _ hkey hd.here) fun x hx => ?_
      rcases mem_values_setKey hx with rfl | hx
      · exact hsub
      · exact hd.inside hx

theorem Finite.replaceAt (hd : d.Finite) (he : e.Finite) : (d.replaceAt keys e).Finite := by
  refine Everywhere.replaceAt (fun d key _ e _ hd => ?_) hd he
  cases d with
  | array items =>
    rw [setKey]
    split <;> trivial
  | _ => exact hd

theorem Ordered.replaceAt (hd : d.Ordered) (he : e.Ordered) : (d.replaceAt keys e).Ordered := by
  refine Everywhere.replaceAt (fun d key old e hkey hd => ?_) hd he
  cases d with
  | array items =>
    rw [setKey]
    split <;> trivial
  | object members =>
    have hin : key ∈ members.map Prod.fst :=
      List.mem_map_of_mem (OrderedMap.mem_of_lookup hkey)
    have hkeys : (OrderedMap.put key e members).map Prod.fst = members.map Prod.fst :=
      OrderedMap.keys_put_of_mem hin
    have hold : (members.map Prod.fst).Pairwise (compare · · = .lt) := List.pairwise_map.mpr hd
    exact List.pairwise_map.mp (hkeys ▸ hold)
  | _ => exact hd

end GraphPath.Json
