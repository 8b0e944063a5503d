import GraphPath.Proofs.Cache
import GraphPath.Proofs.OrderedMap
import Mathlib.Data.Finset.Card
import Mathlib.Data.List.Induction

/-! # Which entries a cache still has

A request **touches** a key if it stores a value under it or finds one there; looking in vain
touches nothing, and neither does a change of the capacity.  A cache keeps its entries in the order
in which their keys were last touched, so how many entries stand in front of a key is how many other
keys were touched since (`keys_run`).  The key is gone once they leave no room for it, and stays
gone, whatever room there is later.

Hence what a cache answers is told by the history of requests alone.  **A key is found if and only
if it was stored since the cache was last emptied, and since it was last touched fewer other keys
were touched, at every moment, than the capacity in force then allows for** (`get?_run`).
-/

namespace GraphPath.Cache
variable {α : Type}

/-! ## Histories -/

/-- What can be asked of a cache. -/
inductive Request (α : Type) where
  /-- Look a key up. -/
  | get (key : String)
  /-- Store a value. -/
  | insert (key : String) (v : α)
  /-- Change the capacity. -/
  | resize (capacity : Nat)
  /-- Remove all entries. -/
  | clear

/-- The cache that a request leaves. -/
def perform (cache : Cache α) : Request α → Cache α
  | .get key => (cache.get? key).2
  | .insert key v => cache.insert key v
  | .resize capacity => cache.resize capacity
  | .clear => cache.clear

/-- The cache that a row of requests leaves. -/
def run (cache : Cache α) (requests : List (Request α)) : Cache α := requests.foldl perform cache

/-- **The key that a request touches**: one that is stored, or looked up and found. -/
def touched? (cache : Cache α) : Request α → Option String
  | .get key => (cache.get? key).1.map fun _ => key
  | .insert key _ => some key
  | .resize _ | .clear => none

/-- The keys that a row of requests touches, one after the other. -/
def touched (cache : Cache α) : List (Request α) → List String
  | [] => []
  | request :: rest => (cache.touched? request).toList ++ touched (cache.perform request) rest

/-- The capacity in force after some requests: the last one asked for, of which zero counts as
one. -/
def inForce (capacity : Nat) (history : List (Request α)) : Nat :=
  max 1 <| history.foldl (fun asked request =>
    match request with
    | .resize capacity => capacity
    | _ => asked) capacity

/-- What a request makes of the value last stored under a key. -/
def keep (key : String) (last? : Option α) : Request α → Option α
  | .insert stored v => if stored = key then some v else last?
  | .clear => none
  | .get _ | .resize _ => last?

/-- The value last stored under a key, unless all entries have been removed since. -/
def stored? (history : List (Request α)) (key : String) : Option α := history.foldl (keep key) none

/-- **A key is in use**: it was touched, not again since, and at every moment since, fewer keys have
been touched than the capacity in force at that moment. -/
def InUse (capacity : Nat) (history : List (Request α)) (key : String) : Prop :=
  ∃ before touch since, history = before ++ touch :: since ∧
    ((ofCapacity capacity).run before).touched? touch = some key ∧
    let last := (ofCapacity capacity).run (before ++ [touch])
    key ∉ last.touched since ∧ ∀ seen, seen <+: since →
      (last.touched seen).toFinset.card < inForce capacity (before ++ touch :: seen)

section
variable {cache : Cache α} {request : Request α} {requests rest : List (Request α)}

@[simp] theorem run_nil : cache.run [] = cache := rfl

@[simp] theorem run_cons : cache.run (request :: rest) = (cache.perform request).run rest := rfl

theorem run_append : cache.run (requests ++ rest) = (cache.run requests).run rest :=
  List.foldl_append

theorem run_concat : cache.run (requests ++ [request]) = (cache.run requests).perform request :=
  run_append

theorem touched_append :
    cache.touched (requests ++ rest) =
      cache.touched requests ++ (cache.run requests).touched rest := by
  induction requests generalizing cache with
  | nil => rfl
  | cons request requests ih =>
    rw [List.cons_append, touched, touched, ih, List.append_assoc, run_cons]

theorem touched_concat :
    cache.touched (requests ++ [request]) =
      cache.touched requests ++ ((cache.run requests).touched? request).toList := by
  rw [touched_append, touched, touched, List.append_nil]

end

/-! ## One request -/

/-- The keys, most recently touched first. -/
def keys (cache : Cache α) : List String := cache.entries.map Prod.fst

/-- Keys with one of them, if any, moved to the front, or put there. -/
def toFront (touched? : Option String) (keys : List String) : List String :=
  touched?.toList ++ keys.filter fun k => some k ≠ touched?

/-- A cache as every history leaves it: there is room for an entry, no key has two of them, and all
of them fit. -/
structure WellFormed (cache : Cache α) : Prop where
  /-- There is room. -/
  positive : 0 < cache.capacity
  /-- No key has two entries. -/
  nodup : cache.keys.Nodup
  /-- All entries fit. -/
  bounded : cache.keys.length ≤ cache.capacity

section
variable {touched? : Option String} {keys front back : List String} {key : String}

theorem nodup_toFront (hkeys : keys.Nodup) : (toFront touched? keys).Nodup := by
  cases touched? with
  | none => simpa [toFront] using hkeys
  | some key =>
    refine List.nodup_cons.mpr ⟨fun hmem => ?_, hkeys.filter _⟩
    have hne := (List.mem_filter.mp hmem).2
    simp at hne

theorem toFinset_toFront :
    (toFront touched? keys).toFinset = keys.toFinset ∪ touched?.toList.toFinset := by
  ext k
  simp only [toFront, List.toFinset_append, Finset.mem_union, List.mem_toFinset, List.mem_filter,
    Option.mem_toList, decide_eq_true_eq]
  tauto

/-- A key that is not moved itself stays behind those in front of it, and the one that is moved. -/
theorem toFront_append_cons (hkey : touched? ≠ some key) :
    toFront touched? (front ++ key :: back) =
      toFront touched? front ++ key :: back.filter fun k => some k ≠ touched? := by
  rw [toFront, toFront, List.filter_append, List.filter_cons_of_pos (by simpa using hkey.symm),
    List.append_assoc]

end

section
variable {cache : Cache α} {request : Request α} {key : String} {v : α}

theorem get?_fst : (cache.get? key).1 = cache.entries.lookup key := by
  unfold get?
  split <;> rename_i hlookup <;> rw [hlookup]

theorem map_fst_without : (cache.without key).map Prod.fst = cache.keys.filter (· ≠ key) := by
  rw [keys, List.filter_map]
  rfl

theorem keys_mk (capacity : Nat) (entries : List (String × α)) :
    (⟨capacity, entries⟩ : Cache α).keys = entries.map Prod.fst := rfl

theorem length_keys_get?_le : (cache.get? key).2.keys.length ≤ cache.keys.length := by
  rw [keys, keys, List.length_map, List.length_map]
  exact cache.size_get?_le key

/-- **What a request does to the order of keys**, if it does not remove them all: the one that it
touches goes first, and those that no longer fit go. -/
theorem keys_perform (hcache : cache.WellFormed) (hrequest : request ≠ .clear) :
    (cache.perform request).keys =
      (toFront (cache.touched? request) cache.keys).take (cache.perform request).capacity := by
  match request with
  | .get key =>
    -- looking a key up leaves at most as many entries, so none has to go
    have hlength : (cache.get? key).2.keys.length ≤ (cache.get? key).2.capacity := by
      rw [capacity_get?]
      exact length_keys_get?_le.trans hcache.bounded
    rw [perform, ← List.take_of_length_le hlength, touched?]
    congr 1
    cases hlookup : cache.entries.lookup key with
    | none => simp [get?, hlookup, toFront]
    | some v => simp [get?, hlookup, keys_mk, map_fst_without, toFront]
  | .insert key v =>
    simp [perform, insert, touched?, keys_mk, List.map_take, map_fst_without, toFront]
  | .resize capacity =>
    simp [perform, resize, touched?, keys, List.map_take, toFront]
  | .clear => exact absurd rfl hrequest

theorem capacity_perform_pos (hcache : cache.WellFormed) :
    0 < (cache.perform request).capacity := by
  cases request with
  | get key => exact capacity_get?.symm ▸ hcache.positive
  | insert key v => exact hcache.positive
  | resize capacity => exact Nat.lt_of_lt_of_le Nat.zero_lt_one (Nat.le_max_left _ _)
  | clear => exact hcache.positive

theorem WellFormed.perform (hcache : cache.WellFormed) (request : Request α) :
    (cache.perform request).WellFormed := by
  have hpositive : 0 < (cache.perform request).capacity := capacity_perform_pos hcache
  by_cases hrequest : request = .clear
  · subst hrequest
    exact ⟨hpositive, List.nodup_nil, Nat.zero_le _⟩
  · refine ⟨hpositive, ?_, ?_⟩ <;> rw [keys_perform hcache hrequest]
    · exact (nodup_toFront hcache.nodup).sublist (List.take_sublist _ _)
    · exact List.length_take_le _ _

/-- A key that is there was there before, or has just been touched. -/
theorem mem_keys_perform (hcache : cache.WellFormed) (h : key ∈ (cache.perform request).keys) :
    cache.touched? request = some key ∨ (key ∈ cache.keys ∧ request ≠ .clear) := by
  by_cases hrequest : request = .clear
  · subst hrequest
    cases h
  · rw [keys_perform hcache hrequest] at h
    rcases List.mem_append.mp (List.mem_of_mem_take h) with h | h
    · exact Or.inl (Option.mem_toList.mp h)
    · exact Or.inr ⟨(List.mem_filter.mp h).1, hrequest⟩

/-! ## One key -/

/-- **A key is in the cache, behind some others.** -/
def Behind (cache : Cache α) (others : Finset String) (key : String) : Prop :=
  ∃ front back, cache.keys = front ++ key :: back ∧ front.toFinset = others

/-- A key that has just been touched is behind no other. -/
theorem behind_of_touched? (hcache : cache.WellFormed) (h : cache.touched? request = some key) :
    (cache.perform request).Behind ∅ key := by
  have hrequest : request ≠ .clear := by
    rintro rfl
    cases h
  obtain ⟨n, hn⟩ := Nat.exists_eq_succ_of_ne_zero
    (Nat.ne_of_gt (hcache.perform request).positive)
  have hkeys : (cache.perform request).keys =
      key :: (cache.keys.filter fun k => some k ≠ some key).take n := by
    rw [keys_perform hcache hrequest, h, hn]
    rfl
  exact ⟨[], _, hkeys, rfl⟩

/-- **A request that touches another key puts this one in front**, and a key goes when those in
front of it fill the cache. -/
theorem Behind.perform {others : Finset String} (hcache : cache.WellFormed)
    (hbehind : cache.Behind others key) (hrequest : request ≠ .clear)
    (huntouched : cache.touched? request ≠ some key) :
    let now := cache.perform request
    let others' := others ∪ (cache.touched? request).toList.toFinset
    (others'.card < now.capacity ∧ now.Behind others' key) ∨
      (now.capacity ≤ others'.card ∧ key ∉ now.keys) := by
  intro now others'
  obtain ⟨front, back, hkeys, rfl⟩ := hbehind
  have hnow := keys_perform hcache hrequest
  have hnodup : (toFront (cache.touched? request) cache.keys).Nodup := nodup_toFront hcache.nodup
  rw [hkeys, toFront_append_cons huntouched] at hnow hnodup
  have hcard : (toFront (cache.touched? request) front).length = others'.card := by
    rw [← List.toFinset_card_of_nodup hnodup.of_append_left, toFinset_toFront]
  rcases Nat.lt_or_ge others'.card now.capacity with hroom | hfull
  · -- the key is among those that fit
    obtain ⟨n, hn⟩ := Nat.exists_eq_add_of_lt hroom
    rw [hn, Nat.add_assoc, ← hcard, List.take_length_add_append] at hnow
    exact Or.inl ⟨hroom, _, _, hnow, toFinset_toFront⟩
  · refine Or.inr ⟨hfull, fun hmem => ?_⟩
    rw [hnow, List.take_append_of_le_length (hcard ▸ hfull)] at hmem
    exact (List.nodup_append.mp hnodup).2.2 key (List.mem_of_mem_take hmem) key
      List.mem_cons_self rfl

end

/-! ## Rows of requests -/

section
variable {cache : Cache α} {requests since : List (Request α)} {key : String} {v : α}
  {capacity : Nat} {history : List (Request α)}

theorem wellFormed_ofCapacity (capacity : Nat) : (ofCapacity capacity : Cache α).WellFormed :=
  ⟨Nat.lt_of_lt_of_le Nat.zero_lt_one (Nat.le_max_left _ _), List.nodup_nil, Nat.zero_le _⟩

theorem WellFormed.run (hcache : cache.WellFormed) (requests : List (Request α)) :
    (cache.run requests).WellFormed := by
  induction requests generalizing cache with
  | nil => exact hcache
  | cons request rest ih => exact ih (hcache.perform request)

theorem capacity_run (history : List (Request α)) :
    ((ofCapacity capacity : Cache α).run history).capacity = inForce capacity history := by
  induction history using List.reverseRecOn with
  | nil => rfl
  | append_singleton history request ih =>
    rw [run_concat, inForce, List.foldl_append]
    cases request with
    | get key => exact capacity_get?.trans ih
    | insert key v => exact ih
    | resize capacity => rfl
    | clear => exact ih

/-- A key that is there was there before, and they were not all removed since; or it was touched. -/
theorem mem_keys_run (hcache : cache.WellFormed) (h : key ∈ (cache.run requests).keys) :
    key ∈ cache.touched requests ∨ (key ∈ cache.keys ∧ .clear ∉ requests) := by
  induction requests generalizing cache with
  | nil => exact Or.inr ⟨h, List.not_mem_nil⟩
  | cons request rest ih =>
    rw [touched, List.mem_append]
    rcases ih (hcache.perform request) h with htouched | ⟨hkey, hrest⟩
    · exact Or.inl (Or.inr htouched)
    · rcases mem_keys_perform hcache hkey with htouched | ⟨hkey, hrequest⟩
      · exact Or.inl (Or.inl (Option.mem_toList.mpr htouched))
      · exact Or.inr ⟨hkey, List.not_mem_cons_of_ne_of_not_mem (Ne.symm hrequest) hrest⟩

/-- A key that was touched was touched a last time. -/
theorem exists_last_touch (h : key ∈ cache.touched requests) :
    ∃ before touch since, requests = before ++ touch :: since ∧
      (cache.run before).touched? touch = some key ∧
      key ∉ (cache.run (before ++ [touch])).touched since := by
  induction requests generalizing cache with
  | nil => cases h
  | cons request rest ih =>
    by_cases hrest : key ∈ (cache.perform request).touched rest
    · obtain ⟨before, touch, since, rfl, htouch, hsince⟩ := ih hrest
      exact ⟨request :: before, touch, since, rfl, htouch, hsince⟩
    · have hfirst := (List.mem_append.mp h).resolve_right hrest
      exact ⟨[], request, rest, rfl, Option.mem_toList.mp hfirst, hrest⟩

/-- Whether at every moment of some requests fewer keys have been touched than there is room for. -/
def HasRoom (cache : Cache α) (requests : List (Request α)) : Prop :=
  ∀ seen, seen <+: requests → (cache.touched seen).toFinset.card < (cache.run seen).capacity

theorem hasRoom_concat {request : Request α} :
    cache.HasRoom (requests ++ [request]) ↔ cache.HasRoom requests ∧
      (cache.touched (requests ++ [request])).toFinset.card <
        (cache.run (requests ++ [request])).capacity := by
  simp only [HasRoom, List.prefix_concat_iff, or_imp, forall_and, forall_eq]
  exact and_comm

/-- **What becomes of a key that is not touched again**: it stands behind the keys that are, if
there is room for them at every moment, and is gone otherwise. -/
theorem keys_run (hcache : cache.WellFormed) (hfirst : cache.Behind ∅ key)
    (huntouched : key ∉ cache.touched requests) (hclear : .clear ∉ requests) :
    (cache.HasRoom requests ∧
        (cache.run requests).Behind (cache.touched requests).toFinset key) ∨
      (¬ cache.HasRoom requests ∧ key ∉ (cache.run requests).keys) := by
  induction requests using List.reverseRecOn with
  | nil =>
    refine Or.inl ⟨fun seen hseen => ?_, hfirst⟩
    rw [List.prefix_nil.mp hseen]
    exact hcache.positive
  | append_singleton requests request ih =>
    rw [touched_concat, List.mem_append, not_or, Option.mem_toList] at huntouched
    have hrequest : request ≠ .clear := fun h => hclear (h ▸ List.mem_concat_self)
    have hnow := hcache.run requests
    rw [hasRoom_concat, run_concat, touched_concat, List.toFinset_append]
    rcases ih huntouched.1 (fun h => hclear (List.mem_append_left _ h)) with
      ⟨hroom, hbehind⟩ | ⟨hroom, hgone⟩
    · rcases hbehind.perform hnow hrequest huntouched.2 with ⟨hlt, hbehind⟩ | ⟨hle, hgone⟩
      · exact Or.inl ⟨⟨hroom, hlt⟩, hbehind⟩
      · exact Or.inr ⟨fun h => absurd h.2 (Nat.not_lt.mpr hle), hgone⟩
    · -- nothing but touching it brings a key back
      refine Or.inr ⟨fun h => hroom h.1, fun hkey => ?_⟩
      rcases mem_keys_perform hnow hkey with htouched | ⟨hkey, -⟩
      · exact huntouched.2 htouched
      · exact hgone hkey

/-! ## What was stored -/

/-- An entry has the value that was last stored under its key. -/
theorem keep_of_mem_entries {request : Request α} {last? : Option α}
    (hlast : (key, v) ∈ cache.entries → last? = some v)
    (h : (key, v) ∈ (cache.perform request).entries) : keep key last? request = some v := by
  match request with
  | .get _ => exact hlast (mem_entries_of_get? h)
  | .insert stored w =>
    rw [keep]
    rcases List.mem_cons.mp (List.mem_of_mem_take h) with heq | hmem
    · cases heq
      exact if_pos rfl
    · obtain ⟨hmem, hne⟩ := List.mem_filter.mp hmem
      have hstored : stored ≠ key := Ne.symm (of_decide_eq_true hne)
      rw [if_neg hstored]
      exact hlast hmem
  | .resize _ => exact hlast (List.mem_of_mem_take h)
  | .clear => cases h

theorem stored?_of_mem_entries (h : (key, v) ∈ ((ofCapacity capacity).run history).entries) :
    stored? history key = some v := by
  induction history using List.reverseRecOn with
  | nil => cases h
  | append_singleton history request ih =>
    rw [run_concat] at h
    rw [stored?, List.foldl_append]
    exact keep_of_mem_entries ih h

theorem foldl_keep_none (h : key ∉ cache.touched requests) :
    requests.foldl (keep key) none = none := by
  induction requests generalizing cache with
  | nil => rfl
  | cons request rest ih =>
    rw [touched, List.mem_append, not_or, Option.mem_toList] at h
    have hkeep : keep key (none : Option α) request = none := by
      match request, h.1 with
      | .get _, _ | .resize _, _ | .clear, _ => rfl
      | .insert stored w, hne => exact if_neg fun heq => hne (congrArg some heq)
    rw [List.foldl_cons, hkeep]
    exact ih h.2

/-- What was stored before all entries were removed is not stored any more. -/
theorem stored?_of_clear {before : List (Request α)} (hclear : .clear ∈ since)
    (h : key ∉ cache.touched since) : stored? (before ++ since) key = none := by
  obtain ⟨front, back, rfl⟩ := List.append_of_mem hclear
  rw [touched_append, List.mem_append, not_or, touched, List.mem_append, not_or] at h
  rw [stored?, List.foldl_append, List.foldl_append, List.foldl_cons]
  exact foldl_keep_none h.2.2

end

/-! ## What is found -/

section
variable {capacity : Nat} {history before since : List (Request α)} {touch : Request α}
  {key : String} {v : α}

theorem hasRoom_iff :
    ((ofCapacity capacity).run (before ++ [touch])).HasRoom since ↔ ∀ seen, seen <+: since →
      (((ofCapacity capacity).run (before ++ [touch])).touched seen).toFinset.card <
        inForce capacity (before ++ touch :: seen) := by
  have hcapacity (seen : List (Request α)) :
      (((ofCapacity capacity).run (before ++ [touch])).run seen).capacity =
        inForce capacity (before ++ touch :: seen) := by
    rw [← run_append, List.append_assoc, capacity_run]
    rfl
  simp only [HasRoom, hcapacity]

/-- **A key that is there is in use.** -/
theorem inUse_of_mem_keys (h : key ∈ ((ofCapacity capacity).run history).keys) :
    InUse capacity history key := by
  have htouched : key ∈ (ofCapacity capacity).touched history :=
    (mem_keys_run (wellFormed_ofCapacity capacity) h).resolve_right (fun h => nomatch h.1)
  obtain ⟨before, touch, since, rfl, htouch, hsince⟩ := exists_last_touch htouched
  have hbefore := (wellFormed_ofCapacity (α := α) capacity).run before
  have hlast := (wellFormed_ofCapacity (α := α) capacity).run (before ++ [touch])
  rw [List.append_cons, run_append] at h
  have hclear := ((mem_keys_run hlast h).resolve_left hsince).2
  refine ⟨before, touch, since, rfl, htouch, hsince, hasRoom_iff.mp ?_⟩
  have hfirst := behind_of_touched? hbefore htouch
  rw [← run_concat] at hfirst
  rcases keys_run hlast hfirst hsince hclear with ⟨hroom, -⟩ | ⟨-, hgone⟩
  · exact hroom
  · exact absurd h hgone

/-- **A key in use is there**, if not all entries have been removed since it was stored. -/
theorem mem_keys_of_inUse (huse : InUse capacity history key)
    (hstored : stored? history key = some v) : key ∈ ((ofCapacity capacity).run history).keys := by
  obtain ⟨before, touch, since, rfl, htouch, hsince, hroom⟩ := huse
  have hbefore := (wellFormed_ofCapacity (α := α) capacity).run before
  have hlast := (wellFormed_ofCapacity (α := α) capacity).run (before ++ [touch])
  rw [List.append_cons] at hstored ⊢
  have hclear : .clear ∉ since := fun hclear => by
    rw [stored?_of_clear hclear hsince] at hstored
    cases hstored
  have hfirst := behind_of_touched? hbefore htouch
  rw [← run_concat] at hfirst
  rw [run_append]
  rcases keys_run hlast hfirst hsince hclear with ⟨-, front, back, hkeys, -⟩ | ⟨hfull, -⟩
  · rw [hkeys]
    exact List.mem_append_right _ List.mem_cons_self
  · exact absurd (hasRoom_iff.mpr hroom) hfull

end

/-- **A cache evicts what was least recently used, and nothing else.**  After any requests, looking
a key up finds a value if and only if it is the one last stored under that key, with no removal of
all entries since, and the key is still in use.  And there are never more entries than the capacity
in force. -/
theorem get?_run (capacity : Nat) (history : List (Request α)) (key : String) :
    let cache := (ofCapacity capacity).run history
    (∀ v, (cache.get? key).1 = some v ↔ stored? history key = some v ∧ InUse capacity history key) ∧
      cache.size ≤ inForce capacity history := by
  intro cache
  have hcache : cache.WellFormed := (wellFormed_ofCapacity capacity).run history
  have hfound {v : α} : (cache.get? key).1 = some v ↔ (key, v) ∈ cache.entries := by
    rw [get?_fst]
    exact OrderedMap.lookup_eq_some_iff_mem hcache.nodup
  refine ⟨fun v => ?_, ?_⟩
  · rw [hfound]
    constructor
    · intro h
      exact ⟨stored?_of_mem_entries h, inUse_of_mem_keys (List.mem_map_of_mem h)⟩
    · rintro ⟨hstored, huse⟩
      obtain ⟨⟨_, w⟩, hentry, rfl⟩ := List.mem_map.mp (mem_keys_of_inUse huse hstored)
      rw [stored?_of_mem_entries hentry] at hstored
      exact Option.some.inj hstored ▸ hentry
  · have hbounded := hcache.bounded
    rw [capacity_run, keys, List.length_map] at hbounded
    exact hbounded

/-- What a cache has lost does not come back when there is room again. -/
example :
    let history : List (Request Nat) :=
      [.insert "a" 1, .insert "b" 2, .get "a", .get "c", .insert "c" 3, .resize 0, .resize 9]
    let cache := (ofCapacity 2).run history
    (ofCapacity 2 : Cache Nat).touched history = ["a", "b", "a", "c"] ∧ cache.keys = ["c"] ∧
      stored? history "a" = some 1 ∧ inForce 2 history = 9 := by
  decide

end GraphPath.Cache
