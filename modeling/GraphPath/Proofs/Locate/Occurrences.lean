import GraphPath.Locate
import GraphPath.Proofs.Graph.Keys

/-! # Where a value occurs

What `Graph.find?` answers is said here without a search.  A **descent** leads from
a value to one below it along own entries; it is recorded as the containers it
leaves, each with the key it leaves by.  An **occurrence** of a target is a descent
to a node that matches it, through distinct containers, past no earlier match, and
not longer than the limit.

**The search lists exactly the key paths of the occurrences**, in the order in
which one reads the containers from top to bottom, none twice; and the search for
one occurrence answers with the first of them (`find?_lists_occurrences`).

The search keeps the containers that are `free` to enter instead of those that it
has entered.  Its invariant is that a descent found from a node leaves free
containers only (`mem_locateBelow_iff`); it is carried by an induction on the
limit, and it is what makes the containers distinct, since a container that is
entered is not free any more.
-/

namespace GraphPath.Graph

/-! ## Matches, descents, occurrences -/

/-- **When a node is the value searched for**: a container if it is the same one, anything else
if it is equal. -/
inductive Matches (g : Graph) : Value → Value → Prop
  | container (h : Handle) : Matches g (.container h) (.container h)
  | scalar {target node : Value} (htarget : target.handle? = none) (hnode : node.handle? = none)
      (heq : g.equal node target = true) : Matches g target node

/-- **A way down** along own entries, with the containers it leaves and the keys it leaves them
by. -/
inductive Descent (g : Graph) : Value → List (Handle × String) → Value → Prop
  | stop (v : Value) : Descent g v [] v
  | step {h : Handle} {key : String} {v node : Value} {steps : List (Handle × String)}
      (hentry : (key, v) ∈ (g.read h).entries) (hrest : Descent g v steps node) :
      Descent g (.container h) ((h, key) :: steps) node

/-- **An occurrence** of `target` below `root`, at the end of a descent. -/
structure Occurrence (g : Graph) (target root : Value) (maxDepth : Nat)
    (steps : List (Handle × String)) (node : Value) : Prop where
  /-- The steps lead to the node. -/
  descent : g.Descent root steps node
  /-- The root itself is not compared. -/
  nonempty : steps ≠ []
  /-- The descent is not too long. -/
  short : steps.length ≤ maxDepth
  /-- No container is entered twice. -/
  distinct : (steps.map Prod.fst).Nodup
  /-- No container behind the root is a match already. -/
  unmatched : ∀ h ∈ (steps.map Prod.fst).tail, ¬ g.Matches target (.container h)
  /-- The node is a match. -/
  hit : g.Matches target node

/-- The target occurs at the end of a row of keys. -/
def OccursAt (g : Graph) (target root : Value) (maxDepth : Nat) (keys : List String) : Prop :=
  ∃ steps node, g.Occurrence target root maxDepth steps node ∧ steps.map Prod.snd = keys

/-- **The order of reading**: where two rows of keys part, the first goes on with the earlier key
of the node that they have come to. -/
def Before (g : Graph) (root : Value) (keys keys' : List String) : Prop :=
  ∃ steps node key key' rest rest', g.Descent root steps node ∧
    keys = steps.map Prod.snd ++ key :: rest ∧ keys' = steps.map Prod.snd ++ key' :: rest' ∧
    [key, key'].Sublist (g.ownKeys node)

variable {g : Graph} {target : Value}

theorem isTarget_iff {node : Value} : target.isTarget node = true ↔ g.Matches target node := by
  constructor
  · intro h
    unfold Value.isTarget at h
    split at h
    · rename_i n k hn hk
      obtain rfl : n = k := beq_iff_eq.mp h
      cases node <;> cases hn
      cases target <;> cases hk
      exact .container n
    · rename_i hnode htarget
      rw [← g.equalWithin_of_handle?_eq_none _ hnode htarget] at h
      exact .scalar htarget hnode h
    · cases h
  · rintro (h | ⟨htarget, hnode, heq⟩)
    · exact beq_self_eq_true h
    · rw [equal, g.equalWithin_of_handle?_eq_none _ hnode htarget] at heq
      rw [Value.isTarget, hnode, htarget]
      exact heq

theorem isTarget_eq_false_iff {node : Value} :
    target.isTarget node = false ↔ ¬ g.Matches target node := by
  rw [← isTarget_iff, Bool.not_eq_true]

/-- A descent leaves containers of the graph only. -/
theorem Descent.lt_size {root node : Value} {steps : List (Handle × String)}
    (hd : g.Descent root steps node) : ∀ h ∈ steps.map Prod.fst, h < g.cells.size := by
  induction hd with
  | stop v => exact nofun
  | step hentry _ ih =>
    intro h hh
    rcases List.mem_cons.mp hh with rfl | hh
    · exact lt_size_of_mem_entries hentry
    · exact ih h hh

/-- Two rows of keys of which one is before the other are different. -/
theorem Before.ne {root : Value} {keys keys' : List String} (h : g.Before root keys keys') :
    keys ≠ keys' := by
  obtain ⟨steps, node, key, key', rest, rest', -, rfl, rfl, hsub⟩ := h
  intro heq
  -- the rows would go on with the same key, which would then be two of the node's own keys
  obtain rfl : key = key' := (List.cons.inj (List.append_cancel_left heq)).1
  have hnodup := hsub.nodup (g.ownKeys_nodup node)
  simp at hnodup

/-- The order below an entry of a container is the order below the container. -/
theorem Before.below {h : Handle} {key : String} {v : Value} {keys keys' : List String}
    (hentry : (key, v) ∈ (g.read h).entries) (hkeys : g.Before v keys keys') :
    g.Before (.container h) (key :: keys) (key :: keys') := by
  obtain ⟨steps, node, k, k', rest, rest', hd, rfl, rfl, hsub⟩ := hkeys
  exact ⟨(h, key) :: steps, node, k, k', rest, rest', .step hentry hd, rfl, rfl, hsub⟩

/-! ## The search, one container at a time -/

/-- The key paths that begin with one entry of a container. -/
def locateAt (g : Graph) (target : Value) (free : List Handle) (depth : Nat)
    (entry : String × Value) : List (List String) :=
  if target.isTarget entry.2 then [[entry.1]]
  else (g.locateBelow target free depth entry.2).map (entry.1 :: ·)

theorem locateAmong_eq_flatMap (free : List Handle) (depth : Nat)
    (entries : List (String × Value)) :
    g.locateAmong target free depth entries = entries.flatMap (g.locateAt target free depth) := by
  induction entries with
  | nil => rw [locateAmong]; rfl
  | cons entry rest ih =>
    obtain ⟨key, v⟩ := entry
    rw [locateAmong, List.flatMap_cons, ih]
    rfl

theorem locateBelow_container (free : List Handle) (depth : Nat) (h : Handle) :
    g.locateBelow target free (depth + 1) (.container h) =
      if h ∈ free then
        (g.read h).entries.flatMap (g.locateAt target (free.erase h) depth)
      else [] := by
  rw [locateBelow]
  simp only [Value.handle?, Nat.zero_lt_succ, and_true, Nat.add_sub_cancel,
    locateAmong_eq_flatMap]
  rfl

theorem locateBelow_scalar {node : Value} (hnode : node.handle? = none) (free : List Handle)
    (depth : Nat) : g.locateBelow target free depth node = [] := by
  rw [locateBelow, hnode]

theorem locateBelow_zero (free : List Handle) (node : Value) :
    g.locateBelow target free 0 node = [] := by
  rw [locateBelow]
  split <;> simp

theorem mem_locateAt_iff {free : List Handle} {depth : Nat} {key : String} {v : Value}
    {keys : List String} :
    keys ∈ g.locateAt target free depth (key, v) ↔
      (g.Matches target v ∧ keys = [key]) ∨
      (¬ g.Matches target v ∧
        ∃ rest ∈ g.locateBelow target free depth v, keys = key :: rest) := by
  unfold locateAt
  cases hv : target.isTarget v with
  | true =>
    have hmatch : g.Matches target v := isTarget_iff.mp hv
    simp [hmatch]
  | false =>
    have hmatch : ¬ g.Matches target v := isTarget_eq_false_iff.mp hv
    simp [hmatch, eq_comm]

/-! ## The search finds the occurrences -/

/-- One step in front of an occurrence, out of a container not entered behind it. -/
theorem Occurrence.cons {h : Handle} {key : String} {v node : Value} {depth : Nat}
    {steps : List (Handle × String)} (ho : g.Occurrence target v depth steps node)
    (hentry : (key, v) ∈ (g.read h).entries) (hfresh : h ∉ steps.map Prod.fst)
    (hv : ¬ g.Matches target v) :
    g.Occurrence target (.container h) (depth + 1) ((h, key) :: steps) node where
  descent := .step hentry ho.descent
  nonempty := List.cons_ne_nil _ _
  short := Nat.succ_le_succ ho.short
  distinct := List.nodup_cons.mpr ⟨hfresh, ho.distinct⟩
  unmatched := by
    show ∀ k ∈ steps.map Prod.fst, ¬ g.Matches target (.container k)
    have hunmatched := ho.unmatched
    cases ho.descent with
    | stop => exact nofun
    | step =>
      intro k hk
      rcases List.mem_cons.mp hk with rfl | hk
      · exact hv
      · exact hunmatched k hk
  hit := ho.hit

/-- **What the search below a node finds**: the occurrences that leave free containers only. -/
theorem mem_locateBelow_iff {free : List Handle} (hfree : free.Nodup) {depth : Nat} {node : Value}
    {keys : List String} :
    keys ∈ g.locateBelow target free depth node ↔
      ∃ steps v, g.Occurrence target node depth steps v ∧
        (∀ h ∈ steps.map Prod.fst, h ∈ free) ∧ steps.map Prod.snd = keys := by
  -- each step spends one of the depth and one free container, so both vary in the induction
  induction depth generalizing free node keys with
  | zero =>
    rw [locateBelow_zero]
    refine ⟨nofun, ?_⟩
    rintro ⟨steps, v, ho, -, -⟩
    exact absurd (List.eq_nil_of_length_eq_zero (Nat.le_zero.mp ho.short)) ho.nonempty
  | succ depth ih =>
    constructor
    · intro hkeys
      cases node with
      | container h =>
        rw [locateBelow_container] at hkeys
        split at hkeys
        · rename_i hh
          obtain ⟨⟨key, v⟩, hentry, hkeys⟩ := List.mem_flatMap.mp hkeys
          rcases mem_locateAt_iff.mp hkeys with ⟨hv, rfl⟩ | ⟨hv, rest, hrest, rfl⟩
          · -- the entry matches, and the search goes no further
            refine ⟨[(h, key)], v, ⟨.step hentry (.stop v), by simp, by simp, by simp, nofun, hv⟩,
              ?_, rfl⟩
            simpa using hh
          · obtain ⟨steps, node, ho, hsteps, rfl⟩ := (ih (hfree.erase h)).mp hrest
            have hfresh : h ∉ steps.map Prod.fst := fun hmem =>
              (hfree.mem_erase_iff.mp (hsteps h hmem)).1 rfl
            refine ⟨(h, key) :: steps, node, ho.cons hentry hfresh hv, ?_, rfl⟩
            intro k hk
            rcases List.mem_cons.mp hk with rfl | hk
            · exact hh
            · exact List.mem_of_mem_erase (hsteps k hk)
        · cases hkeys
      | _ =>
        rw [locateBelow_scalar rfl] at hkeys
        cases hkeys
    · rintro ⟨steps, w, ho, hsteps, rfl⟩
      cases hd : ho.descent with
      | stop => exact absurd rfl ho.nonempty
      | @step h key v _ steps hentry hrest =>
        have hdistinct := List.nodup_cons.mp ho.distinct
        rw [locateBelow_container, if_pos (hsteps h List.mem_cons_self)]
        refine List.mem_flatMap.mpr ⟨(key, v), hentry, mem_locateAt_iff.mpr ?_⟩
        cases hrest' : hrest with
        | stop => exact Or.inl ⟨ho.hit, rfl⟩
        | @step k key' v' _ steps hentry' hrest'' =>
          -- the descent goes on, so `v` is a container behind the root and no match
          refine Or.inr ⟨ho.unmatched k List.mem_cons_self, _, ?_, rfl⟩
          refine (ih (hfree.erase h)).mpr ⟨_, w, ?_, ?_, rfl⟩
          · exact ⟨hrest, List.cons_ne_nil _ _, Nat.le_of_succ_le_succ ho.short, hdistinct.2,
              fun j hj => ho.unmatched j (List.mem_cons_of_mem _ hj), ho.hit⟩
          · intro j hj
            refine hfree.mem_erase_iff.mpr ⟨?_, hsteps j (List.mem_cons_of_mem _ hj)⟩
            rintro rfl
            exact hdistinct.1 hj

theorem handles_nodup : g.handles.Nodup := List.nodup_range

/-- **What the search finds**: all occurrences. -/
theorem mem_locateAll_iff {maxDepth : Nat} {root : Value} {keys : List String} :
    keys ∈ g.locateAll target maxDepth root ↔ g.OccursAt target root maxDepth keys := by
  rw [locateAll, mem_locateBelow_iff handles_nodup]
  constructor
  · rintro ⟨steps, node, ho, -, hkeys⟩
    exact ⟨steps, node, ho, hkeys⟩
  · rintro ⟨steps, node, ho, hkeys⟩
    exact ⟨steps, node, ho, fun h hh => List.mem_range.mpr (ho.descent.lt_size h hh), hkeys⟩

/-! ## In the order of reading -/

/-- A key path that begins with one entry is before one that begins with a later entry. -/
theorem before_of_sublist {h : Handle} {entry entry' : String × Value} {free : List Handle}
    {depth : Nat} (hsub : [entry, entry'].Sublist (g.read h).entries) :
    ∀ keys ∈ g.locateAt target free depth entry, ∀ keys' ∈ g.locateAt target free depth entry',
      g.Before (.container h) keys keys' := by
  have hhead : ∀ (entry : String × Value), ∀ keys ∈ g.locateAt target free depth entry,
      ∃ rest, keys = entry.1 :: rest := by
    intro entry keys hkeys
    rcases mem_locateAt_iff.mp hkeys with ⟨-, rfl⟩ | ⟨-, rest, -, rfl⟩
    · exact ⟨[], rfl⟩
    · exact ⟨rest, rfl⟩
  intro keys hkeys keys' hkeys'
  obtain ⟨rest, rfl⟩ := hhead entry keys hkeys
  obtain ⟨rest', rfl⟩ := hhead entry' keys' hkeys'
  refine ⟨[], .container h, entry.1, entry'.1, rest, rest', .stop _, rfl, rfl, ?_⟩
  rw [← map_fst_children]
  exact hsub.map Prod.fst

/-- **The key paths found below a node stand in the order of reading.** -/
theorem pairwise_locateBelow (free : List Handle) (depth : Nat) (node : Value) :
    (g.locateBelow target free depth node).Pairwise (g.Before node) := by
  induction depth generalizing free node with
  | zero =>
    rw [locateBelow_zero]
    exact .nil
  | succ depth ih =>
    cases node with
    | container h =>
      rw [locateBelow_container]
      split
      · rw [List.pairwise_flatMap]
        constructor
        · rintro ⟨key, v⟩ hentry
          unfold locateAt
          split
          · exact List.pairwise_singleton _ _
          · exact List.pairwise_map.mpr ((ih (free.erase h) v).imp fun hb => hb.below hentry)
        · exact List.pairwise_iff_forall_sublist.mpr before_of_sublist
      · exact .nil
    | _ =>
      rw [locateBelow_scalar rfl]
      exact .nil

/-! ## The first occurrence -/

theorem locateFirstAmong_eq_head? {free : List Handle} {depth : Nat}
    (hbelow : ∀ v, g.locateFirstBelow target free depth v =
      (g.locateBelow target free depth v).head?) (entries : List (String × Value)) :
    g.locateFirstAmong target free depth entries =
      (g.locateAmong target free depth entries).head? := by
  induction entries with
  | nil => rw [locateFirstAmong, locateAmong]; rfl
  | cons entry rest ih =>
    obtain ⟨key, v⟩ := entry
    rw [locateFirstAmong, locateAmong, hbelow, ih]
    split
    · rfl
    · rw [List.head?_append, List.head?_map]
      cases (g.locateBelow target free depth v).head? <;> rfl

/-- **The search for one occurrence stops at the first of all.** -/
theorem locateFirstBelow_eq_head? (free : List Handle) (depth : Nat) (node : Value) :
    g.locateFirstBelow target free depth node =
      (g.locateBelow target free depth node).head? := by
  induction depth generalizing free node with
  | zero =>
    rw [locateFirstBelow, locateBelow]
    split
    · rfl
    · rw [if_neg (by simp), if_neg (by simp)]
      rfl
  | succ depth ih =>
    rw [locateFirstBelow, locateBelow]
    split
    · rfl
    · split
      · exact locateFirstAmong_eq_head? (fun v => ih _ v) _
      · rfl

/-! ## What is answered -/

/-- **Finding a value lists its occurrences**: the key paths of all of them, as texts with the keys
escaped and the separator between them, in the order of reading and none twice; or the first of
them alone. -/
theorem find?_lists_occurrences (g : Graph) (grammar : Grammar) (maxDepth : Nat)
    (root target : Value) :
    let escaped (key : String) : String := String.ofList (key.toList.flatMap fun c =>
      if c ∈ grammar.escapedChars then ['\\', c] else [c])
    let path (keys : List String) : String :=
      (String.singleton grammar.propertySeparator).intercalate (keys.map escaped)
    ∃ found : List (List String),
      (∀ keys, keys ∈ found ↔ g.OccursAt target root maxDepth keys) ∧
      found.Pairwise (g.Before root) ∧ found.Nodup ∧
      g.find? grammar maxDepth root target .many =
        (if found = [] then none else some (found.map path)) ∧
      g.find? grammar maxDepth root target .one = found.head?.map fun keys => [path keys] := by
  intro escaped path
  have hescaped : grammar.escape = escaped := by
    funext key
    simp only [Grammar.escape, Grammar.escapeChars, List.contains_iff_mem]
    rfl
  have hpath : grammar.pathOfKeys = path := by
    funext keys
    rw [Grammar.pathOfKeys, hescaped]
    rfl
  have horder : (g.locateAll target maxDepth root).Pairwise (g.Before root) :=
    pairwise_locateBelow g.handles maxDepth root
  refine ⟨g.locateAll target maxDepth root, fun keys => mem_locateAll_iff, horder,
    horder.imp Before.ne, ?_, ?_⟩
  · simp only [find?, List.isEmpty_iff, hpath]
  · simp only [find?, locateFirst, locateFirstBelow_eq_head?, hpath]
    show _ = (g.locateBelow target g.handles maxDepth root).head?.map _
    cases (g.locateBelow target g.handles maxDepth root).head? <;> rfl

end GraphPath.Graph
