import GraphPath.Proofs.Resolve.KeyStep

/-! # Writing at the end of a row of keys

A write along literal keys changes one container (`resolveTokens_words_write`).
Where all keys but the last are there, it fills a slot of the container that they
lead to (`Graph.SlotWritten`).  Where one is missing and maps may be made, it gives
that key a chain of new maps (`Graph.ChainPlanted`).  Anything else that a key may
stand for leads to a value that is no container, and from there a write cannot
succeed (`Flat.isContainer_of_follow`).

What was written is read again along the same keys if the way there does not pass
the changed container before its end (`Graph.ChangesOnly.valueAt?_eq`).
-/

namespace GraphPath

/-! ## Rows of keys -/

namespace Flat
variable {setup : Setup} {g g' : Graph} {target v w : Value} {key : String} {keys rest : List String}

/-- The last step writes. -/
theorem follow_last (setup : Setup) (v target : Value) (key : String) :
    follow setup (some v) target [key] = Step.writeKey target key v := by
  show (Step.writeKey target key v >>= pure) = _
  exact bind_pure _

/-- The other steps look for a way. -/
theorem follow_cons (hrest : rest ≠ []) (setup : Setup) (v target : Value) (key : String) :
    follow setup (some v) target (key :: rest) =
      Step.byKey target key none setup.autoVivify >>= fun w => follow setup (some v) w rest := by
  rw [follow, List.isEmpty_eq_false_iff.mpr hrest]
  simp

/-- **There is no way to a write through a value that is no container.** -/
theorem isContainer_of_follow (hne : keys ≠ [])
    (hok : follow setup (some v) target keys g = .ok w g') : target.isContainer = true := by
  induction keys generalizing target g with
  | nil => exact absurd rfl hne
  | cons key rest ih =>
    by_cases hrest : rest = []
    · subst hrest
      rw [follow_last] at hok
      obtain ⟨-, h, cell, rfl, -⟩ := Step.writeKey_eq_ok hok
      rfl
    · rw [follow_cons hrest] at hok
      obtain ⟨next, g₁, hstep, hok⟩ := exists_of_bind_ok hok
      have hnext := ih hrest hok
      rcases Step.byKey_cases hstep with ⟨hkey, -⟩ | ⟨-, -, hcontainer, -⟩ | ⟨-, -, hscalar, -⟩
      · cases target with
        | container h => rfl
        | _ => cases hkey
      · exact hcontainer
      · exact absurd (hnext.symm.trans hscalar) (by decide)

/-- **From an empty map a write makes its own way**, a chain of new maps behind this one. -/
theorem follow_of_empty (hvivify : setup.autoVivify = true) (hne : keys ≠ []) {h : Nat}
    (hlast : g.cells.size = h + 1) (hempty : g.read h = .map .empty) :
    ∃ g', follow setup (some v) (.container h) keys g = .ok v g' ∧
      g.cells.size ≤ g'.cells.size ∧ (∀ k < h, g'.read k = g.read k) ∧
      g'.Chain h (.container h) keys v := by
  have hlt : h < g.cells.size := by omega
  have hset : ∀ (key : String) (v : Value),
      (g.read h).set key v = .ok (.map (OrderedMap.empty.insert key v)) := fun key v => by
    rw [hempty]
    rfl
  induction keys generalizing g h with
  | nil => exact absurd rfl hne
  | cons key rest ih =>
    by_cases hrest : rest = []
    · subst hrest
      rw [follow_last, Step.writeKey_of_set hlt (hset key v)]
      refine ⟨_, rfl, Nat.le_of_eq (g.size_write h _).symm,
        fun k hk => g.read_write_of_ne (Nat.ne_of_lt hk) _, ?_⟩
      exact .link (Nat.le_refl h) (by rwa [g.size_write]) (g.read_write_self hlt _) rfl (.done _ v)
    · have hkey : g.getKey? (.container h) key = none := by
        rw [Graph.getKey?, hempty]
        rfl
      obtain ⟨g₁, hstep⟩ : ∃ g₁, Step.vivifyKey (.container h) key g =
          .ok (.container g.cells.size) g₁ :=
        ⟨_, (Step.vivifyKey_eq_ok_iff hlt).mpr ⟨rfl, _, hset key _, rfl⟩⟩
      obtain ⟨-, hsize, hfresh, hslot, hothers⟩ := Step.vivifyKey_eq_ok hlt hstep
      obtain ⟨g', hok, hle, hframe, hchain⟩ := ih hrest hsize hfresh (by omega) fun key v => by
        rw [hfresh]
        rfl
      refine ⟨g', ?_, by omega, fun k hk => ?_, ?_⟩
      · rw [follow_cons hrest, hvivify]
        exact (bind_of_ok ((Step.byKey_of_none hkey).symm ▸ hstep)).trans hok
      · exact (hframe k (by omega)).trans (hothers k (by omega) (Nat.ne_of_lt hk))
      · have hread : g'.read h = .map (OrderedMap.empty.insert key (.container g.cells.size)) :=
          (hframe h hlt).trans (Except.ok.inj (hslot.symm.trans (hset key _)))
        have hlt' : h < g'.cells.size := by omega
        exact .link (Nat.le_refl h) hlt' hread rfl (hlast ▸ hchain)

end Flat

/-! ## What a write leaves behind -/

namespace Graph
variable {g g' : Graph} {root fresh v : Value} {front done rest : List String} {last key : String}
  {h : Handle}

/-- **A write where all intermediate keys are there** has filled one slot of the container that
they lead to. -/
structure SlotWritten (g : Graph) (root : Value) (front : List String) (last : String) (v : Value)
    (h : Handle) (g' : Graph) : Prop where
  /-- The intermediate keys lead to the container. -/
  reached : g.valueAt? root front = some (.container h)
  /-- There are no new containers. -/
  size_eq : g'.cells.size = g.cells.size
  /-- The slot under the last key has the value. -/
  only : g.ChangesOnly h (Cell.Fills last v) g'

/-- **A write that has put maps where keys were missing**, from the first missing key on. -/
structure ChainPlanted (g : Graph) (root : Value) (done : List String) (key : String)
    (rest : List String) (v : Value) (h : Handle) (fresh : Value) (g' : Graph) : Prop where
  /-- The keys before the missing one lead to a container. -/
  reached : g.valueAt? root done = some (.container h)
  /-- It did not have the missing key. -/
  absent : g.getKey? (.container h) key = none
  /-- It has it now, behind all others. -/
  only : g.ChangesOnly h (Cell.Appends key fresh) g'
  /-- From there new maps lead to the value. -/
  chain : g'.Chain g.cells.size fresh rest v

theorem ChainPlanted.cons (hplanted : g.ChainPlanted w done key rest v h fresh g') {first : String}
    (hfirst : g.getKey? root first = some w) :
    g.ChainPlanted root (first :: done) key rest v h fresh g' :=
  { hplanted with reached := (valueAt?_cons hfirst done).trans hplanted.reached }

/-- The first key that is missing ends the reading. -/
theorem ChainPlanted.valueAt?_eq_none (hplanted : g.ChainPlanted root done key rest v h fresh g')
    (rest' : List String) : g.valueAt? root (done ++ key :: rest') = none := by
  rw [valueAt?_append, hplanted.reached, Option.bind_some, valueAt?_cons_of_none hplanted.absent]

/-- **The way to a changed container is as before**, if it is not passed on the way. -/
theorem ChangesOnly.valueAt?_eq {change : Cell → Cell → Prop} (hchange : g.ChangesOnly h change g')
    (hg : g.Closed) (hroot : g.Holds root) (hreached : g.valueAt? root done = some (.container h))
    (hdistinct : (g.visited root (done ++ key :: rest)).Nodup) :
    g'.valueAt? root done = some (.container h) := by
  rw [visited_append hreached, visited] at hdistinct
  have hpassed : Value.container h ∉ g.visited root done := fun hmem =>
    (List.nodup_append.mp hdistinct).2.2 _ hmem _ List.mem_cons_self rfl
  rw [valueAt?_of_visited fun w hw => ?_, hreached]
  exact hchange.getKey?_of_ne (hg.holds_of_mem_visited hroot hw) fun heq => hpassed (heq ▸ hw)

theorem SlotWritten.valueAt? (hwritten : g.SlotWritten root front last v h g') (hg : g.Closed)
    (hroot : g.Holds root) (hdistinct : (g.visited root (front ++ [last])).Nodup) :
    g'.valueAt? root (front ++ [last]) = some v := by
  have hslot : g'.getKey? (.container h) last = some v := hwritten.only.changed.get?
  rw [valueAt?_append, hwritten.only.valueAt?_eq hg hroot hwritten.reached hdistinct,
    Option.bind_some, valueAt?_cons hslot, valueAt?_nil]

theorem ChainPlanted.valueAt? (hplanted : g.ChainPlanted root done key rest v h fresh g')
    (hg : g.Closed) (hroot : g.Holds root)
    (hdistinct : (g.visited root (done ++ key :: rest)).Nodup) :
    g'.valueAt? root (done ++ key :: rest) = some v := by
  have hslot : g'.getKey? (.container h) key = some fresh := hplanted.only.changed.get?
  rw [valueAt?_append, hplanted.only.valueAt?_eq hg hroot hplanted.reached hdistinct,
    Option.bind_some, valueAt?_cons hslot, hplanted.chain.valueAt?]

end Graph

/-! ## Writes -/

namespace Flat
variable {setup : Setup} {g g' : Graph} {root v w : Value} {front : List String} {last : String}

/-- **A write has filled one slot, or planted one chain.** -/
theorem follow_write (hg : g.Closed) (hroot : g.Holds root)
    (hok : follow setup (some v) root (front ++ [last]) g = .ok w g') :
    w = v ∧ ((∃ h, g.SlotWritten root front last v h g') ∨
      setup.autoVivify = true ∧ ∃ done key rest h fresh, front = done ++ key :: rest ∧
        g.ChainPlanted root done key (rest ++ [last]) v h fresh g') := by
  induction front generalizing root with
  | nil =>
    rw [List.nil_append, follow_last] at hok
    obtain ⟨rfl, h, cell, rfl, hlt, hset, rfl⟩ := Step.writeKey_eq_ok hok
    exact ⟨rfl, Or.inl ⟨h, rfl, g.size_write h cell,
      Graph.changesOnly_write hlt (Cell.fills_of_set hset)⟩⟩
  | cons key front ih =>
    have hrest : front ++ [last] ≠ [] := List.append_ne_nil_of_right_ne_nil _ (List.cons_ne_nil _ _)
    rw [List.cons_append, follow_cons hrest] at hok
    obtain ⟨next, g₁, hstep, hnext⟩ := exists_of_bind_ok hok
    rcases Step.byKey_cases hstep with ⟨hkey, rfl⟩ | ⟨hkey, hvivify, hcontainer, hmade⟩ |
      ⟨-, -, hscalar, -⟩
    · -- the key is there
      obtain ⟨rfl, hwritten | ⟨hvivify, done, key', rest, h, fresh, rfl, hplanted⟩⟩ :=
        ih (hg.holds_of_getKey? hkey) hnext
      · obtain ⟨h, hwritten⟩ := hwritten
        exact ⟨rfl, Or.inl ⟨h, (Graph.valueAt?_cons hkey _).trans hwritten.reached,
          hwritten.size_eq, hwritten.only⟩⟩
      · exact ⟨rfl, Or.inr ⟨hvivify, key :: done, key', rest, h, fresh, rfl, hplanted.cons hkey⟩⟩
    · -- it is missing, and a new map was made; the write goes on from there
      cases root with
      | container h =>
        obtain ⟨rfl, hsize, hfresh, hslot, hothers⟩ := Step.vivifyKey_eq_ok hroot hmade
        obtain ⟨g₂, hok₂, hle, hframe, hchain⟩ := follow_of_empty (v := v) hvivify hrest hsize hfresh
        cases hok₂.symm.trans hnext
        refine ⟨rfl, Or.inr ⟨hvivify, [], key, front, h, _, rfl, rfl, hkey, ?_, hchain⟩⟩
        refine ⟨hroot, by omega, ?_, fun k hk hne => (hframe k hk).trans (hothers k hk hne)⟩
        rw [hframe h hroot]
        exact Cell.appends_of_set hkey hslot
      | _ => cases hcontainer
    · exact absurd ((isContainer_of_follow hrest hnext).symm.trans hscalar) (by decide)

/-- **A write keeps a graph closed** if the value is the graph's own. -/
theorem closed_of_follow (hg : g.Closed) (hroot : g.Holds root) (hv : g.Holds v) {keys : List String}
    (hne : keys ≠ []) (hok : follow setup (some v) root keys g = .ok w g') : g'.Closed := by
  induction keys generalizing root g with
  | nil => exact absurd rfl hne
  | cons key rest ih =>
    by_cases hrest : rest = []
    · subst hrest
      rw [follow_last] at hok
      exact Step.closed_of_writeKey hg hv hok
    · rw [follow_cons hrest] at hok
      obtain ⟨next, g₁, hstep, hnext⟩ := exists_of_bind_ok hok
      rcases Step.byKey_cases hstep with ⟨hkey, rfl⟩ | ⟨-, -, hcontainer, hmade⟩ | ⟨-, -, hscalar, -⟩
      · exact ih hg (hg.holds_of_getKey? hkey) hv hrest hnext
      · cases root with
        | container h =>
          obtain ⟨-, hsize, -⟩ := Step.vivifyKey_eq_ok hroot hmade
          obtain ⟨hclosed, hholds⟩ := Step.closed_of_vivifyKey hg hroot hmade
          exact ih hclosed hholds (hv.mono (by omega)) hrest hnext
        | _ => cases hcontainer
      · exact absurd ((isContainer_of_follow hrest hnext).symm.trans hscalar) (by decide)

/-- Reading follows the keys and changes nothing. -/
theorem follow_of_valueAt? {keys : List String} (hkeys : g.valueAt? root keys = some v)
    (setup : Setup) : follow setup none root keys g = .ok v g := by
  induction keys generalizing root with
  | nil =>
    cases hkeys
    rfl
  | cons key rest ih =>
    cases hkey : g.getKey? root key with
    | none =>
      rw [Graph.valueAt?_cons_of_none hkey] at hkeys
      cases hkeys
    | some next =>
      rw [Graph.valueAt?_cons hkey] at hkeys
      rw [follow_cons_of_getKey? hkey]
      exact ih hkeys

end Flat

section
variable {ε : Type} {setup : Setup} {world world' : World ε} {root v w : Value}
  {front : List String} {last : String}

/-- **A write along literal keys changes one slot, and reads back.**  If it succeeds, then

* where no intermediate key is missing, or no maps may be made, it has filled the slot of the last
  key in the container that the others lead to, and changed nothing else;
* otherwise it has given the first missing key a chain of new maps that ends in the value, and
  changed no other container that was there before;
* reading along the same keys gives the value, if the containers passed were distinct;
* the document is closed again, if the value is its own. -/
theorem resolveTokens_words_write (host : Host ε) (hclosed : world.graph.Closed)
    (hroot : world.graph.Holds root)
    (hwrite : resolveTokens host setup root ((front ++ [last]).map .word) (some v) world =
      .ok w world') :
    w = v ∧ world'.host = world.host ∧
      (setup.autoVivify = false ∨ (world.graph.valueAt? root front).isSome = true →
        ∃ h, world.graph.SlotWritten root front last v h world'.graph) ∧
      (setup.autoVivify = true → world.graph.valueAt? root front = none →
        ∃ done key rest h fresh, front = done ++ key :: rest ∧
          world.graph.ChainPlanted root done key (rest ++ [last]) v h fresh world'.graph) ∧
      ((world.graph.visited root (front ++ [last])).Nodup → ∀ reader : Setup,
        resolveTokens host reader root ((front ++ [last]).map .word) none world' =
          .ok v world') ∧
      (world.graph.Holds v → world'.graph.Closed) := by
  have hne : front ++ [last] ≠ [] := List.append_ne_nil_of_right_ne_nil _ (List.cons_ne_nil _ _)
  rw [resolveTokens_words host setup hne] at hwrite
  obtain ⟨graph, hfollow, rfl⟩ := Edit.exists_of_run_ok hwrite
  have hread : graph.valueAt? root (front ++ [last]) = some v → ∀ reader : Setup,
      resolveTokens host reader root ((front ++ [last]).map .word) none { world with graph } =
        .ok v { world with graph } := fun hvalue reader => by
    rw [resolveTokens_words host reader hne]
    exact Edit.run_of_ok (Flat.follow_of_valueAt? hvalue reader)
  have hstays : world.graph.Holds v → graph.Closed := fun hv =>
    Flat.closed_of_follow hclosed hroot hv hne hfollow
  obtain ⟨rfl, ⟨h, hwritten⟩ | ⟨hvivify, done, key, rest, h, fresh, rfl, hplanted⟩⟩ :=
    Flat.follow_write hclosed hroot hfollow
  · refine ⟨rfl, rfl, fun _ => ⟨h, hwritten⟩, fun _ hnone => ?_, fun hdistinct =>
      hread (hwritten.valueAt? hclosed hroot hdistinct), hstays⟩
    exact absurd (hwritten.reached.symm.trans hnone) (by simp)
  · have hnone := hplanted.valueAt?_eq_none rest
    refine ⟨rfl, rfl, fun hin => ?_, fun _ _ => ⟨done, key, rest, h, fresh, rfl, hplanted⟩,
      fun hdistinct => ?_, hstays⟩
    · rw [hvivify, hnone] at hin
      simp at hin
    · rw [List.append_assoc, List.cons_append] at hread hdistinct
      rw [List.append_assoc, List.cons_append]
      exact hread (hplanted.valueAt? hclosed hroot hdistinct)

/-- A write of two keys into an empty map makes the map between them, and is read back. -/
theorem resolveTokens_words_write_of_empty :
    let world : World Unit := ⟨{ cells := #[.map .empty] }, ()⟩
    let tokens : List Token := ["a", "b"].map .word
    ∃ world', resolveTokens Host.none { autoVivify := true, maxDepth := 256 } (.container 0) tokens
        (some (.boolean true)) world = .ok (.boolean true) world' ∧
      ∀ reader : Setup, resolveTokens Host.none reader (.container 0) tokens none world' =
        .ok (.boolean true) world' := by
  intro world tokens
  have hclosed : world.graph.Closed := (Graph.closed_empty.addJson (.object [])).closed
  have hroot : world.graph.Holds (.container 0) := Nat.zero_lt_one
  obtain ⟨graph, hfollow⟩ : ∃ graph, Flat.follow ⟨[], true, 256⟩ (some (.boolean true))
      (.container 0) ["a", "b"] world.graph = .ok (.boolean true) graph :=
    (Flat.follow_of_empty rfl (List.cons_ne_nil _ _) rfl rfl).imp fun _ h => h.1
  have hwrite : resolveTokens Host.none ⟨[], true, 256⟩ (.container 0) ((["a"] ++ ["b"]).map .word)
      (some (.boolean true)) world = .ok (.boolean true) { world with graph } := by
    have hne : ["a"] ++ ["b"] ≠ [] := List.cons_ne_nil _ _
    rw [resolveTokens_words _ _ hne]
    exact Edit.run_of_ok hfollow
  have hdistinct : (world.graph.visited (.container 0) (["a"] ++ ["b"])).Nodup :=
    List.pairwise_singleton _ _
  exact ⟨_, hwrite,
    (resolveTokens_words_write Host.none hclosed hroot hwrite).2.2.2.2.1 hdistinct⟩

end

end GraphPath
