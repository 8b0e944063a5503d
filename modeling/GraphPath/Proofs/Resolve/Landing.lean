import GraphPath.Proofs.Resolve.Growth
import GraphPath.Proofs.Resolve.Region

/-! # Where a write lands

The last step of a write assigns into whatever value the steps before it have come to.
That value comes from the document or from an argument if none of them has made a list
of its own.  Patterns and collections do: a write behind one of them may assign into the
list of what was found, and nobody sees it (`write_behind_pattern_is_unseen`).

There is no other way to miss the document.  **The container that a write assigns into
can be reached, when the write is over, from the root or from an argument, unless it is
a new one, inside a list that a step on the way has made**
(`resolveTokens_write_lands`).

The proof is about the region of what can be found from the root and the arguments
(`reachRegion`).  On the way to a write graphs only grow (`Graph.Extends`): a map that
is made stands under a key that was free, and nothing else is assigned before the end.
-/

namespace GraphPath

namespace Graph
variable {g g' : Graph} {sources : List Value} {bound : Nat} {lists : Prop} {v w : Value}

/-! ## Lists made on the way -/

/-- **A list that is new**: none of the first `bound` containers. -/
def NewList (g : Graph) (bound : Nat) (v : Value) : Prop :=
  ∃ h items, v = .container h ∧ bound ≤ h ∧ h < g.cells.size ∧ g.read h = .list items

theorem Extends.newList (hext : g.Extends g') (hv : g.NewList bound v) : g'.NewList bound v := by
  obtain ⟨h, items, rfl, hbound, hlt, hread⟩ := hv
  obtain ⟨items', hread'⟩ := hext.list h hlt items hread
  exact ⟨h, items', rfl, hbound, Nat.lt_of_lt_of_le hlt hext.size_le, hread'⟩

/-! ## Regions of what can be reached -/

/-- **The caller's or new**: no container, or one that can be reached from the sources or is none of
the first `bound`. -/
def Accounted (g : Graph) (sources : List Value) (bound : Nat) (v : Value) : Prop :=
  ∀ h, v = .container h → bound ≤ h ∨ ∃ s ∈ sources, g.Reaches s v

/-- **What can be found from the sources**, and, if lists count, from new lists. -/
structure Found (g : Graph) (sources : List Value) (bound : Nat) (lists : Prop) (v : Value) :
    Prop where
  /-- It is a value of the graph. -/
  holds : g.Holds v
  /-- It is the caller's or new. -/
  accounted : g.Accounted sources bound v
  /-- It can be reached. -/
  reached : v.isContainer = true →
    ∃ s, (s ∈ sources ∨ lists ∧ g.NewList bound s) ∧ g.Reaches s v

theorem Accounted.mono (hext : g.Extends g') (hv : g.Accounted sources bound v) :
    g'.Accounted sources bound v := by
  intro h hh
  refine (hv h hh).imp_right ?_
  rintro ⟨s, hs, hreach⟩
  exact ⟨s, hs, hreach.mono hext.inside⟩

theorem Found.mono (hext : g.Extends g') (hv : g.Found sources bound lists v) :
    g'.Found sources bound lists v where
  holds := hv.holds.mono hext.size_le
  accounted := hv.accounted.mono hext
  reached hcontainer := by
    obtain ⟨s, hs, hreach⟩ := hv.reached hcontainer
    exact ⟨s, hs.imp_right (And.imp_right hext.newList), hreach.mono hext.inside⟩

end Graph

/-- **The region of what can be found.**  What is inside of containers that are new is the caller's
or new, too. -/
def reachRegion (sources : List Value) (bound : Nat) (lists : Prop) : Region where
  inv g := g.Closed ∧ bound ≤ g.cells.size ∧
    ∀ h w, bound ≤ h → g.Inside (.container h) w → g.Accounted sources bound w
  within g v := g.Found sources bound lists v
  made g v := g.NewList bound v ∧ ∀ w, g.Inside v w → g.Found sources bound lists w

section
variable {g g' : Graph} {sources : List Value} {bound : Nat} {lists : Prop} {v w : Value}

/-- Growing keeps what holds of the graph if all that is put inside is the caller's or new. -/
theorem inv_of_extends (hinv : (reachRegion sources bound lists).inv g) (hext : g.Extends g')
    (honly : ∀ v w, g'.Inside v w → g.Inside v w ∨ g'.Accounted sources bound w) :
    (reachRegion sources bound lists).inv g' :=
  ⟨hext.closed, Nat.le_trans hinv.2.1 hext.size_le, fun h w hbound hin =>
    (honly _ w hin).elim (fun hin => (hinv.2.2 h w hbound hin).mono hext) id⟩

/-- Growing that puts nothing inside old values keeps the region. -/
theorem kept_of_extends (hinv : (reachRegion sources bound lists).inv g) (hext : g.Extends g')
    (honly : ∀ v w, g'.Inside v w → g.Inside v w ∨ g'.Accounted sources bound w)
    (hold : ∀ v w, g.Holds v → g'.Inside v w → g.Inside v w) :
    (reachRegion sources bound lists).Kept g g' where
  inv := inv_of_extends hinv hext honly
  within _ hv := hv.mono hext
  made v hv := by
    obtain ⟨hlist, hinside⟩ := hv
    refine ⟨hext.newList hlist, fun w hin => ?_⟩
    have hholds : g.Holds v := by
      obtain ⟨h, items, rfl, -, hlt, -⟩ := hlist
      exact hlt
    exact (hinside w (hold v w hholds hin)).mono hext

/-- **No reading leads out of what can be found.** -/
theorem reachRegion_lawful : (reachRegion sources bound lists).Lawful where
  scalar hscalar := by
    refine ⟨Graph.holds_of_scalar hscalar, fun h hh => ?_, fun htrue => ?_⟩
    · rw [hh] at hscalar
      cases hscalar
    · exact absurd (htrue.symm.trans hscalar) (by decide)
  inside := by
    intro g v w hinv hv hin
    rcases hv with hv | ⟨-, hv⟩
    · obtain ⟨h, rfl⟩ := hin.exists_handle
      refine ⟨hinv.1.holds_of_inside hin, ?_, fun _ => ?_⟩
      · rcases hv.accounted h rfl with hbound | ⟨s, hs, hreach⟩
        · exact hinv.2.2 h w hbound hin
        · exact fun _ _ => Or.inr ⟨s, hs, hreach.tail hin⟩
      · obtain ⟨s, hs, hreach⟩ := hv.reached rfl
        exact ⟨s, hs, hreach.tail hin⟩
    · exact hv w hin
  list := by
    rintro g v ⟨⟨h, items, rfl, -, -, hread⟩, -⟩
    right
    rw [Graph.items?, hread]
    rfl
  cells hinv hcells := kept_of_extends hinv (Graph.extends_of_cells hinv.1 hcells)
    (fun _ _ hin => Or.inl (hin.congr hcells.symm)) fun _ _ _ hin => hin.congr hcells.symm
  newList := by
    intro g items hinv hitems
    have hext := Graph.extends_alloc hinv.1 (.list items) fun v hv => (hitems v hv).holds
    have honly : ∀ v w, (g.newList items).2.Inside v w →
        g.Inside v w ∨ (g.newList items).2.Accounted sources bound w := fun v w hin =>
      (Graph.inside_alloc_iff.mp hin).imp_right fun hnew => (hitems w hnew.2).accounted.mono hext
    have hold : ∀ v w, g.Holds v → (g.newList items).2.Inside v w → g.Inside v w :=
      fun v w hv hin => by
        refine (Graph.inside_alloc_iff.mp hin).resolve_right fun hnew => ?_
        rw [hnew.1] at hv
        exact Nat.lt_irrefl _ hv
    have hkept : (reachRegion sources bound lists).Kept g (g.newList items).2 :=
      kept_of_extends hinv hext honly hold
    refine ⟨hkept, ⟨g.cells.size, items, rfl, hinv.2.1, g.lt_size_newList items,
      g.read_alloc_self _⟩, fun w hin => ?_⟩
    have hmem : w ∈ items := by
      have hin : (g.alloc (.list items)).2.Inside (.container g.cells.size) w := hin
      rw [Graph.inside_container_iff, g.read_alloc_self] at hin
      exact hin
    exact hkept.within w (hitems w hmem)

/-- Nor does a map that is made on the way. -/
theorem reachRegion_vivifies : (reachRegion sources bound lists).Vivifies := by
  intro g target key w g' hinv htarget hcontainer habsent hmade
  cases target with
  | container h =>
    have hlt : h < g.cells.size := htarget.holds
    obtain ⟨hext, hw, hin, hadds⟩ := Step.extends_of_vivifyKey hinv.1 hlt habsent hmade
    have hnew : g'.Accounted sources bound w := fun k hk => by
      cases hw.symm.trans hk
      exact Or.inl hinv.2.1
    have hinside : ∀ u x, g'.Inside u x → g.Inside u x ∨ g'.Accounted sources bound x :=
      fun u x hin => (hadds u x hin).imp_right fun ⟨_, (hx : x = w)⟩ => hx ▸ hnew
    refine ⟨inv_of_extends hinv hext hinside,
      fun v hv => hv.mono hext, hext.closed.holds_of_inside hin, hnew, fun _ => ?_⟩
    obtain ⟨s, hs, hreach⟩ := htarget.reached rfl
    exact ⟨s, hs.imp_right (And.imp_right hext.newList), (hreach.mono hext.inside).tail hin⟩
  | _ => cases hcontainer

/-- A list that was made can be found if lists count. -/
theorem within_of_made (hmade : (reachRegion sources bound True).made g v) :
    (reachRegion sources bound True).within g v := by
  obtain ⟨h, items, rfl, hbound, hlt, hread⟩ := hmade.1
  refine ⟨hlt, fun k hk => ?_, fun _ => ?_⟩
  · cases hk
    exact Or.inl hbound
  · exact ⟨_, Or.inr ⟨trivial, h, items, rfl, hbound, hlt, hread⟩, .refl _⟩

end

/-! ## Writes -/

section
variable {ε : Type} {host : Host ε} {setup : Setup} {world world' : World ε} {root v w : Value}
  {front : List Token} {key : String}

/-- The value that the way to a write comes to can be found from the root and the arguments, and
from lists made on the way, if they count. -/
theorem found_of_trailFrom (lists : Prop) {trail : Trail} {world₁ : World ε}
    (hclosed : world.graph.Closed) (hroot : world.graph.Holds root)
    (harguments : ∀ a ∈ setup.arguments, world.graph.Holds a)
    (hcalls : Token.allCallFree front = true)
    (hlist : (∀ token ∈ front, ¬ token.MakesList setup) ∨ lists)
    (htrail : trailFrom host setup ⟨root, []⟩ 0 front world = .ok trail world₁) :
    world₁.graph.Found (root :: setup.arguments) world.graph.cells.size lists trail.current := by
  have hlawful : (reachRegion (root :: setup.arguments) world.graph.cells.size lists).Lawful :=
    reachRegion_lawful
  have hsource : ∀ s ∈ root :: setup.arguments, world.graph.Holds s →
      world.graph.Found (root :: setup.arguments) world.graph.cells.size lists s :=
    fun s hs hholds => ⟨hholds, fun _ _ => Or.inr ⟨s, hs, .refl s⟩,
      fun _ => ⟨s, Or.inl hs, .refl s⟩⟩
  -- before the first step no container is new
  have hinv : (reachRegion (root :: setup.arguments) world.graph.cells.size lists).inv world.graph :=
    ⟨hclosed, Nat.le_refl _, fun h w hbound hin => absurd hin.lt_size (Nat.not_lt_of_le hbound)⟩
  obtain ⟨-, -, hwithin⟩ := Region.trailFrom_goes hlawful
    (fun _ => reachRegion_vivifies) front (Or.inl hcalls)
    (hlist.imp_right fun hlists g v hmade => by
      rw [eq_true hlists] at hmade ⊢
      exact within_of_made hmade)
    hinv
    (fun a ha => hsource a (List.mem_cons_of_mem _ ha) (harguments a ha))
    (fun s hs => by
      rw [List.mem_singleton.mp hs]
      exact hsource root List.mem_cons_self hroot)
    htrail
  exact hwithin _ trail.current_mem

/-- **A write assigns into a container that can be reached**, when it is over, from the root or from
an argument; or else into a new container, which can be reached from a list that was made on the
way.  If no step on the way makes a list, it is the first. -/
theorem resolveTokens_write_lands (hclosed : world.graph.Closed) (hroot : world.graph.Holds root)
    (harguments : ∀ a ∈ setup.arguments, world.graph.Holds a)
    (hcalls : Token.allCallFree front = true)
    (hwrite : resolveTokens host setup root (front ++ [.word key]) (some v) world = .ok w world') :
    ∃ trail world₁ h, trailFrom host setup ⟨root, []⟩ 0 front world = .ok trail world₁ ∧
      trail.current = .container h ∧ world₁.Assigned (.container h) key v world' ∧
      ((∃ s ∈ root :: setup.arguments, world'.graph.Reaches s (.container h)) ∨
        (∃ token ∈ front, token.MakesList setup) ∧ world.graph.cells.size ≤ h ∧
          ∃ s, world₁.graph.NewList world.graph.cells.size s ∧
            world'.graph.Reaches s (.container h)) := by
  obtain ⟨trail, trail', world₁, htrail, hstep⟩ := exists_of_resolveTokens_ok hwrite
  obtain ⟨-, graph, hkey, rfl⟩ := step_word_eq_ok hstep
  obtain ⟨-, h, cell, hcurrent, hlt, hset, rfl⟩ := Step.writeKey_eq_ok hkey
  refine ⟨trail, world₁, h, htrail, hcurrent, World.assigned_write hlt hset, ?_⟩
  by_cases hmakes : ∃ token ∈ front, token.MakesList setup
  · have hfound := found_of_trailFrom True hclosed hroot harguments hcalls (Or.inr trivial) htrail
    rw [hcurrent] at hfound
    obtain ⟨s, hs | ⟨-, hlist⟩, hreach⟩ := hfound.reached rfl
    · exact Or.inl ⟨s, hs, hreach.write_self cell⟩
    rcases hfound.accounted h rfl with hnew | ⟨s', hs', hreach'⟩
    · exact Or.inr ⟨hmakes, hnew, s, hlist, hreach.write_self cell⟩
    · exact Or.inl ⟨s', hs', hreach'.write_self cell⟩
  · have hnone : ∀ token ∈ front, ¬ token.MakesList setup := fun token htoken htrue =>
      hmakes ⟨token, htoken, htrue⟩
    have hfound := found_of_trailFrom False hclosed hroot harguments hcalls (Or.inl hnone) htrail
    rw [hcurrent] at hfound
    obtain ⟨s, hs, hreach⟩ := hfound.reached rfl
    exact Or.inl ⟨s, hs.resolve_right And.left, hreach.write_self cell⟩

end

/-- A write to a key that is the text of an argument, computed in the place where it is used. -/
theorem resolveTokens_write_lands_in_argument :
    let document := Graph.addJson {} (.object [("k", .string "inner")])
    let argument := document.2.addJson (.object [("inner", .object [])])
    let world : World Unit := ⟨argument.2, ()⟩
    let setup : Setup := { arguments := [argument.1], maxDepth := 256 }
    let front : List Token := [.modified "1" { context := 1 },
      .container .evalProperty [.modified "k" { root := 1 }]]
    world.graph.Closed ∧ world.graph.Holds document.1 ∧
      (∀ a ∈ setup.arguments, world.graph.Holds a) ∧ Token.allCallFree front = true ∧
      ∃ world', resolveTokens Host.none setup document.1 (front ++ [.word "x"])
          (some (.boolean true)) world = .ok (.boolean true) world' ∧
        ∃ trail world₁ h, trailFrom Host.none setup ⟨document.1, []⟩ 0 front world =
            .ok trail world₁ ∧
          world₁.Assigned (.container h) "x" (.boolean true) world' ∧
          ∃ s ∈ document.1 :: setup.arguments, world'.graph.Reaches s (.container h) := by
  intro document argument world setup front
  have hdocument := Graph.closed_empty.addJson (.object [("k", .string "inner")])
  have hargument := hdocument.closed.addJson (.object [("inner", .object [])])
  have hroot : world.graph.Holds document.1 :=
    (hdocument.holds _ List.mem_cons_self).mono hargument.size_le
  have harguments : ∀ a ∈ setup.arguments, world.graph.Holds a := hargument.holds
  have hcalls : Token.allCallFree front = true := by decide
  have hnone : ∀ token ∈ front, ¬ token.MakesList setup := by
    intro token htoken
    rcases List.mem_cons.mp htoken with rfl | htoken
    · rw [Token.MakesList]
      rintro ⟨g, key, hkey, hpattern⟩
      cases hkey
      exact absurd hpattern (by decide)
    · rw [List.mem_singleton.mp htoken, Token.MakesList]
      exact not_false
  obtain ⟨world', hwrite⟩ : ∃ world', resolveTokens Host.none setup document.1
      (front ++ [.word "x"]) (some (.boolean true)) world = .ok (.boolean true) world' := ⟨_, rfl⟩
  obtain ⟨trail, world₁, h, htrail, -, hassigned, hlands⟩ :=
    resolveTokens_write_lands hargument.closed hroot harguments hcalls hwrite
  refine ⟨hargument.closed, hroot, harguments, hcalls, world', hwrite, trail, world₁, h,
    htrail, hassigned, hlands.resolve_right ?_⟩
  rintro ⟨⟨token, htoken, hmakes⟩, -⟩
  exact hnone token htoken hmakes

/-- **A write behind a pattern is not seen**: it goes into the list of what the pattern found, to
which nothing leads from the root. -/
theorem write_behind_pattern_is_unseen :
    let fields : Cell := .map (.ofList [("a", .integer 1)])
    let world : World Unit := ⟨{ cells := #[fields] }, ()⟩
    let world' : World Unit := ⟨{ cells := #[fields, .list [.integer 2]] }, ()⟩
    let setup : Setup := { maxDepth := 256 }
    let front : List Token := [.modified "*" {}]
    world.graph.Closed ∧ world.graph.Holds (.container 0) ∧ Token.allCallFree front = true ∧
      resolveTokens Host.none setup (.container 0) (front ++ [.word "0"]) (some (.integer 2)) world =
        .ok (.integer 2) world' ∧
      (∃ trail world₁, trailFrom Host.none setup ⟨.container 0, []⟩ 0 front world =
          .ok trail world₁ ∧
        trail.current = .container 1 ∧
        world₁.Assigned (.container 1) "0" (.integer 2) world') ∧
      ¬ ∃ s ∈ Value.container 0 :: setup.arguments, world'.graph.Reaches s (.container 1) := by
  intro fields world world' setup front
  have hfields : ∀ v ∈ fields.values, v = .integer 1 := fun v hv => List.mem_singleton.mp hv
  refine ⟨?closed, Nat.zero_lt_one, by decide, rfl, ⟨_, _, rfl, rfl, ⟨rfl, rfl, rfl⟩⟩, ?unseen⟩
  case closed =>
    show (Graph.alloc {} fields).2.Closed
    exact Graph.closed_empty.alloc fun v hv => hfields v hv ▸ trivial
  case unseen =>
    rintro ⟨s, hs, hreach⟩
    rw [List.mem_singleton.mp hs] at hreach
    have honly : ∀ v w, v = .container 0 ∨ v = .integer 1 → world'.graph.Inside v w →
        w = .container 0 ∨ w = .integer 1 := by
      rintro v w (rfl | rfl) hin
      · exact Or.inr (hfields w (Graph.inside_container_iff.mp hin))
      · obtain ⟨h, hv⟩ := hin.exists_handle
        cases hv
    rcases hreach.mem_of_closed honly (Or.inl rfl) with heq | heq
    · cases heq
    · cases heq

end GraphPath
