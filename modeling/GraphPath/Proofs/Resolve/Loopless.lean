import GraphPath.Proofs.Resolve.Apart
import GraphPath.Proofs.Resolve.Watch

/-! # Writes that close no loop

A write closes a loop if it goes into a container of the very value that it writes
(`Graph.PartOf`).  The first step that writes cannot do that: until then the new value
stands apart from all that the resolution can come across.  Once it has been written, it
is a value like any other.  The alternatives of a collection that are still to be
written may come across it, and go into it.

`sparing` is the watch for that.  **A write that spares the new value leaves a graph
without loops** (`walkFrom_leaves`).  There is nothing to watch for if the path does not
end in a collection, or the value is a scalar (`Engine.watches_sparing`).
-/

namespace GraphPath

namespace Graph

/-- **A container of a value**: the value itself, or one that can be reached from it. -/
def PartOf (g : Graph) (v target : Value) : Prop :=
  target.isContainer = true ∧ g.Reaches v target

/-- The zone of no containers. -/
def nowhere (_ : Handle) : Prop := False

/-- **What a write leaves**: a graph without loops, with all values that were there before and with
those it answers with. -/
structure Leaves (g : Graph) (values : List Value) (g' : Graph) : Prop where
  /-- There are no loops. -/
  tame : g'.Tame nowhere
  /-- No value is lost. -/
  holds : ∀ v, g.Holds v → g'.Holds v
  /-- The answers are values of the graph. -/
  answers : ∀ v ∈ values, g'.Holds v

/-- **The new value** either stands apart, or has been written and is like any other. -/
def Ready (g : Graph) (zone : Handle → Prop) (v : Value) (later : Bool) : Prop :=
  (∀ h, v = .container h → zone h) ∨ (later = true ∧ g.Outside zone v)

variable {g g' : Graph} {zone : Handle → Prop} {target v w : Value} {h : Handle} {cell : Cell}
  {key pattern : String} {later : Bool}

/-- In a graph without loops, a zone may be given up. -/
theorem Tame.release (hg : g.Tame zone) : g.Tame nowhere :=
  ⟨hg.closed, hg.acyclic, nofun, fun _ _ _ => Iff.rfl⟩

theorem outside_nowhere (hv : g.Holds v) : g.Outside nowhere v := ⟨hv, nofun⟩

theorem Ready.holds (hready : g.Ready zone v later) (hg : g.Tame zone) : g.Holds v := by
  rcases hready with hzone | ⟨-, houtside⟩
  · cases v with
    | container h => exact hg.zone_lt h (hzone h rfl)
    | _ => trivial
  · exact houtside.holds

theorem Ready.mono (hready : g.Ready zone v later)
    (hwithin : ∀ v, g.Outside zone v → g'.Outside zone v) : g'.Ready zone v later :=
  hready.imp_right fun hwritten => ⟨hwritten.1, hwithin v hwritten.2⟩

/-- **A value that stands apart is spared by itself.** -/
theorem Ready.not_partOf (hready : g.Ready zone v later) (hg : g.Tame zone)
    (htarget : g.Outside zone target) (hlater : later = true → ¬ g.PartOf v target) :
    ¬ g.PartOf v target := by
  rcases hready with hzone | ⟨hlater', -⟩
  · rintro ⟨hcontainer, hreach⟩
    cases target with
    | container h => exact htarget.not_zone h rfl (hg.zone_of_reaches hzone hreach)
    | _ => cases hcontainer
  · exact hlater hlater'

/-- What was there before a change outside of the zone is there after it. -/
theorem Tame.holds_of_within (hg' : g'.Tame zone)
    (hwithin : ∀ v, g.Outside zone v → g'.Outside zone v) (v : Value) (hv : g.Holds v) :
    g'.Holds v := by
  by_cases hzone : ∃ h, v = .container h ∧ zone h
  · obtain ⟨h, rfl, hzone⟩ := hzone
    exact hg'.zone_lt h hzone
  · exact (hwithin v ⟨hv, fun h hh hz => hzone ⟨h, hh, hz⟩⟩).holds

theorem Leaves.of_holds {g₁ : Graph} {values : List Value} (hleaves : g₁.Leaves values g')
    (hholds : ∀ v, g.Holds v → g₁.Holds v) : g.Leaves values g' :=
  { hleaves with holds := fun v hv => hleaves.holds v (hholds v hv) }

/-! ## Single steps -/

/-- Writing a value closes no loop where the value is spared. -/
theorem Tame.set (hg : g.Tame zone) (hv : g.Holds v) (hspared : ¬ g.PartOf v (.container h))
    (hset : (g.read h).set key v = .ok cell) : (g.write h cell).Tame nowhere where
  closed := hg.closed.write (Step.closed_of_set hg.closed hv hset) h
  acyclic := hg.acyclic.of_adds (adds_set hset) fun w hw hreach => by
    rw [hw] at hreach
    exact hspared ⟨rfl, hreach⟩
  zone_lt := nofun
  apart _ _ _ := Iff.rfl

theorem Tame.leaves_of_set (hg : g.Tame zone) (hv : g.Holds v)
    (hspared : ¬ g.PartOf v (.container h)) (hset : (g.read h).set key v = .ok cell) :
    g.Leaves [v] (g.write h cell) := by
  have hholds : ∀ w, g.Holds w → (g.write h cell).Holds w := fun w hw =>
    hw.mono (Nat.le_of_eq (g.size_write h cell).symm)
  refine ⟨hg.set hv hspared hset, hholds, fun w hw => ?_⟩
  rw [List.mem_singleton.mp hw]
  exact hholds v hv

theorem Tame.leaves_newList (hg : g.Tame zone) {items : List Value}
    (hitems : ∀ v ∈ items, g.Holds v) : g.Leaves [(g.newList items).1] (g.newList items).2 := by
  have hlawful : (apartRegion nowhere).Lawful := apartRegion_lawful
  obtain ⟨hkept, hmade⟩ := hlawful.newList hg.release fun v hv => outside_nowhere (hitems v hv)
  refine ⟨hkept.inv, fun v hv => (hkept.within v (outside_nowhere hv)).holds, fun w hw => ?_⟩
  rw [List.mem_singleton.mp hw]
  exact hmade.holds

/-- So it is with all keys that a pattern admits: no way comes about from the value into the
container that it is written to. -/
theorem Tame.leaves_of_byPattern (hg : g.Tame zone) (hv : g.Holds v)
    (hspared : ¬ g.PartOf v target)
    (hpattern : Step.byPattern target pattern (some v) g = .ok w g') : g.Leaves [w] g' := by
  obtain ⟨keys, found, g₁, hgather, rfl, rfl⟩ := Step.byPattern_eq_ok hpattern
  -- a way from the value into the target would have been there before the first assignment
  let P (g₁ : Graph) : Prop :=
    g₁.Tame nowhere ∧ g₁.cells.size = g.cells.size ∧ ¬ g₁.PartOf v target
  have hassign : ∀ g₁ key g₂, P g₁ → Edit.assign target key v g₁ = .ok () g₂ → P g₂ := by
    rintro g₁ key g₂ ⟨htame, hsize, hspared⟩ hassign
    obtain ⟨h, cell, rfl, hset, rfl⟩ := Edit.assign_eq_ok_iff.mp hassign
    have hv₁ : g₁.Holds v := hv.mono (Nat.le_of_eq hsize.symm)
    refine ⟨htame.set hv₁ hspared hset, (g₁.size_write h cell).trans hsize, fun hpart => ?_⟩
    exact hspared ⟨rfl, hpart.2.of_write_self⟩
  have hread : ∀ g₁ key w, P g₁ → g₁.getKey? target key = some w → g.Holds w := by
    rintro g₁ key w ⟨htame, hsize, -⟩ hkey
    exact (htame.closed.holds_of_getKey? hkey).mono (Nat.le_of_eq hsize)
  obtain ⟨⟨htame, hsize, -⟩, hfound⟩ :=
    Step.gather_some_induction hassign hread ⟨hg.release, rfl, hspared⟩ hgather
  refine (htame.leaves_newList fun w hw => (hfound w hw).mono (Nat.le_of_eq hsize.symm)).of_holds
    fun w hw => hw.mono (Nat.le_of_eq hsize.symm)

end Graph

/-! ## Walks -/

section
variable {ε : Type}

/-- **No write behind the first one goes into a container of the new value.** -/
def sparing (host : Host ε) (setup : Setup) (v : Value) : Watch ε where
  way _ _ _ _ := True
  last later trail level world token := later = true → ∀ target key world₁,
    Addresses host setup trail level world token target key world₁ →
      ¬ world₁.graph.PartOf v target

variable {setup : Setup} {v : Value}

theorem Region.Covers.outside {zone : Handle → Prop} {g : Graph} {trail : Trail} {a : Value}
    (hcov : (apartRegion zone).Covers setup trail g) (ha : a ∈ trail.values) : g.Outside zone a :=
  (hcov.trail a ha).elim id id

theorem covers_nowhere {zone : Handle → Prop} {g g' : Graph} {values : List Value} {trail : Trail}
    (hcov : (apartRegion zone).Covers setup trail g) (hleaves : g.Leaves values g') :
    (apartRegion Graph.nowhere).Covers setup trail g' where
  inv := hleaves.tame
  arguments a ha := Graph.outside_nowhere (hleaves.holds a (hcov.arguments a ha).holds)
  trail a ha := Or.inl (Graph.outside_nowhere (hleaves.holds a (hcov.outside ha).holds))

mutual

theorem step_leaves {zone : Handle → Prop} {later : Bool} {trail trail' : Trail} {level : Nat}
    {world world' : World ε} {w : Value} (token : Token)
    (hcov : (apartRegion zone).Covers setup trail world.graph)
    (hready : world.graph.Ready zone v later)
    (hwatch : (sparing Host.none setup v).Last Host.none setup v later trail level world token)
    (h : step Host.none setup trail (some v) false level token world = .ok (w, trail') world') :
    world.graph.Leaves [w] world'.graph := by
  have hlawful : (apartRegion zone).Lawful := apartRegion_lawful
  have hcurrent := hcov.outside trail.current_mem
  match token with
  | .word key =>
    obtain ⟨-, graph, hkey, rfl⟩ := step_word_eq_ok h
    obtain ⟨rfl, handle, cell, htarget, -, hset, rfl⟩ := Step.writeKey_eq_ok hkey
    rw [Watch.Last] at hwatch
    have hspared := hready.not_partOf hcov.inv hcurrent fun hlater =>
      hwatch hlater _ _ _ (.word key)
    rw [htarget] at hspared
    exact hcov.inv.leaves_of_set (hready.holds hcov.inv) hspared hset
  | .modified word modifiers =>
    obtain ⟨graph, hmodified, rfl⟩ := step_modified_eq_ok h
    obtain ⟨target, key, hselect, hfinal, ⟨hnone, -⟩ | hresult⟩ := Step.byModified_eq_ok hmodified
    · cases hnone
    rw [Watch.Last] at hwatch
    have htarget := hcov.outside (Trail.select_eq_ok hselect).1
    have hspared := hready.not_partOf hcov.inv htarget fun hlater =>
      hwatch hlater _ _ _ (.modified hselect hfinal)
    have hv := hready.holds hcov.inv
    rcases Step.byModifiedKey_some_eq_ok hresult with
      ⟨rfl, handle, cell, rfl, -, hset, rfl⟩ | ⟨-, hpattern⟩ | ⟨-, -, rfl, rfl⟩
    · exact hcov.inv.leaves_of_set hv hspared hset
    · exact hcov.inv.leaves_of_byPattern hv hspared hpattern
    · refine ⟨hcov.inv.release, fun _ hx => hx, fun x hx => ?_⟩
      rw [List.mem_singleton.mp hx]
      trivial
  | .collection members =>
    obtain ⟨-, results, world₁, hresults, rfl, rfl⟩ := step_collection_eq_ok h
    rw [Watch.Last] at hwatch
    have hleaves := alternatives_leave members hcov hready hwatch hresults
    exact (hleaves.tame.leaves_newList hleaves.answers).of_holds hleaves.holds
  | .container .call tree =>
    obtain ⟨-, hnone, -⟩ := step_call_eq_ok h
    cases hnone
  | .container .evalProperty tree =>
    obtain ⟨-, computed, world₁, key, graph, hwalk, htext, hkey, rfl⟩ := step_computed_eq_ok h
    obtain ⟨hkept, -, -⟩ :=
      Region.walkFrom_reads hlawful tree (Or.inr apartRegion_calls) hcov hwalk
    obtain ⟨rfl, handle, cell, htarget, -, hset, rfl⟩ := Step.writeKey_eq_ok hkey
    rw [Watch.Last] at hwatch
    have hready₁ := hready.mono hkept.within
    have hspared := hready₁.not_partOf hkept.inv (hkept.within _ hcurrent) fun hlater =>
      hwatch hlater _ _ _ (.computed hwalk htext)
    rw [htarget] at hspared
    exact (hkept.inv.leaves_of_set (hready₁.holds hkept.inv) hspared hset).of_holds
      (hkept.inv.holds_of_within hkept.within)
  | .container .property tree | .container .quote tree =>
    obtain ⟨-, -, hwalk⟩ := step_path_eq_ok (by exact trivial) h
    rw [Watch.Last] at hwatch
    exact walkFrom_leaves tree hcov hready hwatch hwalk

theorem alternatives_leave {zone : Handle → Prop} {later : Bool} {trail : Trail} {level : Nat}
    {world world' : World ε} {results : List Value} (members : List Token)
    (hcov : (apartRegion zone).Covers setup trail world.graph)
    (hready : world.graph.Ready zone v later)
    (hwatch : (sparing Host.none setup v).Alternatives Host.none setup v later trail level world
      members)
    (h : alternatives Host.none setup trail (some v) level members world = .ok results world') :
    world.graph.Leaves results world'.graph := by
  match members with
  | [] =>
    rw [alternatives] at h
    cases h
    exact ⟨hcov.inv.release, fun _ hx => hx, nofun⟩
  | member :: rest =>
    obtain ⟨⟨result, trail₁⟩, world₁, others, hmember, hothers, rfl⟩ := alternatives_cons_eq_ok h
    rw [Watch.Alternatives] at hwatch
    have hfirst := step_leaves member hcov hready hwatch.1 (alternative_eq_ok hmember)
    -- the value may have been written now: the zone is given up, and what the watch says takes over
    have hcov₁ := covers_nowhere hcov hfirst
    have hready₁ : world₁.graph.Ready Graph.nowhere v true :=
      Or.inr ⟨rfl, Graph.outside_nowhere (hfirst.holds v (hready.holds hcov.inv))⟩
    have hrest := alternatives_leave rest hcov₁ hready₁ (hwatch.2 _ world₁ hmember) hothers
    refine ⟨hrest.tame, fun x hx => hrest.holds x (hfirst.holds x hx), fun x hx => ?_⟩
    rcases List.mem_append.mp hx with hx | hx
    · have hresult : world₁.graph.Outside Graph.nowhere result :=
        Graph.outside_nowhere (hfirst.answers result List.mem_cons_self)
      have hlawful : (apartRegion Graph.nowhere).Lawful := apartRegion_lawful
      exact hrest.holds x (hlawful.within_spread hcov₁.inv (Or.inl hresult) x hx).holds
    · exact hrest.answers x hx

/-- **A write that spares the new value leaves a graph without loops.** -/
theorem walkFrom_leaves {zone : Handle → Prop} {later : Bool} {trail : Trail} {level : Nat}
    {world world' : World ε} {w : Value} (tokens : List Token)
    (hcov : (apartRegion zone).Covers setup trail world.graph)
    (hready : world.graph.Ready zone v later)
    (hwatch : (sparing Host.none setup v).Way Host.none setup v later trail level world tokens)
    (h : walkFrom Host.none setup trail (some v) level tokens world = .ok w world') :
    world.graph.Leaves [w] world'.graph := by
  match tokens with
  | [] =>
    rw [walkFrom] at h
    cases h
    refine ⟨hcov.inv.release, fun _ hx => hx, fun x hx => ?_⟩
    rw [List.mem_singleton.mp hx]
    exact (hcov.outside trail.current_mem).holds
  | token :: rest =>
    rw [Watch.Way] at hwatch
    by_cases hempty : rest = []
    · have hlast := hwatch.1 hempty
      subst hempty
      rw [walkFrom_last] at h
      obtain ⟨⟨result, trail₁⟩, world₁, hstep, h⟩ := exists_of_bind_ok h
      cases h
      exact step_leaves token hcov hready hlast hstep
    · -- on the way the zone is not touched, so the value still stands apart
      rw [walkFrom_cons_some hempty] at h
      obtain ⟨⟨result, trail₁⟩, world₁, hstep, hrest⟩ := exists_of_bind_ok h
      have hgoes := Region.step_goes apartRegion_lawful (fun _ => apartRegion_vivifies)
        (Or.inr apartRegion_calls) (Or.inr fun _ _ hmade => hmade) hcov
        (hcov.outside trail.current_mem) hstep
      have hcov₁ : (apartRegion zone).Covers setup (trail₁.push result) world₁.graph := {
        inv := hgoes.inv
        arguments := fun a ha => hgoes.within a (hcov.arguments a ha)
        trail := fun a ha => Or.inl (by
          rcases List.mem_cons.mp ha with rfl | ha
          · exact hgoes.result
          · exact hgoes.within a (hcov.outside (step_trail hstep a ha))) }
      have hnext := (hwatch.2 hempty).2 result trail₁ world₁ hstep
      exact (walkFrom_leaves rest hcov₁ (hready.mono hgoes.within) hnext hrest).of_holds
        (hgoes.inv.holds_of_within hgoes.within)

end

/-- A later alternative that goes into the new value puts it inside itself. -/
example :
    let world : World Unit := ⟨{ cells := #[.map .empty, .map .empty] }, ()⟩
    let tokens : List Token := [.collection [.word "a", .container .property [.word "a", .word "x"]]]
    ∃ w world', resolveTokens Host.none { maxDepth := 256 } (.container 0) tokens
        (some (.container 1)) world = .ok w world' ∧
      world'.graph.getKey? (.container 1) "x" = some (.container 1) ∧
      world'.graph.toJson? (.container 0) = none := ⟨_, _, rfl, rfl, rfl⟩

end

/-! ## Where there is nothing to watch for -/

mutual

/-- The tokens of which only one step writes, if they come last. -/
def Token.WritesOnce : Token → Prop
  | .collection _ => False
  | .container .property tree | .container .quote tree => Token.AllWriteOnce tree
  | .word _ | .modified _ _ | .container .call _ | .container .evalProperty _ => True

/-- A row of tokens of which the last is one of these. -/
def Token.AllWriteOnce : List Token → Prop
  | [] => True
  | token :: rest => (rest = [] → token.WritesOnce) ∧ Token.AllWriteOnce rest

end

section
variable {ε : Type} {host : Host ε} {setup : Setup} {v : Value}

/-- A step that is the first to write spares the new value, and so does every step if the value is
no container. -/
theorem spares_of_key {later : Bool} (hfine : later = false ∨ v.isContainer = false) (trail : Trail)
    (level : Nat) (world : World ε) (token : Token) :
    (sparing host setup v).last later trail level world token := by
  rintro hlater target key world₁ - ⟨hcontainer, hreach⟩
  rcases hfine with hfirst | hscalar
  · exact Bool.false_ne_true (hfirst.symm.trans hlater)
  · have htarget := hreach.eq_of_not_inside fun x hin => by
      obtain ⟨h, rfl⟩ := hin.exists_handle
      cases hscalar
    rw [htarget] at hcontainer
    exact Bool.false_ne_true (hscalar.symm.trans hcontainer)

mutual

theorem spares_last {later : Bool} (trail : Trail) (level : Nat) (world : World ε) (token : Token)
    (hfine : (later = false ∧ token.WritesOnce) ∨ v.isContainer = false) :
    (sparing host setup v).Last host setup v later trail level world token := by
  match token with
  | .word _ | .modified _ _ | .container .call _ | .container .evalProperty _ =>
    rw [Watch.Last]
    exact spares_of_key (hfine.imp_left And.left) trail level world _
  | .collection members =>
    rw [Token.WritesOnce] at hfine
    rw [Watch.Last]
    exact spares_alternatives trail level world members (hfine.resolve_left And.right)
  | .container .property tree | .container .quote tree =>
    rw [Token.WritesOnce] at hfine
    rw [Watch.Last]
    exact spares_way trail (level + 1) world tree hfine

theorem spares_alternatives {later : Bool} (trail : Trail) (level : Nat) (world : World ε)
    (members : List Token) (hscalar : v.isContainer = false) :
    (sparing host setup v).Alternatives host setup v later trail level world members := by
  match members with
  | [] => trivial
  | member :: rest =>
    rw [Watch.Alternatives]
    exact ⟨spares_last trail _ world member (Or.inr hscalar), fun _ world₁ _ =>
      spares_alternatives trail level world₁ rest hscalar⟩

theorem spares_way {later : Bool} (trail : Trail) (level : Nat) (world : World ε)
    (tokens : List Token)
    (hfine : (later = false ∧ Token.AllWriteOnce tokens) ∨ v.isContainer = false) :
    (sparing host setup v).Way host setup v later trail level world tokens := by
  match tokens with
  | [] => trivial
  | token :: rest =>
    rw [Token.AllWriteOnce] at hfine
    rw [Watch.Way]
    refine ⟨fun hempty => spares_last trail level world token ?_, fun _ => ⟨trivial,
      fun result trail₁ world₁ _ => spares_way _ level world₁ rest ?_⟩⟩
    · exact hfine.imp_left fun honce => ⟨honce.1, honce.2.1 hempty⟩
    · exact hfine.imp_left fun honce => ⟨honce.1, honce.2.2⟩

end

/-- **A write that has one last step spares the new value, and so does every write of a scalar.** -/
theorem Engine.watches_sparing {engine : Engine} {root : Value} {path : Path}
    {arguments : List Value} {world : World ε}
    (hfine : (∀ route, (engine.route path).1 = .ok route →
      Token.AllWriteOnce (route.steps engine.grammar.propertySeparator)) ∨ v.isContainer = false) :
    engine.Watches host (sparing host (engine.setup arguments) v) root v path arguments world :=
  fun route hroute => spares_way _ 0 world _
    (hfine.imp_left fun honce => ⟨rfl, honce route hroute⟩)

end

end GraphPath
