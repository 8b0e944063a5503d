import GraphPath.Proofs.Graph.Loops
import GraphPath.Proofs.Method
import GraphPath.Proofs.Resolve.Region

/-! # A zone apart

Some of the containers of a graph may stand apart from all others: none of them is
inside another one, and no other inside them (`Graph.Apart`).  The containers of a new
value are a zone like this until it is first written.

In a graph without loops, what a resolution reads from values outside of a zone is
outside of it, and neither reading nor making maps on the way closes a loop or touches
the zone (`apartRegion_lawful`, `apartRegion_vivifies`).  The same is true of calls, as
long as the host has no functions of its own (`apartRegion_calls`): methods answer with
what is inside their receiver, or put it in another order.
-/

namespace GraphPath

namespace Graph

/-- **A zone stands apart** if nothing of it is inside other containers, and nothing else inside
containers of it. -/
def Apart (g : Graph) (zone : Handle → Prop) : Prop :=
  ∀ h k, g.Inside (.container h) (.container k) → (zone h ↔ zone k)

/-- **A graph without loops**, with a zone that stands apart. -/
structure Tame (g : Graph) (zone : Handle → Prop) : Prop where
  /-- The containers in it are its own. -/
  closed : g.Closed
  /-- There are no loops. -/
  acyclic : g.Acyclic
  /-- The zone consists of its containers. -/
  zone_lt : ∀ h, zone h → h < g.cells.size
  /-- The zone stands apart. -/
  apart : g.Apart zone

/-- A value of a graph that is no container of a zone. -/
structure Outside (g : Graph) (zone : Handle → Prop) (v : Value) : Prop where
  /-- It is a value of the graph. -/
  holds : g.Holds v
  /-- It is no container of the zone. -/
  not_zone : ∀ h, v = .container h → ¬ zone h

variable {g g' : Graph} {zone : Handle → Prop} {target v w : Value} {S : Value → Prop}
  {h : Handle}

theorem Outside.mono (hv : g.Outside zone v) (hle : g.cells.size ≤ g'.cells.size) :
    g'.Outside zone v := ⟨hv.holds.mono hle, hv.not_zone⟩

theorem outside_of_scalar (hv : v.isContainer = false) : g.Outside zone v where
  holds := holds_of_scalar hv
  not_zone h hh := by
    rw [hh] at hv
    cases hv

/-- What can be reached is the graph's own. -/
theorem Closed.holds_of_reaches (hg : g.Closed) (hreach : g.Reaches v w) (hv : g.Holds v) :
    g.Holds w := hreach.mem_of_closed (fun _ _ _ hin => hg.holds_of_inside hin) hv

theorem Tame.outside_of_inside (hg : g.Tame zone) (hv : g.Outside zone v) (hin : g.Inside v w) :
    g.Outside zone w where
  holds := hg.closed.holds_of_inside hin
  not_zone k hk := by
    obtain ⟨h, rfl⟩ := hin.exists_handle
    subst hk
    exact fun hzone => hv.not_zone h rfl ((hg.apart h k hin).mpr hzone)

/-- **From the zone nothing outside of it can be reached.** -/
theorem Tame.zone_of_reaches (hg : g.Tame zone) (hv : ∀ h, v = .container h → zone h)
    (hreach : g.Reaches v (.container h)) : zone h := by
  have hstays : ∀ u x, (∀ h, u = .container h → zone h) → g.Inside u x →
      ∀ k, x = .container k → zone k := by
    rintro u x hu hin k rfl
    obtain ⟨h, rfl⟩ := hin.exists_handle
    exact (hg.apart h k hin).mp (hu h rfl)
  exact hreach.mem_of_closed hstays hv h rfl

/-- **A graph stays tame** when it grows outside of the zone and no loop is closed. -/
theorem Tame.of_adds (hg : g.Tame zone) (hext : g.Extends g') (hadds : g.Adds g' target S)
    (htarget : ∀ h, target = .container h → ¬ zone h)
    (hS : ∀ w, S w → (∀ h, w = .container h → ¬ zone h) ∧ ¬ g.Reaches w target) :
    g'.Tame zone where
  closed := hext.closed
  acyclic := hg.acyclic.of_adds hadds fun w hw => (hS w hw).2
  zone_lt h hh := Nat.lt_of_lt_of_le (hg.zone_lt h hh) hext.size_le
  apart h k hin := by
    rcases hadds _ _ hin with hin | ⟨heq, hk⟩
    · exact hg.apart h k hin
    · exact iff_of_false (htarget h heq.symm) ((hS _ hk).1 k rfl)

theorem Tame.of_extends (hg : g.Tame zone) (hext : g.Extends g')
    (hinside : ∀ v w, g'.Inside v w → g.Inside v w) : g'.Tame zone :=
  have hadds : g.Adds g' .null fun _ => False := fun v w hin => Or.inl (hinside v w hin)
  hg.of_adds hext hadds nofun nofun

end Graph

/-- **The region outside of a zone**, in a graph without loops.  Lists that are made belong to
it. -/
def apartRegion (zone : Handle → Prop) : Region where
  inv g := g.Tame zone
  within g v := g.Outside zone v
  made g v := g.Outside zone v

section
variable {g g' : Graph} {zone : Handle → Prop}

theorem kept_of_tame (hg' : g'.Tame zone) (hle : g.cells.size ≤ g'.cells.size) :
    (apartRegion zone).Kept g g' := ⟨hg', fun _ hv => hv.mono hle, fun _ hv => hv.mono hle⟩

/-- **No reading leads into the zone.** -/
theorem apartRegion_lawful : (apartRegion zone).Lawful where
  scalar hscalar := Graph.outside_of_scalar hscalar
  inside hg hv hin := hg.outside_of_inside (hv.elim id id) hin
  list hv := Or.inl hv
  cells hg hcells :=
    have hext := Graph.extends_of_cells hg.closed hcells
    kept_of_tame (hg.of_extends hext fun _ _ hin => hin.congr hcells.symm) hext.size_le
  newList := by
    intro g items hg hitems
    have hext := Graph.extends_alloc hg.closed (.list items) fun v hv => (hitems v hv).holds
    have hnew : ¬ zone g.cells.size := fun hzone => Nat.lt_irrefl _ (hg.zone_lt _ hzone)
    have htame : (g.newList items).2.Tame zone := by
      refine hg.of_adds hext Graph.adds_alloc (fun h hh => ?_) fun w hw =>
        ⟨(hitems w hw).not_zone, fun hreach => ?_⟩
      · cases hh
        exact hnew
      · exact Nat.lt_irrefl _ (hg.closed.holds_of_reaches hreach (hitems w hw).holds)
    refine ⟨kept_of_tame htame hext.size_le, g.lt_size_newList items, fun h hh => ?_⟩
    cases hh
    exact hnew

/-- Nor does making maps on the way. -/
theorem apartRegion_vivifies : (apartRegion zone).Vivifies := by
  intro g target key w g' hg htarget hcontainer habsent hmade
  cases target with
  | container h =>
    have hlt : h < g.cells.size := htarget.holds
    obtain ⟨hext, rfl, hin, hadds⟩ := Step.extends_of_vivifyKey hg.closed hlt habsent hmade
    have hnew : ∀ k, Value.container g.cells.size = .container k → ¬ zone k := by
      rintro k hk hzone
      cases hk
      exact Nat.lt_irrefl _ (hg.zone_lt _ hzone)
    -- nothing is inside a handle that is still to be given out
    have hback : ¬ g.Reaches (.container g.cells.size) (.container h) := fun hreach => by
      cases hreach.eq_of_not_inside fun x hin => Nat.lt_irrefl _ hin.lt_size
      exact Nat.lt_irrefl _ hlt
    refine ⟨hg.of_adds hext hadds htarget.not_zone ?_, fun v hv => hv.mono hext.size_le,
      hext.closed.holds_of_inside hin, hnew⟩
    rintro x rfl
    exact ⟨hnew, hback⟩
  | _ => cases hcontainer

/-- Nor do calls, if the host has no functions. -/
theorem apartRegion_calls {ε : Type} : (apartRegion zone).Calls (Host.none : Host ε) := by
  intro f receiver arguments world v world' hg hreceiver harguments hcall
  obtain ⟨behaviour, id⟩ := f
  cases behaviour with
  | host name => cases hcall
  | method method =>
    obtain ⟨graph, hmethod, rfl⟩ := Edit.exists_of_run_ok hcall
    have hlawful : (apartRegion zone).Lawful := apartRegion_lawful
    cases Graph.callMethod_eq_ok (Edit.attempt_eq_ok hmethod) with
    | scalar hw => exact ⟨.refl hg, Or.inl (hlawful.scalar hw)⟩
    | inside hw => exact ⟨.refl hg, Or.inl (hlawful.inside hg hreceiver hw)⟩
    | newList hitems =>
      obtain ⟨hkept, hmade⟩ := hlawful.newList hg fun w hw =>
        (hitems w hw).elim hlawful.scalar (hlawful.inside hg hreceiver)
      exact ⟨hkept, Or.inr hmade⟩
    | rearranged heq hread hsame =>
      have hext := Graph.extends_rearranged hg.closed hread hsame
      have hkept : (apartRegion zone).Kept world.graph (world.graph.write _ (.list _)) :=
        kept_of_tame (hg.of_extends hext fun _ _ => (Graph.inside_rearranged_iff hread hsame).mp)
          hext.size_le
      exact ⟨hkept, hkept.lent hreceiver⟩

end

end GraphPath
