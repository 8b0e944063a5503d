import GraphPath.Json.Document
import GraphPath.Proofs.Resolve.Growth
import Mathlib.Data.Finset.Card

/-! # Graphs without loops

A graph has a loop if some value is inside itself, at any depth; in an **acyclic** graph
there is none (`Graph.Acyclic`), as where every container was made after those inside it
(`Graph.Layered`).  Only what a change puts inside a value can close a loop, and only if there
was a way back from it (`Acyclic.of_adds`).

The values of an acyclic graph have a finite form in print (`Acyclic.exists_toJson?`).
Going inside, the containers that can still be reached become fewer with every step, and
there are no more of them than containers at all.
-/

namespace GraphPath

namespace Graph
variable {g g' : Graph} {target u v w : Value} {S : Value → Prop} {h : Handle}

/-- **No value is inside itself**, at any depth. -/
def Acyclic (g : Graph) : Prop := ∀ v, ¬ Relation.TransGen g.Inside v v

/-- What a way in the changed graph consists of: it was there before, or leads through the target to
something that was put inside. -/
theorem Adds.way (hadds : g.Adds g' target S) (hS : ∀ w, S w → ¬ g.Reaches w target)
    (hway : Relation.TransGen g'.Inside v w) :
    Relation.TransGen g.Inside v w ∨ (g.Reaches v target ∧ ∃ x, S x ∧ g.Reaches x w) := by
  induction hway with
  | single hin =>
    rcases hadds _ _ hin with hin | ⟨rfl, hx⟩
    · exact Or.inl (.single hin)
    · exact Or.inr ⟨.refl _, _, hx, .refl _⟩
  | tail _ hin ih =>
    rcases hadds _ _ hin with hin | ⟨rfl, hx⟩
    · rcases ih with hway | ⟨hto, x, hx, hfrom⟩
      · exact Or.inl (hway.tail hin)
      · exact Or.inr ⟨hto, x, hx, hfrom.tail hin⟩
    · rcases ih with hway | ⟨-, x, hx', hfrom⟩
      · exact Or.inr ⟨hway.to_reflTransGen, _, hx, .refl _⟩
      · exact absurd hfrom (hS x hx')

/-- **A change closes no loop** if no way leads from what it puts inside a value back to that
value. -/
theorem Acyclic.of_adds (hg : g.Acyclic) (hadds : g.Adds g' target S)
    (hS : ∀ w, S w → ¬ g.Reaches w target) : g'.Acyclic := by
  intro v hloop
  rcases hadds.way hS hloop with hway | ⟨hto, x, hx, hfrom⟩
  · exact hg v hway
  · exact hS x hx (hfrom.trans hto)

/-- **Every container was made after those inside it.** -/
def Layered (g : Graph) : Prop := ∀ h k, g.Inside (.container h) (.container k) → k < h

theorem layered_empty : ({} : Graph).Layered := fun h _ hin =>
  absurd hin.lt_size (Nat.not_lt_zero h)

theorem Layered.acyclic (hg : g.Layered) : g.Acyclic := by
  have hway : ∀ v w, Relation.TransGen g.Inside v w → ∀ h k, v = .container h → w = .container k →
      k < h := by
    intro v w hway
    induction hway with
    | single hin =>
      rintro h k rfl rfl
      exact hg h k hin
    | tail _ hin ih =>
      rintro h k rfl rfl
      obtain ⟨m, rfl⟩ := hin.exists_handle
      exact Nat.lt_trans (hg m k hin) (ih h m rfl rfl)
  intro v hloop
  obtain ⟨w, hin, -⟩ := Relation.TransGen.head'_iff.mp hloop
  obtain ⟨h, rfl⟩ := hin.exists_handle
  exact Nat.lt_irrefl h (hway _ _ hloop h h rfl rfl)

/-! ## Values in print -/

theorem mapM_isSome {α β : Type} {f : α → Option β} {l : List α}
    (hf : ∀ a ∈ l, (f a).isSome = true) : (l.mapM f).isSome = true := by
  induction l with
  | nil => rfl
  | cons a rest ih =>
    obtain ⟨b, hb⟩ := Option.isSome_iff_exists.mp (hf a List.mem_cons_self)
    obtain ⟨bs, hbs⟩ := Option.isSome_iff_exists.mp
      (ih fun a ha => hf a (List.mem_cons_of_mem _ ha))
    rw [List.mapM_cons, hb, hbs]
    rfl

open Classical in
/-- The containers that can be reached from a value. -/
noncomputable def below (g : Graph) (v : Value) : Finset Handle :=
  (Finset.range g.cells.size).filter fun h => g.Reaches v (.container h)

theorem mem_below : h ∈ g.below v ↔ h < g.cells.size ∧ g.Reaches v (.container h) := by
  classical
  unfold below
  rw [Finset.mem_filter, Finset.mem_range]

theorem card_below_le (v : Value) : (g.below v).card ≤ g.cells.size := by
  classical
  unfold below
  calc _
    _ ≤ (Finset.range g.cells.size).card := Finset.card_filter_le _ _
    _ = g.cells.size := Finset.card_range _

/-- **From what is inside a container fewer containers can be reached** than from the container,
unless it is inside itself. -/
theorem card_below_lt (hloop : ¬ Relation.TransGen g.Inside (.container h) (.container h))
    (hin : g.Inside (.container h) w) : (g.below w).card < (g.below (.container h)).card := by
  refine Finset.card_lt_card (Finset.ssubset_iff_subset_ne.mpr ⟨fun k hk => ?_, fun heq => ?_⟩)
  · obtain ⟨hlt, hreach⟩ := mem_below.mp hk
    exact mem_below.mpr ⟨hlt, Relation.ReflTransGen.head hin hreach⟩
  · have hself : h ∈ g.below w := heq ▸ mem_below.mpr ⟨hin.lt_size, .refl _⟩
    exact hloop (Relation.TransGen.head' hin (mem_below.mp hself).2)

/-- From a container of the graph at least this one can be reached. -/
theorem card_below_pos (hlt : h < g.cells.size) : 0 < (g.below (.container h)).card :=
  Finset.card_pos.mpr ⟨h, mem_below.mpr ⟨hlt, .refl _⟩⟩

theorem Acyclic.toJsonWithin?_isSome (hg : g.Acyclic) (hclosed : g.Closed) (depth : Nat)
    (v : Value) (hv : g.Holds v) (hdepth : (g.below v).card ≤ depth) :
    (g.toJsonWithin? depth v).isSome = true := by
  induction depth generalizing v with
  | zero =>
    cases v with
    | container h => exact absurd (card_below_pos hv) (Nat.not_lt.mpr hdepth)
    | _ => rfl
  | succ depth ih =>
    cases v with
    | container h =>
      have hinside : ∀ w ∈ (g.read h).values, (g.toJsonWithin? depth w).isSome = true := by
        intro w hw
        have hin : g.Inside (.container h) w := inside_container_iff.mpr hw
        refine ih w (hclosed h w hw) (Nat.le_of_lt_succ ?_)
        exact Nat.lt_of_lt_of_le (card_below_lt (hg _) hin) hdepth
      rw [toJsonWithin?]
      cases hread : g.read h with
      | list items =>
        rw [hread] at hinside
        dsimp only
        rw [Option.isSome_map]
        exact mapM_isSome hinside
      | map fields =>
        rw [hread] at hinside
        dsimp only
        rw [Option.isSome_map]
        refine mapM_isSome fun field hfield => ?_
        rw [Option.isSome_map]
        exact hinside field.2 (List.mem_map_of_mem hfield)
    | _ => rfl

/-- **Every value of an acyclic graph can be printed.** -/
theorem Acyclic.exists_toJson? (hg : g.Acyclic) (hclosed : g.Closed) (hv : g.Holds v) :
    ∃ json, g.toJson? v = some json :=
  Option.isSome_iff_exists.mp (hg.toJsonWithin?_isSome hclosed _ v hv (card_below_le v))

end Graph

end GraphPath
