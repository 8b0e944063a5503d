import GraphPath.Proofs.Graph.Preserved
import GraphPath.Proofs.Resolve.Growth
import GraphPath.Proofs.Resolve.Watch
import GraphPath.Proofs.Resolve.Writes

/-! # Writes that fail

A write along literal keys may put new maps where keys are missing before it comes to its
last step, and that step may fail.  Yet nothing is ever left half done: from the first new
map on the write makes its own way (`Flat.follow_of_empty`), so that it can only fail
before it has changed anything.  **A write along literal keys that fails leaves every
container as it was** (`Engine.resolve_write_atomic`), however the keys are given.

What it may leave is a new map that stands nowhere: one that was made for a key under which
nothing could be put (`Step.preservedIn_of_vivifyKey_error`).
-/

namespace GraphPath

/-! ## Single steps that fail -/

namespace Edit
variable {g g' : Graph} {target v : Value} {key : String} {failure : Failure}

/-- An assignment that fails changes nothing. -/
theorem assign_of_error (hset : g.setKey target key v = .error failure) :
    Edit.assign target key v g = .error failure g := by
  unfold Edit.assign Edit.attempt
  simp only [hset]
  rfl

theorem eq_of_assign_error (h : Edit.assign target key v g = .error failure g') : g' = g := by
  cases hset : g.setKey target key v with
  | error failure' =>
    rw [assign_of_error hset] at h
    cases h
    rfl
  | ok graph =>
    unfold Edit.assign Edit.attempt at h
    simp only [hset] at h
    cases h

end Edit

namespace Step
variable {g g' : Graph} {target v w : Value} {key : String} {failure : Failure} {vivify : Bool}

/-- **A write that fails has assigned nothing**: whatever has been assigned is there. -/
theorem eq_of_writeKey_error (hheld : g.Holds target)
    (h : writeKey target key v g = .error failure g') : g' = g := by
  cases hassign : Edit.assign target key v g with
  | error failure' g₁ =>
    have hrun : writeKey target key v g = .error failure' g₁ := bind_of_error hassign
    cases hrun.symm.trans h
    exact Edit.eq_of_assign_error hassign
  | ok done g₁ =>
    obtain ⟨handle, cell, rfl, hset, -⟩ := Edit.assign_eq_ok_iff.mp hassign
    cases (writeKey_of_set hheld hset).symm.trans h

/-- What an intrinsic is on a value is found out without changing anything. -/
theorem preservedIn_of_intrinsic? (h : g.intrinsic? target key = some (w, g')) :
    g.PreservedIn g' := by
  unfold Graph.intrinsic? at h
  split at h
  · obtain ⟨n, -, heq⟩ := Option.map_eq_some_iff.mp h
    cases heq
    exact .refl g
  · split at h
    · rename_i method _
      split at h <;> cases h
      exact g.preservedIn_newCallable (.method method)
    · cases h

theorem preservedIn_of_missing (h : missing target key g = .ok w g') : g.PreservedIn g' := by
  rw [missing_eq] at h
  split at h
  · rename_i hintrinsic
    cases h
    exact preservedIn_of_intrinsic? hintrinsic
  · split at h <;> cases h
    exact .refl g

theorem eq_of_missing_error (h : missing target key g = .error failure g') : g' = g := by
  rw [missing_eq] at h
  split at h
  · cases h
  · split at h <;> cases h
    rfl

/-- **A map that cannot be put under a key** stands nowhere. -/
theorem preservedIn_of_vivifyKey_error (h : vivifyKey target key g = .error failure g') :
    g.PreservedIn g' := by
  have hmake : Edit.make (fun g => g.newMap .empty) g =
      .ok (.container g.cells.size) (g.alloc (.map .empty)).2 := rfl
  rw [vivifyKey, bind_of_ok hmake] at h
  cases hassign : Edit.assign target key (.container g.cells.size) (g.alloc (.map .empty)).2 with
  | ok done g₁ =>
    rw [bind_of_ok hassign] at h
    cases h
  | error failure' g₁ =>
    rw [bind_of_error hassign] at h
    cases h
    rw [Edit.eq_of_assign_error hassign]
    exact g.preservedIn_alloc _

/-- A step on the way that fails has changed nothing. -/
theorem preservedIn_of_byKey_error (h : byKey target key none vivify g = .error failure g') :
    g.PreservedIn g' := by
  cases hkey : g.getKey? target key with
  | some found =>
    rw [byKey_of_getKey? hkey] at h
    cases h
  | none =>
    rw [byKey_of_getKey?_eq_none hkey] at h
    split at h
    · exact preservedIn_of_vivifyKey_error h
    · rw [eq_of_missing_error h]
      exact .refl g

/-- Neither has one that succeeds, unless it has made a map. -/
theorem preservedIn_of_byKey (hmakes : (vivify && target.isContainer) = false)
    (h : byKey target key none vivify g = .ok w g') : g.PreservedIn g' := by
  cases hkey : g.getKey? target key with
  | some found =>
    rw [byKey_of_getKey? hkey] at h
    cases h
    exact .refl g
  | none =>
    rw [byKey_of_getKey?_eq_none hkey, hmakes] at h
    exact preservedIn_of_missing h

end Step

/-! ## Rows of keys -/

namespace Flat
variable {setup : Setup} {g g' : Graph} {root v : Value} {keys : List String} {failure : Failure}

/-- **A write that fails leaves every container as it was.**  By induction along the keys; where a
map is made the induction stops, since from there the write succeeds. -/
theorem preservedIn_of_follow_error (hg : g.Closed) (hroot : g.Holds root)
    (h : follow setup (some v) root keys g = .error failure g') : g.PreservedIn g' := by
  induction keys generalizing root g with
  | nil => cases h
  | cons key rest ih =>
    by_cases hrest : rest = []
    · subst hrest
      rw [follow_last] at h
      rw [Step.eq_of_writeKey_error hroot h]
      exact .refl g
    rw [follow_cons hrest] at h
    cases hstep : Step.byKey root key none setup.autoVivify g with
    | error failure' g₁ =>
      rw [bind_of_error hstep] at h
      cases h
      exact Step.preservedIn_of_byKey_error hstep
    | ok next g₁ =>
      rw [bind_of_ok hstep] at h
      rcases Step.byKey_cases hstep with ⟨hkey, rfl⟩ | ⟨-, hvivify, hcontainer, hmade⟩ |
        ⟨-, hmakes, hscalar, hcells⟩
      · exact ih hg (hg.holds_of_getKey? hkey) h
      · cases root with
        | container handle =>
          obtain ⟨rfl, hsize, hfresh, -⟩ := Step.vivifyKey_eq_ok hroot hmade
          obtain ⟨g₂, hok, -⟩ := follow_of_empty (v := v) hvivify hrest hsize hfresh
          cases hok.symm.trans h
        | _ => cases hcontainer
      · have hclosed : g₁.Closed := (Graph.extends_of_cells hg hcells).closed
        exact (Step.preservedIn_of_byKey hmakes hstep).trans
          (ih hclosed (Graph.holds_of_scalar hscalar) h)

end Flat

/-! ## Paths of literal keys -/

namespace Engine
variable {ε : Type} {engine : Engine} {path : Path}

/-- **A path of literal keys**: plain words, or a text that is split or read into them. -/
inductive IsRow (engine : Engine) : Path → Prop
  | words (keys : List String) : IsRow engine (.tokens (keys.map .word))
  | flat {text : String} (hflat : engine.grammar.needsTokenizer text = false) :
      IsRow engine (.text text)
  | read {text : String} {keys : List String}
      (hread : (engine.tokenize text).1 = .ok (keys.map .word)) : IsRow engine (.text text)

/-- Words are followed one after the other, if there is one. -/
theorem resolveTokens_words_cases (host : Host ε) (setup : Setup) (root : Value)
    (new? : Option Value) (keys : List String) :
    (∃ e, resolveTokens host setup root (keys.map .word) new? = throw e) ∨
      resolveTokens host setup root (keys.map .word) new? =
        (Flat.follow setup new? root keys).run := by
  cases keys with
  | nil => exact Or.inl ⟨.unresolved .noSteps, rfl⟩
  | cons key rest => exact Or.inr (resolveTokens_words host setup (List.cons_ne_nil _ _) root new?)

/-- **A path of literal keys is rejected as it stands, or followed key by key.** -/
theorem IsRow.resolve_cases (hpath : engine.IsRow path) (host : Host ε) (root : Value)
    (new? : Option Value) (arguments : List Value) :
    (∃ e, (engine.resolve host root path new? arguments).1 = throw e) ∨
      ∃ keys, (engine.resolve host root path new? arguments).1 =
        (Flat.follow (engine.setup arguments) new? root keys).run := by
  have hsplit (text : String) (hflat : engine.grammar.needsTokenizer text = false) :
      (∃ e, (engine.resolve host root (.text text) new? arguments).1 = throw e) ∨
        ∃ keys, (engine.resolve host root (.text text) new? arguments).1 =
          (Flat.follow (engine.setup arguments) new? root keys).run := by
    rw [resolve_text_of_flat host root new? arguments hflat]
    unfold resolveFlat
    dsimp only
    split
    · exact Or.inl ⟨_, rfl⟩
    · exact Or.inr ⟨_, rfl⟩
  cases hpath with
  | words keys =>
    exact (resolveTokens_words_cases host (engine.setup arguments) root new? keys).imp_right
      fun h => ⟨keys, h⟩
  | @flat text hflat => exact hsplit text hflat
  | @read text keys hread =>
    cases hneeds : engine.grammar.needsTokenizer text with
    | false => exact hsplit text hneeds
    | true =>
      have hroute : (engine.route (.text text)).1 = .ok (.tree (keys.map .word)) := by
        unfold route
        dsimp only
        rw [if_pos hneeds, hread]
        rfl
      rw [resolve_fst, hroute]
      exact (resolveTokens_words_cases host (engine.setup arguments) root new? keys).imp_right
        fun h => ⟨keys, h⟩

/-- **A write along literal keys either succeeds or leaves every container as it was**, and the
host, too. -/
theorem resolve_write_atomic (hpath : engine.IsRow path) {host : Host ε} {root v : Value}
    {arguments : List Value} {world world' : World ε} {e : PathError}
    (hclosed : world.graph.Closed) (hroot : world.graph.Holds root)
    (hfail : (engine.resolve host root path (some v) arguments).1 world = .error e world') :
    world'.host = world.host ∧ world.graph.PreservedIn world'.graph := by
  obtain ⟨e', hrun⟩ | ⟨keys, hrun⟩ := hpath.resolve_cases host root (some v) arguments
  · rw [hrun] at hfail
    cases hfail
    exact ⟨rfl, .refl _⟩
  · rw [hrun] at hfail
    unfold Edit.run at hfail
    cases hfollow : Flat.follow (engine.setup arguments) (some v) root keys world.graph with
    | ok w graph =>
      rw [hfollow] at hfail
      cases hfail
    | error failure graph =>
      rw [hfollow] at hfail
      cases hfail
      exact ⟨rfl, Flat.preservedIn_of_follow_error hclosed hroot hfollow⟩

/-- A write that has come to a list in a map, and has made a map for a key that is no position. -/
theorem resolve_write_atomic_list :
    let engine : Engine := { settings := { autoVivify := true } }
    let graph : Graph := { cells := #[.map (.ofList [("xs", .container 1)]), .list []] }
    let world : World Unit := ⟨graph, ()⟩
    let path : Path := .text "xs.name.first"
    engine.IsRow path ∧ ∃ e world',
      (engine.resolve Host.none (.container 0) path (some .null) []).1 world = .error e world' ∧
        world'.graph.cells.size = 3 ∧ world.graph.PreservedIn world'.graph := by
  intro engine graph world path
  have hflat : engine.grammar.needsTokenizer "xs.name.first" = false := by decide +kernel
  have hclosed : world.graph.Closed := by
    intro h v hv
    match h, hv with
    | 0, hv =>
      rw [List.mem_singleton.mp hv]
      exact Nat.lt_succ_self 1
    | 1, hv => cases hv
    | h + 2, hv => cases hv
  have hroot : world.graph.Holds (.container 0) := Nat.zero_lt_two
  obtain ⟨e, world', hfail, hsize⟩ : ∃ e world',
      (engine.resolve Host.none (.container 0) path (some .null) []).1 world = .error e world' ∧
        world'.graph.cells.size = 3 := ⟨_, _, rfl, rfl⟩
  exact ⟨.flat hflat, e, world', hfail, hsize,
    (resolve_write_atomic (.flat hflat) hclosed hroot hfail).2⟩

end Engine

end GraphPath
