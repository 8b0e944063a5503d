import Mathlib.Data.List.Basic
import GraphPath.Proofs.Resolve.ModifiedKey

/-! # Steps by a pattern

A modified word that is not found as it stands, and has a wildcard in it, is a pattern.  Its
first wildcard splits it in two, and a key matches if it begins with the one part and ends
with the other (`Pattern.admits_eq`); a further wildcard is nothing but a character of the
second part.

What such a step does is told by the entries of its target.  A read takes the values of
those that match, in their order (`Graph.filterMap_getKey?_ownKeys`).  A write gives its
value to each of them, and nothing else is changed (`Step.byPattern_writes`).

**A step by a pattern touches exactly the keys that match** (`step_pattern`), whichever value
its modifiers have led to.
-/

namespace GraphPath

/-! ## Matching -/

namespace Pattern
variable {pattern : String} {front back : List Char}

/-- A text with a wildcard in it is a pattern. -/
theorem isPattern_of_split (hsplit : pattern.toList = front ++ wildcardChar :: back) :
    isPattern pattern = true := by
  rw [isPattern, hsplit]
  exact List.contains_iff_mem.mpr (List.mem_append_right front List.mem_cons_self)

/-- **A pattern is split at its first wildcard.** -/
theorem admits_eq (hsplit : pattern.toList = front ++ wildcardChar :: back)
    (hfirst : wildcardChar ∉ front) (key : String) :
    admits pattern key = (front.isPrefixOf key.toList && back.isSuffixOf key.toList) := by
  have hplain : ∀ c ∈ front, (decide (c ≠ wildcardChar)) = true := fun c hc =>
    decide_eq_true fun heq => hfirst (heq ▸ hc)
  have hfront : Pattern.front pattern.toList = front := by
    rw [Pattern.front, hsplit, List.takeWhile_append_of_pos hplain]
    simp
  have hback : Pattern.back pattern.toList = back := by
    rw [Pattern.back, hsplit, List.dropWhile_append_of_pos hplain]
    simp
  rw [admits, hfront, hback]

end Pattern

/-! ## Reading and writing by a pattern -/

namespace Graph
variable {g : Graph}

/-- **The keys of a value find its entries**, one after the other. -/
theorem filterMap_getKey?_ownKeys {target : Value}
    (hsize : (g.ownKeys target).length ≤ Digits.limit) (chosen : String → Bool) :
    ((g.ownKeys target).filter chosen).filterMap (g.getKey? target) =
      ((g.children target).filter fun e => chosen e.1).map Prod.snd := by
  have hfound : ∀ e ∈ (g.children target).filter fun e => chosen e.1,
      g.getKey? target e.1 = some e.2 := fun e he => by
    cases target with
    | container h =>
      have hcell : (g.read h).size ≤ Digits.limit := (g.read h).length_keys_eq_size ▸ hsize
      exact Cell.get?_of_mem_entries (Cell.nameable_of_size_le hcell) (List.mem_filter.mp he).1
    | _ => cases he
  rw [← map_fst_children, List.filter_map, List.filterMap_map]
  exact List.filterMap_eq_map_iff_forall_eq_some.mpr hfound

/-- There are as many keys as entries. -/
theorem length_filter_ownKeys (g : Graph) (target : Value) (chosen : String → Bool) :
    ((g.ownKeys target).filter chosen).length =
      ((g.children target).filter fun e => chosen e.1).length := by
  rw [← map_fst_children, List.filter_map, List.length_map]
  rfl

end Graph

/-! ## The step -/

section
variable {ε : Type} {setup : Setup} {trail trail' : Trail} {world : World ε} {word key : String}
  {modifiers : Modifiers} {target : Value} {front back : List Char}

/-- A modified word that stands for no argument uses its key on the value that its modifiers lead
to. -/
theorem step_modified_key (hcontext : modifiers.context = 0)
    (hselect : trail.select modifiers = .ok (target, trail'))
    (hkey : setup.finalKey world.graph word modifiers = .ok key) (host : Host ε)
    (new? : Option Value) (vivify : Bool) (level : Nat) :
    step host setup trail new? vivify level (.modified word modifiers) world =
      (Step.byModifiedKey target key new? >>= fun result => pure (result, trail')).run world := by
  have hselect' : Edit.askFor (fun _ => trail.select modifiers) world.graph =
      .ok (target, trail') world.graph := Edit.askFor_eq_ok_iff.mpr ⟨hselect, rfl⟩
  have hkey' : Edit.askFor (fun g => setup.finalKey g word modifiers) world.graph =
      .ok key world.graph := Edit.askFor_eq_ok_iff.mpr ⟨hkey, rfl⟩
  have hplain : ¬ 0 < modifiers.context := Nat.not_lt.mpr (Nat.le_of_eq hcontext)
  rw [step, Edit.run, Edit.run, Step.byModified_eq, bind_of_ok hselect', bind_of_ok hkey',
    Step.withKey, if_neg hplain]

/-- **A step by a pattern touches exactly the keys that match it**: those of its target that begin
with what stands in front of the first wildcard, and end with what stands behind it.  A read comes
to a new list of their values, in order.  A write gives its value to every one of them and changes
nothing else, and comes to a new list with the value once for each; it succeeds if there are none,
too.  What is no container has no keys.  (No list has more items than there are positions to ask
for, which is all that `hsize` says.) -/
theorem step_pattern (hcontext : modifiers.context = 0)
    (hselect : trail.select modifiers = .ok (target, trail'))
    (hkey : setup.finalKey world.graph word modifiers = .ok key)
    (hsplit : key.toList = front ++ wildcardChar :: back) (hfirst : wildcardChar ∉ front)
    (hmissing : world.graph.getKey? target key = none)
    (hsize : (world.graph.ownKeys target).length ≤ Digits.limit) (host : Host ε) (vivify : Bool)
    (level : Nat) :
    let token := Token.modified word modifiers
    let matching (key : String) := front.isPrefixOf key.toList && back.isSuffixOf key.toList
    let matched := (world.graph.children target).filter fun e => matching e.1
    let listed := world.graph.newList (matched.map Prod.snd)
    step host setup trail none vivify level token world =
        .ok (listed.1, trail') { world with graph := listed.2 } ∧
      world.graph.PreservedIn listed.2 ∧
      (∀ v, ∃ graph, world.graph.Overwritten target matching v graph ∧
        let written := graph.newList (matched.map fun _ => v)
        step host setup trail (some v) vivify level token world =
          .ok (written.1, trail') { world with graph := written.2 }) ∧
      (target.isContainer = false → matched = []) := by
  intro token matching matched listed
  have hadmits : Pattern.admits key = matching := funext fun key' =>
    Pattern.admits_eq hsplit hfirst key'
  have hpattern : Pattern.isPattern key = true := Pattern.isPattern_of_split hsplit
  refine ⟨?_, world.graph.preservedIn_newList _, fun v => ?_, fun hscalar => ?_⟩
  · have hread : Step.byModifiedKey target key none world.graph = .ok listed.1 listed.2 := by
      rw [Step.byModifiedKey_of_isPattern hmissing hpattern, Step.byPattern_none, hadmits,
        Graph.filterMap_getKey?_ownKeys hsize]
    rw [step_modified_key hcontext hselect hkey]
    exact Edit.run_of_ok (bind_of_ok hread)
  · obtain ⟨graph, hwritten, hwrite⟩ := Step.byPattern_writes hsize key v
    rw [hadmits, world.graph.length_filter_ownKeys, ← List.map_const'] at hwrite
    rw [hadmits] at hwritten
    refine ⟨graph, hwritten, ?_⟩
    rw [step_modified_key hcontext hselect hkey]
    refine Edit.run_of_ok (bind_of_ok ?_)
    rw [Step.byModifiedKey_of_isPattern hmissing hpattern, hwrite]
  · cases target with
    | container h => cases hscalar
    | _ => rfl

end

/-- A pattern that an argument gives, on the value that the word goes back to. -/
theorem step_pattern_of_argument :
    let graph : Graph :=
      { cells := #[.map (.ofList [("aab", .integer 1), ("b", .integer 2), ("ab", .integer 3)])] }
    let world : World Unit := ⟨graph, ()⟩
    let setup : Setup := { arguments := [.string "a*b"], maxDepth := 256 }
    let trail : Trail := ⟨.container 0, [.integer 1]⟩
    let modifiers : Modifiers := { parent := 1, placeholder := 1 }
    let token := Token.modified "1" modifiers
    trail.select modifiers = .ok (.container 0, trail) ∧
      setup.finalKey graph "1" modifiers = .ok "a*b" ∧
      graph.getKey? (.container 0) "a*b" = none ∧
      (graph.ownKeys (.container 0)).length ≤ Digits.limit ∧
      step Host.none setup trail none false 0 token world =
        .ok (.container 1, trail) ⟨(graph.newList [.integer 1, .integer 3]).2, ()⟩ ∧
      ∃ written : Graph,
        step Host.none setup trail (some .null) false 0 token world =
          .ok (.container 1, trail) ⟨(written.newList [.null, .null]).2, ()⟩ ∧
        (written.read 0).entries = [("aab", .null), ("b", .integer 2), ("ab", .null)] := by
  intro graph world setup trail modifiers token
  have hselect : trail.select modifiers = .ok (.container 0, trail) := rfl
  have hkey : setup.finalKey world.graph "1" modifiers = .ok "a*b" := by decide +kernel
  have hsplit : "a*b".toList = ['a'] ++ wildcardChar :: ['b'] := by decide
  have hfirst : wildcardChar ∉ ['a'] := by decide
  have hmissing : world.graph.getKey? (.container 0) "a*b" = none := rfl
  have hsize : (world.graph.ownKeys (.container 0)).length ≤ Digits.limit := by decide
  obtain ⟨hread, -, hwrite, -⟩ :=
    step_pattern rfl hselect hkey hsplit hfirst hmissing hsize Host.none false 0
  obtain ⟨written, hoverwritten, hwrite⟩ := hwrite .null
  refine ⟨hselect, hkey, hmissing, hsize, hread, written, ?_, hoverwritten.children_eq⟩
  rw [hwrite, show Value.container 1 = (written.newList [.null, .null]).1 from
    congrArg Value.container hoverwritten.size_eq.symm]
  rfl

end GraphPath
