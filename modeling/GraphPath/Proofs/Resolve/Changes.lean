import Mathlib.Logic.Relation
import GraphPath.Proofs.Resolve.ModifiedKey
import GraphPath.Proofs.Resolve.Reads

/-! # What a write changes

A write reads much on its way: the steps in front of the last one, and whatever has to be
resolved to find a computed key.  It changes a graph by a row of single changes
(`Graph.Alters`).  Which ones it may make depends on the steps that it takes.  A step on its
way may put a new map under a key that is missing, and this only by a plain word or a computed
key (`Stop.Vivifies`).  A step that writes assigns the value to its own targets
(`Stop.Assigns`).

The steps of a write are told by recursion on its tokens (`Stop.OfWalk`), each with the world
in which it begins; where the last step of a path is a collection or a path of its own, there
are steps inside it that write.  **There are no other changes** (`resolveTokens_alters`).
-/

namespace GraphPath

/-! ## The steps of a write -/

/-- **A step of a write**: where it begins, and whether it is one of those that write. -/
structure Stop (ε : Type) where
  /-- Whether the value is written here. -/
  writes : Bool
  /-- The values that have been passed. -/
  trail : Trail
  /-- How deep the step is. -/
  level : Nat
  /-- The world that the steps before it have left. -/
  world : World ε
  /-- What is resolved here. -/
  token : Token

/-- The tokens that are one key of the value reached last: plain words and computed keys. -/
def Token.IsPlainKey : Token → Prop
  | .word _ | .container .evalProperty _ => True
  | _ => False

/-- **The keys of a value that a text stands for**: itself, if it is one of them, and else those
that it admits, if it is a pattern. -/
def Graph.StandsFor (g : Graph) (target : Value) (text key : String) : Prop :=
  match g.getKey? target text with
  | some _ => key = text
  | none => Pattern.isPattern text = true ∧ key ∈ g.ownKeys target ∧ Pattern.admits text key = true

namespace Stop
variable {ε : Type}

section
variable (host : Host ε) (setup : Setup) (v : Value)

mutual

/-- **The steps of a walk that writes.** -/
inductive OfWalk : Trail → Nat → World ε → List Token → Stop ε → Prop
  /-- All but the last one are on the way. -/
  | way {trail : Trail} {level : Nat} {world : World ε} {token : Token} {rest : List Token}
      (hrest : rest ≠ []) :
      OfWalk trail level world (token :: rest) ⟨false, trail, level, world, token⟩
  /-- The walk goes on behind a step. -/
  | later {trail trail₁ : Trail} {level : Nat} {world world₁ : World ε} {token : Token}
      {rest : List Token} {result : Value} {stop : Stop ε} (hrest : rest ≠ [])
      (hstep : step host setup trail none setup.autoVivify level token world =
        .ok (result, trail₁) world₁)
      (hstop : OfWalk (trail₁.push result) level world₁ rest stop) :
      OfWalk trail level world (token :: rest) stop
  /-- The last one writes. -/
  | last {trail : Trail} {level : Nat} {world : World ε} {token : Token} {stop : Stop ε}
      (hstop : OfLast trail level world token stop) : OfWalk trail level world [token] stop

/-- The last step of a walk that writes, and those inside it. -/
inductive OfLast : Trail → Nat → World ε → Token → Stop ε → Prop
  /-- The step itself. -/
  | itself {trail : Trail} {level : Nat} {world : World ε} {token : Token} :
      OfLast trail level world token ⟨true, trail, level, world, token⟩
  /-- In a collection, every alternative writes. -/
  | among {trail : Trail} {level : Nat} {world : World ε} {members : List Token} {stop : Stop ε}
      (hstop : OfAlternatives trail level world members stop) :
      OfLast trail level world (.collection members) stop
  /-- A path of its own writes at its end. -/
  | inside {trail : Trail} {level : Nat} {world : World ε} {role : ContainerRole}
      {tree : List Token} {stop : Stop ε} (hrole : role.IsPath)
      (henter : enter setup tree (level + 1) world = .ok () world)
      (hstop : OfWalk trail (level + 1) world tree stop) :
      OfLast trail level world (.container role tree) stop

/-- The steps of alternatives that write, one after the other. -/
inductive OfAlternatives : Trail → Nat → World ε → List Token → Stop ε → Prop
  /-- The first one. -/
  | first {trail : Trail} {level : Nat} {world : World ε} {member : Token} {rest : List Token}
      {stop : Stop ε} (henter : enterAlternative setup level member world = .ok () world)
      (hstop : OfLast trail (alternativeLevel level member) world member stop) :
      OfAlternatives trail level world (member :: rest) stop
  /-- The others, behind it. -/
  | later {trail : Trail} {level : Nat} {world world₁ : World ε} {member : Token}
      {rest : List Token} {result : Value × Trail} {stop : Stop ε}
      (hmember : alternative host setup trail (some v) level member world = .ok result world₁)
      (hstop : OfAlternatives trail level world₁ rest stop) :
      OfAlternatives trail level world (member :: rest) stop

end

/-- **A step assigns to a key of a value**: it writes, and this is a target of it. -/
inductive Assigns : Stop ε → Value → String → Prop
  /-- Plain words and computed keys have one target. -/
  | plain {trail : Trail} {level : Nat} {world world₁ : World ε} {token : Token} {target : Value}
      {key : String} (htoken : token.IsPlainKey)
      (haddresses : Addresses host setup trail level world token target key world₁) :
      Assigns ⟨true, trail, level, world, token⟩ target key
  /-- The targets of a modified word are the keys that it stands for. -/
  | modified {trail : Trail} {level : Nat} {world : World ε} {word text key : String}
      {modifiers : Modifiers} {target : Value} (hcontext : modifiers.context = 0)
      (haddresses : Addresses host setup trail level world (.modified word modifiers) target text
        world)
      (hstands : world.graph.StandsFor target text key) :
      Assigns ⟨true, trail, level, world, .modified word modifiers⟩ target key

/-- **A step makes a map under a key of a value**: it is on the way, and a plain word or a computed
key. -/
inductive Vivifies : Stop ε → Value → String → Prop
  | way {trail : Trail} {level : Nat} {world world₁ : World ε} {token : Token} {target : Value}
      {key : String} (hvivify : setup.autoVivify = true) (htoken : token.IsPlainKey)
      (haddresses : Addresses host setup trail level world token target key world₁) :
      Vivifies ⟨false, trail, level, world, token⟩ target key

end

end Stop

/-- **What a write may do to a graph at once**, with these steps: it adds something of its own, or
assigns the value to a target of a step, or puts a new map under a key of a step that is missing. -/
inductive Graph.Alters {ε : Type} (host : Host ε) (setup : Setup) (stops : Stop ε → Prop)
    (v : Value) : Graph → Graph → Prop
  | grows {g g' : Graph} (hgrows : g.PreservedIn g') : Alters host setup stops v g g'
  | assigns {g g' : Graph} {stop : Stop ε} {target : Value} {key : String} (hstop : stops stop)
      (htarget : stop.Assigns host setup target key) (hset : g.setKey target key v = .ok g') :
      Alters host setup stops v g g'
  | vivifies {g g' : Graph} {stop : Stop ε} {target : Value} {key : String} (hstop : stops stop)
      (htarget : stop.Vivifies host setup target key) (hmissing : g.getKey? target key = none)
      (hset : (g.newMap .empty).2.setKey target key (g.newMap .empty).1 = .ok g') :
      Alters host setup stops v g g'

/-! ## Writing -/

namespace Step
variable {R : Graph → Graph → Prop} {g : Graph} {target v : Value} {key text : String}

theorem writeKey_moves (hR : IsPreorder R) (hassign : Moves R (Edit.assign target key v) g) :
    Moves R (writeKey target key v) g := by
  refine hassign.bind hR fun _ g₁ _ => ?_
  refine Moves.bind hR (hR.refl g₁) fun has g₂ _ => ?_
  cases has <;> exact hR.refl g₂

/-- A step on the way either makes a map or reads. -/
theorem byKey_moves (hgrows : ∀ g g', g.PreservedIn g' → R g g') {vivify : Bool}
    (hmake : vivify = true → g.getKey? target key = none → Moves R (vivifyKey target key) g) :
    Moves R (byKey target key none vivify) g := by
  cases vivify with
  | false => exact (byKey_reads target key).mono hgrows
  | true =>
    cases hkey : g.getKey? target key with
    | some found => exact moves_of_ok (byKey_of_getKey? hkey true) (hgrows g g (.refl g))
    | none =>
      refine (moves_congr (byKey_of_getKey?_eq_none hkey true)).mpr ?_
      split
      · exact hmake rfl hkey
      · exact (missing_reads target key).mono hgrows

variable (hR : IsPreorder R) (hgrows : ∀ g g', g.PreservedIn g' → R g g')
include hR

theorem gather_moves {keys : List String}
    (hassign : ∀ key ∈ keys, ∀ g, Moves R (Edit.assign target key v) g) :
    Moves R (gather target (some v) keys) g := by
  induction keys generalizing g with
  | nil => exact hR.refl g
  | cons key rest ih =>
    refine (hassign key List.mem_cons_self g).bind hR fun _ g₁ _ => ?_
    refine Moves.bind hR (hR.refl g₁) fun found? g₂ _ => ?_
    exact (ih fun key hkey => hassign key (List.mem_cons_of_mem _ hkey)).bind_pure hR _

include hgrows

/-- A write by the key of a modified word assigns to nothing but the keys that it stands for. -/
theorem byModifiedKey_moves
    (hassign : ∀ key, g.StandsFor target text key → ∀ g, Moves R (Edit.assign target key v) g) :
    Moves R (byModifiedKey target text (some v)) g := by
  have hhas : Edit.ask (fun g => g.hasKey target text) g =
      .ok (g.getKey? target text).isSome g :=
    Edit.ask_eq_ok_iff.mpr ⟨g.hasKey_eq target text, rfl⟩
  refine (moves_congr (bind_of_ok hhas)).mpr ?_
  unfold Graph.StandsFor at hassign
  cases hkey : g.getKey? target text with
  | some old =>
    rw [hkey] at hassign
    exact (hassign text rfl g).bind_pure hR _
  | none =>
    rw [hkey] at hassign
    dsimp only [Option.isSome_none]
    rw [if_neg Bool.false_ne_true]
    by_cases hpattern : Pattern.isPattern text = true
    · rw [if_pos hpattern]
      refine Moves.bind hR (hR.refl g) fun keys g₁ hkeys => ?_
      obtain ⟨rfl, rfl⟩ := Edit.ask_eq_ok_iff.mp hkeys
      refine (gather_moves hR fun key hmem => ?_).bind hR fun found g₂ _ => ?_
      · obtain ⟨hown, hadmits⟩ := List.mem_filter.mp hmem
        exact hassign key ⟨hpattern, hown, hadmits⟩
      · exact hgrows _ _ (g₂.preservedIn_newList found)
    · rw [if_neg hpattern]
      split <;> exact hR.refl g

end Step

section
variable {ε : Type} {host : Host ε} {setup : Setup} {stops : Stop ε → Prop} {v : Value}

theorem alters_isPreorder :
    IsPreorder (Relation.ReflTransGen (Graph.Alters host setup stops v)) where
  refl _ := .refl
  trans := .trans

theorem alters_of_preserved (g g' : Graph) (h : g.PreservedIn g') :
    Relation.ReflTransGen (Graph.Alters host setup stops v) g g' := .single (.grows h)

theorem assign_alters {stop : Stop ε} {target : Value} {key : String} (hstop : stops stop)
    (htarget : stop.Assigns host setup target key) (g : Graph) :
    Moves (Relation.ReflTransGen (Graph.Alters host setup stops v)) (Edit.assign target key v) g := by
  cases h : Edit.assign target key v g with
  | ok done g' =>
    exact moves_of_ok h (.single (.assigns hstop htarget (Edit.assign_eq_ok_iff_setKey.mp h)))
  | error failure g' =>
    rw [Edit.eq_of_assign_error h] at h
    exact moves_of_error h .refl

/-- A map that cannot be put under a key stands nowhere, and so changes nothing that was there. -/
theorem vivifyKey_alters {stop : Stop ε} {g : Graph} {target : Value} {key : String}
    (hstop : stops stop) (htarget : stop.Vivifies host setup target key)
    (hmissing : g.getKey? target key = none) :
    Moves (Relation.ReflTransGen (Graph.Alters host setup stops v))
      (Step.vivifyKey target key) g := by
  cases h : Step.vivifyKey target key g with
  | ok w g' =>
    -- the map is new, and so all that is changed of what was there is the key
    have hmake : Edit.make (fun g => g.newMap .empty) g =
      .ok (g.newMap .empty).1 (g.newMap .empty).2 := rfl
    have hassigned := h
    rw [Step.vivifyKey, bind_of_ok hmake] at hassigned
    obtain ⟨⟨⟩, g₁, hassign, hrest⟩ := exists_of_bind_ok hassigned
    cases hrest
    exact moves_of_ok h
      (.single (.vivifies hstop htarget hmissing (Edit.assign_eq_ok_iff_setKey.mp hassign)))
  | error failure g' =>
    exact moves_of_error h (alters_of_preserved _ _ (Step.preservedIn_of_vivifyKey_error h))

variable (host setup stops v) in
/-- **A resolution makes no other changes** than those that a write with these steps may make. -/
abbrev AltersOnly {α : Type} (x : Resolve ε α) (world : World ε) : Prop :=
  Moves (World.GraphOnly (Relation.ReflTransGen (Graph.Alters host setup stops v))) x world

theorem Reads.altersOnly {α : Type} {x : Resolve ε α} {world : World ε} (h : Reads x world) :
    AltersOnly host setup stops v x world :=
  h.mono fun _ _ hreads => ⟨hreads.host_eq, alters_of_preserved _ _ hreads.graph⟩

/-- **A step on the way to a write** makes the map of its key, if it is a plain one. -/
theorem step_on_way_alters {trail : Trail} {level : Nat} {world : World ε} {token : Token}
    (hcalls : token.callFree = true) (hstop : stops ⟨false, trail, level, world, token⟩) :
    AltersOnly host setup stops v (step host setup trail none setup.autoVivify level token)
      world := by
  by_cases hword : ∃ key, token = .word key
  · obtain ⟨key, rfl⟩ := hword
    rw [step]
    refine Moves.bind_pure alters_isPreorder.graphOnly _ (Moves.run ?_)
    exact Step.byKey_moves alters_of_preserved fun hvivify hmissing =>
      vivifyKey_alters hstop (.way hvivify trivial (.word key)) hmissing
  by_cases hcomputed : ∃ tree, token = .container .evalProperty tree
  · obtain ⟨tree, rfl⟩ := hcomputed
    simp only [Token.callFree] at hcalls
    refine step_computed_moves alters_isPreorder
      (walkFrom_reads trail _ world tree hcalls).altersOnly fun computed world₁ key hwalk htext => ?_
    exact Step.byKey_moves alters_of_preserved fun hvivify hmissing =>
      vivifyKey_alters hstop (.way hvivify trivial (.computed hwalk htext)) hmissing
  · -- all other steps read, also on the way to a write
    rw [step_of_not_key (not_exists.mp hword) (not_exists.mp hcomputed)]
    exact (step_reads trail level world token hcalls).altersOnly

/-- A modified word assigns to the keys that it stands for, unless it names an argument. -/
theorem step_modified_alters {trail : Trail} {level : Nat} {world : World ε} {word : String}
    {modifiers : Modifiers} (hstop : stops ⟨true, trail, level, world, .modified word modifiers⟩) :
    AltersOnly host setup stops v
      (step host setup trail (some v) false level (.modified word modifiers)) world := by
  rw [step]
  refine Moves.run (Step.byModified_moves alters_isPreorder
    fun target trail' text hselect htext => ?_)
  unfold Step.withKey
  by_cases hcontext : 0 < modifiers.context
  · rw [if_pos hcontext]
    exact alters_isPreorder.refl _
  · rw [if_neg hcontext]
    refine Step.byModifiedKey_moves alters_isPreorder alters_of_preserved fun key hstands g => ?_
    exact assign_alters hstop
      (.modified (Nat.eq_zero_of_not_pos hcontext) (.modified hselect htext) hstands) g

mutual

/-- **The last step of a write** assigns to its targets, or leaves it to the steps inside it. -/
theorem step_last_alters (trail : Trail) (level : Nat) (world : World ε) (token : Token)
    (hcalls : token.callFree = true)
    (hstops : ∀ stop, Stop.OfLast host setup v trail level world token stop → stops stop) :
    AltersOnly host setup stops v (step host setup trail (some v) false level token) world := by
  have hhere : stops ⟨true, trail, level, world, token⟩ := hstops _ .itself
  match token with
  | .word key =>
    rw [step]
    refine Moves.bind_pure alters_isPreorder.graphOnly _ (Moves.run ?_)
    exact Step.writeKey_moves alters_isPreorder
      (assign_alters hhere (.plain trivial (.word key)) world.graph)
  | .modified word modifiers => exact step_modified_alters hhere
  | .collection members =>
    rw [Token.callFree] at hcalls
    exact step_collection_moves alters_isPreorder alters_of_preserved
      (alternatives_alter trail level world members hcalls fun stop hstop =>
        hstops stop (.among hstop))
  | .container .call tree => cases hcalls
  | .container .evalProperty tree =>
    simp only [Token.callFree] at hcalls
    -- the key is computed by a read, also where the step writes
    refine step_computed_moves alters_isPreorder
      (walkFrom_reads trail _ world tree hcalls).altersOnly fun computed world₁ key hwalk htext => ?_
    exact Step.writeKey_moves alters_isPreorder
      (assign_alters hhere (.plain trivial (.computed hwalk htext)) world₁.graph)
  | .container .property tree | .container .quote tree =>
    simp only [Token.callFree] at hcalls
    exact step_path_moves alters_isPreorder trivial fun henter =>
      walkFrom_alters trail _ world tree hcalls fun stop hstop =>
        hstops stop (.inside trivial henter hstop)

theorem alternatives_alter (trail : Trail) (level : Nat) (world : World ε) (members : List Token)
    (hcalls : Token.allCallFree members = true)
    (hstops : ∀ stop, Stop.OfAlternatives host setup v trail level world members stop →
      stops stop) :
    AltersOnly host setup stops v (alternatives host setup trail (some v) level members) world := by
  match members with
  | [] =>
    rw [alternatives]
    exact alters_isPreorder.graphOnly.refl world
  | member :: rest =>
    rw [Token.allCallFree, Bool.and_eq_true] at hcalls
    refine alternatives_cons_moves alters_isPreorder (fun henter => ?_) fun result world₁ hresult => ?_
    · exact step_last_alters trail _ world member hcalls.1 fun stop hstop =>
        hstops stop (.first henter hstop)
    · exact alternatives_alter trail level world₁ rest hcalls.2 fun stop hstop =>
        hstops stop (.later hresult hstop)

/-- **A write makes no changes but those of its steps.** -/
theorem walkFrom_alters (trail : Trail) (level : Nat) (world : World ε) (tokens : List Token)
    (hcalls : Token.allCallFree tokens = true)
    (hstops : ∀ stop, Stop.OfWalk host setup v trail level world tokens stop → stops stop) :
    AltersOnly host setup stops v (walkFrom host setup trail (some v) level tokens) world := by
  match tokens with
  | [] =>
    rw [walkFrom]
    exact alters_isPreorder.graphOnly.refl world
  | token :: rest =>
    rw [Token.allCallFree, Bool.and_eq_true] at hcalls
    by_cases hrest : rest = []
    · subst hrest
      rw [walkFrom_last]
      exact (step_last_alters trail level world token hcalls.1 fun stop hstop =>
        hstops stop (.last hstop)).bind_pure alters_isPreorder.graphOnly _
    · rw [walkFrom_cons_some hrest]
      refine (step_on_way_alters hcalls.1 (hstops _ (.way hrest))).bind alters_isPreorder.graphOnly
        fun result world₁ hstep => ?_
      exact walkFrom_alters _ level world₁ rest hcalls.2 fun stop hstop =>
        hstops stop (.later hrest hstep hstop)

end

/-! ## Whole resolutions -/

mutual

/-- No step of a walk without calls has a call in it. -/
theorem Stop.OfWalk.callFree {trail : Trail} {level : Nat} {world : World ε} {stop : Stop ε}
    (tokens : List Token) (hcalls : Token.allCallFree tokens = true)
    (hstop : Stop.OfWalk host setup v trail level world tokens stop) :
    stop.token.callFree = true := by
  match tokens with
  | [] => cases hstop
  | token :: rest =>
    rw [Token.allCallFree, Bool.and_eq_true] at hcalls
    cases hstop with
    | way hrest => exact hcalls.1
    | later hrest hstep hstop => exact Stop.OfWalk.callFree rest hcalls.2 hstop
    | last hstop => exact Stop.OfLast.callFree token hcalls.1 hstop

theorem Stop.OfLast.callFree {trail : Trail} {level : Nat} {world : World ε} {stop : Stop ε}
    (token : Token) (hcalls : token.callFree = true)
    (hstop : Stop.OfLast host setup v trail level world token stop) :
    stop.token.callFree = true := by
  match token with
  | .word key | .modified text modifiers =>
    cases hstop
    exact hcalls
  | .collection members =>
    cases hstop with
    | itself => exact hcalls
    | among hstop =>
      rw [Token.callFree] at hcalls
      exact Stop.OfAlternatives.callFree members hcalls hstop
  | .container .call tree => cases hcalls
  | .container .evalProperty tree =>
    cases hstop with
    | itself => exact hcalls
    | inside hrole henter hstop => cases hrole
  | .container .property tree | .container .quote tree =>
    cases hstop with
    | itself => exact hcalls
    | inside hrole henter hstop =>
      simp only [Token.callFree] at hcalls
      exact Stop.OfWalk.callFree tree hcalls hstop

theorem Stop.OfAlternatives.callFree {trail : Trail} {level : Nat} {world : World ε}
    {stop : Stop ε} (members : List Token) (hcalls : Token.allCallFree members = true)
    (hstop : Stop.OfAlternatives host setup v trail level world members stop) :
    stop.token.callFree = true := by
  match members with
  | [] => cases hstop
  | member :: rest =>
    rw [Token.allCallFree, Bool.and_eq_true] at hcalls
    cases hstop with
    | first henter hstop => exact Stop.OfLast.callFree member hcalls.1 hstop
    | later hmember hstop => exact Stop.OfAlternatives.callFree rest hcalls.2 hstop

end

/-- **Reads do not write, and a write makes no changes but its own**, if nothing is called.  A read
leaves every container as it was, whether it succeeds or fails.  On the way of a write, a key is
computed without any change; all that is changed is what the steps of the write assign, and the maps
that they make. -/
theorem resolveTokens_alters {tokens : List Token} (hcalls : Token.allCallFree tokens = true)
    (host : Host ε) (setup : Setup) (root : Value) (world : World ε) :
    World.GraphOnly Graph.PreservedIn world
        (worldAfter (resolveTokens host setup root tokens none world)) ∧
      ∀ v, let stops := Stop.OfWalk host setup v ⟨root, []⟩ 0 world tokens
        (∀ stop tree, stops stop → stop.token = .container .evalProperty tree →
          World.GraphOnly Graph.PreservedIn stop.world
            (worldAfter (walkFrom host setup stop.trail none (stop.level + 1) tree stop.world))) ∧
        World.GraphOnly (Relation.ReflTransGen (Graph.Alters host setup stops v)) world
          (worldAfter (resolveTokens host setup root tokens (some v) world)) := by
  refine ⟨moves_iff_worldAfter.mp ?_, fun v => ⟨fun stop tree hstop htoken => ?_, ?_⟩⟩
  · have hR : IsPreorder (World.GraphOnly (ε := ε) _) := Graph.preservedIn_isPreorder.graphOnly
    exact (moves_enter hR tokens 0 world).bind hR fun _ world₁ _ =>
      walkFrom_reads _ 0 world₁ tokens hcalls
  · have hfree : stop.token.callFree = true := hstop.callFree tokens hcalls
    rw [htoken] at hfree
    simp only [Token.callFree] at hfree
    exact moves_iff_worldAfter.mp (walkFrom_reads stop.trail _ stop.world tree hfree)
  · refine moves_iff_worldAfter.mp (Moves.bind alters_isPreorder.graphOnly
      (moves_enter alters_isPreorder.graphOnly tokens 0 world) fun _ world₁ henter => ?_)
    rw [enter_eq_ok henter]
    exact walkFrom_alters _ 0 world tokens hcalls fun _ hstop => hstop

end

/-- A write at a key that is computed from the root, in a map that is made on the way. -/
theorem resolveTokens_alters_computed :
    let world : World Unit := ⟨{ cells := #[.map (.ofList [("key", .string "slot")])] }, ()⟩
    let setup : Setup := { autoVivify := true, maxDepth := 256 }
    let tokens : List Token := [.word "m", .container .evalProperty [.modified "key" { root := 1 }]]
    let stops := Stop.OfWalk Host.none setup (.boolean true) ⟨.container 0, []⟩ 0 world tokens
    Token.allCallFree tokens = true ∧
      world.graph.PreservedIn
        (worldAfter (resolveTokens Host.none setup (.container 0) tokens none world)).graph ∧
      ∃ world', resolveTokens Host.none setup (.container 0) tokens (some (.boolean true)) world =
          .ok (.boolean true) world' ∧
        (world'.graph.read 0).entries = [("key", .string "slot"), ("m", .container 1)] ∧
        (world'.graph.read 1).entries = [("slot", .boolean true)] ∧
        Relation.ReflTransGen (Graph.Alters Host.none setup stops (.boolean true)) world.graph
          world'.graph := by
  intro world setup tokens stops
  obtain ⟨world', hwrite, hroot, hmade⟩ : ∃ world', resolveTokens Host.none setup (.container 0)
      tokens (some (.boolean true)) world = .ok (.boolean true) world' ∧
      (world'.graph.read 0).entries = [("key", .string "slot"), ("m", .container 1)] ∧
      (world'.graph.read 1).entries = [("slot", .boolean true)] := ⟨_, rfl, rfl, rfl⟩
  have hcalls : Token.allCallFree tokens = true := rfl
  obtain ⟨hread, hwrites⟩ := resolveTokens_alters hcalls Host.none setup (.container 0) world
  have halters := (hwrites (.boolean true)).2.graph
  rw [hwrite] at halters
  exact ⟨hcalls, hread.graph, world', hwrite, hroot, hmade, halters⟩

end GraphPath
