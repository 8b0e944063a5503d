import GraphPath.Proofs.Method
import GraphPath.Proofs.Resolve.Success

/-! # Documents without functions of the host

A document may hold nothing but data and built-in methods (`Graph.HostFree`).  Nothing
that a resolution does brings a function of the host into it: steps read, write and make
lists and maps of what is there, and methods are looked up and called by their names.  So
**on such a document the host does not show** (`resolveTokens_hostFree`): every resolution
is the one without a host.
-/

namespace GraphPath

/-! ## Values and graphs -/

/-- A value that is no function of the host. -/
def Value.HostFree : Value → Prop
  | .callable f => ∀ name, f.behaviour ≠ .host name
  | _ => True

namespace Graph
variable {g g' : Graph} {target v w : Value} {key : String} {cell : Cell} {h : Handle}

/-- **A graph without functions of the host** inside any container. -/
def HostFree (g : Graph) : Prop := ∀ h, ∀ v ∈ (g.read h).values, v.HostFree

theorem HostFree.of_inside (hg : g.HostFree) (hin : g.Inside v w) : w.HostFree := by
  obtain ⟨h, rfl⟩ := hin.exists_handle
  exact hg h w (inside_container_iff.mp hin)

theorem HostFree.of_cells (hg : g.HostFree) (hcells : g'.cells = g.cells) : g'.HostFree := by
  intro h v hv
  rw [read_congr hcells] at hv
  exact hg h v hv

theorem HostFree.write (hg : g.HostFree) (hcell : ∀ v ∈ cell.values, v.HostFree) (h : Handle) :
    (g.write h cell).HostFree := by
  intro k v hv
  rcases inside_write_cases (inside_container_iff.mpr hv) with hin | ⟨-, hv⟩
  · exact hg.of_inside hin
  · exact hcell v hv

theorem HostFree.alloc (hg : g.HostFree) (hcell : ∀ v ∈ cell.values, v.HostFree) :
    (g.alloc cell).2.HostFree := by
  intro k v hv
  rcases inside_alloc_iff.mp (inside_container_iff.mpr hv) with hin | ⟨-, hv⟩
  · exact hg.of_inside hin
  · exact hcell v hv

theorem HostFree.set (hg : g.HostFree) (hv : v.HostFree)
    (hset : (g.read h).set key v = .ok cell) : (g.write h cell).HostFree := by
  refine hg.write (fun w hw => ?_) h
  rcases Cell.mem_values_of_set hset hw with rfl | hw
  · exact hv
  · exact hg h w hw

theorem HostFree.items (hg : g.HostFree) (hv : v.HostFree) :
    ∀ w ∈ (g.items? v).getD [v], w.HostFree := by
  intro w hw
  cases hitems : g.items? v with
  | some items =>
    rw [hitems] at hw
    exact hg.of_inside (inside_of_items? hitems hw)
  | none =>
    rw [hitems] at hw
    rw [List.mem_singleton.mp hw]
    exact hv

/-- Methods bring no functions of the host with them. -/
theorem HostFree.callMethod {method : Method} {receiver : Value} {arguments : List Value}
    (hg : g.HostFree) (hreceiver : receiver.HostFree)
    (hcall : g.callMethod method receiver arguments = .ok (w, g')) : g'.HostFree ∧ w.HostFree := by
  cases receiver with
  | container h =>
    have hvalues := hg h
    have hkeys : ∀ v ∈ (g.read h).keys.map Value.string, v.HostFree := fun v hv => by
      obtain ⟨key, -, rfl⟩ := List.mem_map.mp hv
      trivial
    unfold Graph.callMethod at hcall
    dsimp only at hcall
    cases hread : g.read h with
    | list items =>
      rw [hread] at hcall hkeys hvalues
      cases method with
      | sort =>
        cases hcall
        have hsorted : ∀ v ∈ (Cell.list (sortValues items)).values, v.HostFree := fun v hv =>
          hvalues v (mem_sortValues.mp hv)
        exact ⟨hg.write hsorted h, trivial⟩
      | reverse =>
        cases hcall
        have hreversed : ∀ v ∈ (Cell.list items.reverse).values, v.HostFree := fun v hv =>
          hvalues v (List.mem_reverse.mp hv)
        exact ⟨hg.write hreversed h, trivial⟩
      | keys =>
        cases hcall
        exact ⟨hg.alloc hkeys, trivial⟩
      | values =>
        cases hcall
        exact ⟨hg.alloc hvalues, trivial⟩
      | first =>
        cases hcall
        cases items with
        | nil => exact ⟨hg, trivial⟩
        | cons v rest => exact ⟨hg, hvalues v List.mem_cons_self⟩
      | last =>
        cases hcall
        cases hlast : items.getLast? with
        | none => exact ⟨hg, trivial⟩
        | some v => exact ⟨hg, hvalues v (List.mem_of_getLast? hlast)⟩
      | join =>
        cases hjoin : g.join items arguments with
        | error failure =>
          simp only [hjoin] at hcall
          cases hcall
        | ok text =>
          simp only [hjoin] at hcall
          cases hcall
          exact ⟨hg, trivial⟩
      | upper | lower | trim => cases hcall
    | map fields =>
      rw [hread] at hcall hkeys hvalues
      cases method with
      | keys =>
        cases hcall
        exact ⟨hg.alloc hkeys, trivial⟩
      | values =>
        cases hcall
        exact ⟨hg.alloc hvalues, trivial⟩
      | _ => cases hcall
  | string s => cases method <;> cases hcall <;> exact ⟨hg, trivial⟩
  | _ => cases hcall

end Graph

/-! ## Single steps -/

/-- **An edit that brings no function of the host** into a graph, or has one as its result. -/
def Edit.HostFree {α : Type} (P : α → Prop) (edit : Edit α) : Prop :=
  ∀ g a g', g.HostFree → edit g = .ok a g' → g'.HostFree ∧ P a

namespace Step
variable {target v : Value} {key : String} {new? : Option Value}

theorem missing_hostFree (target : Value) (key : String) :
    Edit.HostFree Value.HostFree (missing target key) := by
  intro g w g' hg h
  rw [missing_eq] at h
  cases hintrinsic : g.intrinsic? target key with
  | none =>
    rw [hintrinsic] at h
    dsimp only at h
    split at h <;> cases h
    exact ⟨hg, trivial⟩
  | some found =>
    rw [hintrinsic] at h
    cases h
    unfold Graph.intrinsic? at hintrinsic
    split at hintrinsic
    · obtain ⟨n, -, hn⟩ := Option.map_eq_some_iff.mp hintrinsic
      cases hn
      exact ⟨hg, trivial⟩
    · split at hintrinsic
      · split at hintrinsic <;> cases hintrinsic
        exact ⟨hg.of_cells rfl, nofun⟩
      · cases hintrinsic

theorem vivifyKey_hostFree (target : Value) (key : String) :
    Edit.HostFree Value.HostFree (vivifyKey target key) := by
  intro g w g' hg h
  obtain ⟨fresh, g₁, hmake, h⟩ := exists_of_bind_ok h
  have hfresh : fresh.HostFree ∧ g₁.HostFree := by
    cases hmake
    exact ⟨trivial, hg.alloc nofun⟩
  obtain ⟨⟨⟩, g₂, hassign, h⟩ := exists_of_bind_ok h
  obtain ⟨k, cell, -, hset, rfl⟩ := Edit.assign_eq_ok_iff.mp hassign
  cases h
  exact ⟨hfresh.2.set hfresh.1 hset, hfresh.1⟩

theorem byKey_hostFree (hnew : ∀ v, new? = some v → v.HostFree) (target : Value) (key : String)
    (vivify : Bool) : Edit.HostFree Value.HostFree (byKey target key new? vivify) := by
  intro g w g' hg h
  cases new? with
  | some v =>
    obtain ⟨rfl, k, cell, -, -, hset, rfl⟩ := writeKey_eq_ok h
    exact ⟨hg.set (hnew w rfl) hset, hnew w rfl⟩
  | none =>
    cases hfound : g.getKey? target key with
    | some found =>
      rw [byKey_of_getKey? hfound] at h
      cases h
      exact ⟨hg, hg.of_inside (Graph.inside_of_getKey? hfound)⟩
    | none =>
      rw [byKey_of_getKey?_eq_none hfound] at h
      split at h
      · exact vivifyKey_hostFree target key g w g' hg h
      · exact missing_hostFree target key g w g' hg h

theorem byPattern_hostFree (hnew : ∀ v, new? = some v → v.HostFree) (target : Value)
    (pattern : String) : Edit.HostFree Value.HostFree (byPattern target pattern new?) := by
  intro g w g' hg h
  obtain ⟨keys, found, g₁, hgather, rfl, rfl⟩ := byPattern_eq_ok h
  have hgathered : g₁.HostFree ∧ ∀ v ∈ found, v.HostFree := by
    cases new? with
    | none =>
      obtain ⟨rfl, hfound⟩ := gather_none_eq_ok hgather
      refine ⟨hg, fun v hv => ?_⟩
      obtain ⟨key, hkey⟩ := hfound v hv
      exact hg.of_inside (Graph.inside_of_getKey? hkey)
    | some v =>
      refine gather_some_induction (fun g key g' hg hassign => ?_) (fun g key w hg hkey => ?_) hg
        hgather
      · obtain ⟨k, cell, -, hset, rfl⟩ := Edit.assign_eq_ok_iff.mp hassign
        exact hg.set (hnew v rfl) hset
      · exact hg.of_inside (Graph.inside_of_getKey? hkey)
  exact ⟨hgathered.1.alloc hgathered.2, trivial⟩

theorem byModified_hostFree {setup : Setup} {trail : Trail}
    (harguments : ∀ v ∈ setup.arguments, v.HostFree) (htrail : ∀ v ∈ trail.values, v.HostFree)
    (hnew : ∀ v, new? = some v → v.HostFree) (word : String) (modifiers : Modifiers) :
    Edit.HostFree (fun result => result.1.HostFree ∧ ∀ v ∈ result.2.values, v.HostFree)
      (byModified setup trail word modifiers new?) := by
  rintro g ⟨w, trail'⟩ g' hg h
  obtain ⟨target, key, hselect, -, hresult⟩ := byModified_eq_ok h
  have htrail' : ∀ v ∈ trail'.values, v.HostFree := fun v hv =>
    htrail v ((Trail.select_eq_ok hselect).2 v hv)
  rcases hresult with ⟨-, hargument, rfl⟩ | hresult
  · exact ⟨hg, harguments w (Setup.mem_arguments hargument), htrail'⟩
  · have hdone : g'.HostFree ∧ w.HostFree := by
      cases new? with
      | none =>
        rcases byModifiedKey_none_eq_ok hresult with ⟨hkey, rfl⟩ | ⟨-, hpattern⟩ | hmissing
        · exact ⟨hg, hg.of_inside (Graph.inside_of_getKey? hkey)⟩
        · exact byPattern_hostFree hnew target key g w g' hg hpattern
        · exact missing_hostFree target key g w g' hg hmissing
      | some v =>
        rcases byModifiedKey_some_eq_ok hresult with
          ⟨rfl, k, cell, -, -, hset, rfl⟩ | ⟨-, hpattern⟩ | ⟨-, -, rfl, rfl⟩
        · exact ⟨hg.set (hnew w rfl) hset, hnew w rfl⟩
        · exact byPattern_hostFree hnew target key g w g' hg hpattern
        · exact ⟨hg, trivial⟩
    exact ⟨hdone.1, hdone.2, htrail'⟩

end Step

/-! ## Steps and walks -/

/-- **Two computations that are the same** from worlds without functions of the host, and leave such
worlds with results of a kind. -/
def Resolve.SameHostFree {ε α : Type} (P : α → Prop) (x y : Resolve ε α) : Prop :=
  ∀ world, world.graph.HostFree → x world = y world ∧
    ∀ a after, y world = .ok a after → after.graph.HostFree ∧ P a

namespace Resolve.SameHostFree
variable {ε α β : Type} {P : α → Prop} {Q : β → Prop}

theorem pure {a : α} (ha : P a) :
    SameHostFree P (Pure.pure a : Resolve ε α) (Pure.pure a : Resolve ε α) := by
  refine fun world hworld => ⟨rfl, fun b after h => ?_⟩
  cases h
  exact ⟨hworld, ha⟩

theorem throw (e : PathError) :
    SameHostFree P (MonadExcept.throw e : Resolve ε α) (MonadExcept.throw e : Resolve ε α) :=
  fun _ _ => ⟨rfl, fun _ _ h => by cases h⟩

theorem run {edit : Edit α} (hedit : Edit.HostFree P edit) :
    SameHostFree P (edit.run : Resolve ε α) (edit.run : Resolve ε α) := by
  refine fun world hworld => ⟨rfl, fun a after h => ?_⟩
  obtain ⟨graph, hrun, rfl⟩ := Edit.exists_of_run_ok h
  exact hedit _ _ _ hworld hrun

theorem bind {x y : Resolve ε α} {f f' : α → Resolve ε β} (hx : SameHostFree P x y)
    (hf : ∀ a, P a → SameHostFree Q (f a) (f' a)) : SameHostFree Q (x >>= f) (y >>= f') := by
  intro world hworld
  obtain ⟨hsame, hkeeps⟩ := hx world hworld
  cases hrun : y world with
  | ok a after =>
    obtain ⟨hafter, ha⟩ := hkeeps a after hrun
    rw [bind_of_ok hrun, bind_of_ok (hsame.trans hrun)]
    exact hf a ha after hafter
  | error e after =>
    rw [bind_of_error hrun, bind_of_error (hsame.trans hrun)]
    exact ⟨rfl, fun _ _ h => by cases h⟩

end Resolve.SameHostFree

section
variable {ε : Type} {host : Host ε} {setup : Setup}

/-- What a resolution may look at holds no functions of the host. -/
structure Trail.HostFree (setup : Setup) (trail : Trail) : Prop where
  arguments : ∀ v ∈ setup.arguments, v.HostFree
  values : ∀ v ∈ trail.values, v.HostFree

/-- The result of a step, and the trail to push it on. -/
def Trail.StepHostFree (result : Value × Trail) : Prop :=
  result.1.HostFree ∧ ∀ v ∈ result.2.values, v.HostFree

theorem Trail.HostFree.push {trail : Trail} (htrail : trail.HostFree setup)
    {result : Value × Trail} (hresult : Trail.StepHostFree result) :
    (result.2.push result.1).HostFree setup :=
  ⟨htrail.arguments, fun v hv => by
    rcases List.mem_cons.mp hv with rfl | hv
    · exact hresult.1
    · exact hresult.2 v hv⟩

theorem enter_sameHostFree (tokens : List Token) (level : Nat) :
    Resolve.SameHostFree (fun _ => True) (enter setup tokens level : Resolve ε Unit)
      (enter setup tokens level) := by
  unfold enter
  split
  · exact .throw _
  · split
    · exact .throw _
    · exact .pure trivial

theorem enterAlternative_sameHostFree (level : Nat) (member : Token) :
    Resolve.SameHostFree (fun _ => True) (enterAlternative setup level member : Resolve ε Unit)
      (enterAlternative setup level member) := by
  rcases enterAlternative_cases member with ⟨-, henter⟩ | ⟨-, henter⟩
  · rw [henter]
    exact enter_sameHostFree _ _
  · rw [henter]
    exact .pure trivial

theorem spread_sameHostFree {v : Value} (hv : v.HostFree) :
    Resolve.SameHostFree (fun items => ∀ w ∈ items, w.HostFree)
      (spread v : Resolve ε (List Value)) (spread v) := by
  refine .run fun g items g' hg h => ?_
  obtain ⟨rfl, rfl⟩ := Edit.ask_eq_ok_iff.mp h
  exact ⟨hg, hg.items hv⟩

/-- **A call of a method** is made without the host. -/
theorem call_sameHostFree {f : Callable} (hf : (Value.callable f).HostFree) {receiver : Value}
    (hreceiver : receiver.HostFree) (arguments : List Value) :
    Resolve.SameHostFree Value.HostFree (call host f receiver arguments)
      (call Host.none f receiver arguments) := by
  unfold call
  split
  · refine .run fun g w g' hg h => ?_
    exact hg.callMethod hreceiver (Edit.attempt_eq_ok h)
  · rename_i name hbehaviour
    exact absurd hbehaviour (hf name)

mutual

theorem step_sameHostFree {trail : Trail} (htrail : trail.HostFree setup) {new? : Option Value}
    (hnew : ∀ v, new? = some v → v.HostFree) (vivify : Bool) (level : Nat) (token : Token) :
    Resolve.SameHostFree Trail.StepHostFree (step host setup trail new? vivify level token)
      (step Host.none setup trail new? vivify level token) := by
  -- walks inside a step read, unless the step is a path of its own
  have hnone : ∀ v, (none : Option Value) = some v → v.HostFree := nofun
  match token with
  | .word key =>
    rw [step, step]
    refine (Resolve.SameHostFree.run (Step.byKey_hostFree hnew _ key vivify)).bind fun v hv => ?_
    exact .pure ⟨hv, htrail.values⟩
  | .modified word modifiers =>
    rw [step, step]
    exact .run (Step.byModified_hostFree htrail.arguments htrail.values hnew word modifiers)
  | .collection members =>
    rw [step, step]
    refine (alternatives_sameHostFree htrail hnew level members).bind fun items hitems => ?_
    refine (Resolve.SameHostFree.run (P := Value.HostFree) fun g w g' hg h => ?_).bind
      fun v hv => .pure ⟨hv, htrail.values⟩
    cases h
    exact ⟨hg.alloc hitems, trivial⟩
  | .container .call tree =>
    cases new? with
    | some v =>
      rw [step_call_some, step_call_some]
      exact .throw _
    | none =>
      by_cases hcallable : ∃ f, trail.current = .callable f
      · obtain ⟨f, hcurrent⟩ := hcallable
        have hf : (Value.callable f).HostFree := hcurrent ▸ htrail.values _ trail.current_mem
        have hreceiver : trail.receiver.HostFree := by
          rcases trail.receiver_mem with hmem | hnull
          · exact htrail.values _ hmem
          · rw [hnull]
            trivial
        -- nothing is asked of the arguments, since no method puts them into the document
        have harguments : Resolve.SameHostFree (fun _ => True)
            (callArguments host setup trail level tree)
            (callArguments Host.none setup trail level tree) := by
          unfold callArguments
          split
          · exact .pure trivial
          · refine (enter_sameHostFree tree _).bind fun _ _ => ?_
            refine (walkFrom_sameHostFree htrail hnone _ tree).bind fun v hv => ?_
            exact fun world hworld => ⟨rfl, fun items after h =>
              ⟨(spread_sameHostFree hv world hworld).2 items after h |>.1, trivial⟩⟩
        rw [step_call_callable hcurrent, step_call_callable hcurrent]
        refine harguments.bind fun arguments _ => ?_
        exact (call_sameHostFree hf hreceiver arguments).bind fun v hv => .pure ⟨hv, htrail.values⟩
      · rw [step_call_of_not_callable (not_exists.mp hcallable),
          step_call_of_not_callable (not_exists.mp hcallable)]
        refine (Resolve.SameHostFree.run (P := fun _ => True) fun g kind g' hg h => ?_).bind
          fun _ _ => .throw _
        obtain ⟨-, rfl⟩ := Edit.ask_eq_ok_iff.mp h
        exact ⟨hg, trivial⟩
  | .container .evalProperty tree =>
    rw [step, step]
    refine (enter_sameHostFree tree _).bind fun _ _ => ?_
    refine (walkFrom_sameHostFree htrail hnone _ tree).bind fun computed _ => ?_
    refine (Resolve.SameHostFree.run (P := fun _ => True) fun g key g' hg h => ?_).bind
      fun key _ => (Resolve.SameHostFree.run (Step.byKey_hostFree hnew _ key vivify)).bind
        fun v hv => .pure ⟨hv, htrail.values⟩
    obtain ⟨-, rfl⟩ := Edit.askFor_eq_ok_iff.mp h
    exact ⟨hg, trivial⟩
  | .container .property tree | .container .quote tree =>
    rw [step_path_eq (by exact trivial), step_path_eq (by exact trivial)]
    refine (enter_sameHostFree tree _).bind fun _ _ => ?_
    exact (walkFrom_sameHostFree htrail hnew _ tree).bind fun v hv => .pure ⟨hv, htrail.values⟩

theorem alternatives_sameHostFree {trail : Trail} (htrail : trail.HostFree setup)
    {new? : Option Value} (hnew : ∀ v, new? = some v → v.HostFree) (level : Nat)
    (members : List Token) :
    Resolve.SameHostFree (fun items => ∀ v ∈ items, v.HostFree)
      (alternatives host setup trail new? level members)
      (alternatives Host.none setup trail new? level members) := by
  match members with
  | [] =>
    rw [alternatives, alternatives]
    exact .pure nofun
  | member :: rest =>
    rw [alternatives_cons, alternatives_cons, alternative, alternative, bind_assoc, bind_assoc]
    refine (enterAlternative_sameHostFree level member).bind fun _ _ => ?_
    refine (step_sameHostFree htrail hnew false _ member).bind fun result hresult => ?_
    refine (spread_sameHostFree hresult.1).bind fun items hitems => ?_
    refine (alternatives_sameHostFree htrail hnew level rest).bind fun others hothers => ?_
    exact .pure fun v hv => (List.mem_append.mp hv).elim (hitems v) (hothers v)

theorem walkFrom_sameHostFree {trail : Trail} (htrail : trail.HostFree setup)
    {new? : Option Value} (hnew : ∀ v, new? = some v → v.HostFree) (level : Nat)
    (tokens : List Token) :
    Resolve.SameHostFree Value.HostFree (walkFrom host setup trail new? level tokens)
      (walkFrom Host.none setup trail new? level tokens) := by
  match tokens with
  | [] =>
    rw [walkFrom, walkFrom]
    exact .pure (htrail.values _ trail.current_mem)
  | token :: rest =>
    have hlast : ∀ v, (if rest.isEmpty then new? else none) = some v → v.HostFree := by
      intro v hv
      split at hv
      · exact hnew v hv
      · cases hv
    rw [walkFrom, walkFrom]
    refine (step_sameHostFree htrail hlast _ level token).bind fun result hresult => ?_
    exact walkFrom_sameHostFree (htrail.push hresult) hnew level rest

end

/-- **On a document without functions of the host, the host does not show.** -/
theorem resolveTokens_hostFree {world : World ε} (hgraph : world.graph.HostFree) {root : Value}
    (hroot : root.HostFree) (harguments : ∀ v ∈ setup.arguments, v.HostFree)
    {new? : Option Value} (hnew : ∀ v, new? = some v → v.HostFree) (tokens : List Token) :
    resolveTokens host setup root tokens new? world =
      resolveTokens Host.none setup root tokens new? world := by
  have htrail : (⟨root, []⟩ : Trail).HostFree setup :=
    ⟨harguments, fun v hv => List.mem_singleton.mp hv ▸ hroot⟩
  have hsame : Resolve.SameHostFree Value.HostFree (resolveTokens host setup root tokens new?)
      (resolveTokens Host.none setup root tokens new?) :=
    (enter_sameHostFree tokens 0).bind fun _ _ => walkFrom_sameHostFree htrail hnew 0 tokens
  exact (hsame world hgraph).1

end

end GraphPath
