import GraphPath.Proofs.Resolve.Watch

/-! # Writes that make missing maps, and writes that do not

A setting lets a write put a new map wherever a key is missing on its way.  It has no
part in reading (`step_vivifying`), and a write that finds all keys on its way does the
same with it and without it.  It was meant to turn failures into successes; whether it
does nothing else depends on the keys that the write asks for.

These are found out by watching the write (`asking`), at whatever depth of brackets and
collections its way runs.

A key may be missing and yet mean something: `length` is an intrinsic of every list and
map (`Graph.StandsIn`).  Without the setting such a key is read, and with it a new map is
put in its place.  **Where no key on the way stands for an intrinsic, a write that
succeeds without the setting does the same with it, and only failures at keys that are
missing on the way can turn out differently** (`Engine.resolve_vivifying`).
-/

namespace GraphPath

namespace Graph

/-- A key that a list or a map lacks. -/
def Lacks (g : Graph) (target : Value) (key : String) : Prop :=
  target.isContainer = true ∧ g.getKey? target key = none

/-- **A key that stands for an intrinsic**, of a list or a map that lacks it. -/
def StandsIn (g : Graph) (target : Value) (key : String) : Prop :=
  g.Lacks target key ∧ (g.intrinsic? target key).isSome = true

end Graph

/-! ## The keys that a write asks for on its way -/

section
variable {ε : Type} (host : Host ε) (setup : Setup) (P : Graph → Value → String → Prop)

/-- The key that a step on the way asks for has a property, if it is one that could be made
there. -/
def StepAsks (trail : Trail) (level : Nat) (world : World ε) : Token → Prop
  | .word key => P world.graph trail.current key
  | .container .evalProperty tree => ∀ computed world₁ key,
    walkFrom host setup trail none (level + 1) tree world = .ok computed world₁ →
      world₁.graph.toKey computed = .ok key → P world₁.graph trail.current key
  | _ => True

/-- **Every key that a write asks for on its way has a property.** -/
def asking : Watch ε where
  way := StepAsks host setup P
  last _ _ _ _ _ := True

end

/-! ## The setting -/

/-- The same setup, with new maps. -/
def Setup.vivifying (setup : Setup) : Setup := { setup with autoVivify := true }

section
variable {ε : Type} {host : Host ε} {setup : Setup}

theorem enter_vivifying (tokens : List Token) (level : Nat) :
    enter (ε := ε) setup.vivifying tokens level = enter setup tokens level := rfl

theorem byModified_vivifying (trail : Trail) (word : String) (modifiers : Modifiers)
    (new? : Option Value) : Step.byModified setup.vivifying trail word modifiers new? =
      Step.byModified setup trail word modifiers new? := rfl

mutual

/-- **Reading does not look at the setting.** -/
theorem step_vivifying (trail : Trail) (vivify : Bool) (level : Nat) (token : Token) :
    step host setup.vivifying trail none vivify level token =
      step host setup trail none vivify level token := by
  match token with
  | .word key => rw [step, step]
  | .modified word modifiers => rw [step, step, byModified_vivifying]
  | .collection members =>
    have halternatives := alternatives_vivifying trail level members
    rw [step, step, halternatives]
  | .container .call tree =>
    have hwalk := walkFrom_vivifying trail (level + 1) tree
    rw [step, step, hwalk]
    rfl
  | .container .evalProperty tree =>
    have hwalk := walkFrom_vivifying trail (level + 1) tree
    rw [step, step, hwalk, enter_vivifying]
  | .container .property tree | .container .quote tree =>
    have hwalk := walkFrom_vivifying trail (level + 1) tree
    rw [step_path_eq, step_path_eq, hwalk, enter_vivifying] <;> exact trivial

theorem alternatives_vivifying (trail : Trail) (level : Nat) (members : List Token) :
    alternatives host setup.vivifying trail none level members =
      alternatives host setup trail none level members := by
  match members with
  | [] => rw [alternatives, alternatives]
  | member :: rest =>
    have hrest := alternatives_vivifying trail level rest
    have hmember := step_vivifying trail false (alternativeLevel level member) member
    rw [alternatives_cons, alternatives_cons, hrest, alternative, hmember]
    rfl

theorem walkFrom_vivifying (trail : Trail) (level : Nat) (tokens : List Token) :
    walkFrom host setup.vivifying trail none level tokens =
      walkFrom host setup trail none level tokens := by
  match tokens with
  | [] => rw [walkFrom, walkFrom]
  | token :: rest =>
    have hstep := step_vivifying trail false level token
    rw [walkFrom_cons_none, walkFrom_cons_none, hstep]
    exact congrArg _ (funext fun result => walkFrom_vivifying _ level rest)

end

end

/-! ## Two runs of a write -/

/-- **A run that is the same**, or takes the place of a failure at a missing key. -/
inductive Agrees {ε α : Type} (missing : Prop) :
    EStateM.Result PathError (World ε) α → EStateM.Result PathError (World ε) α → Prop
  | same (r : EStateM.Result PathError (World ε) α) : Agrees missing r r
  | instead (hmissing : missing) (key : String) (kind : Kind) (world : World ε)
      (r : EStateM.Result PathError (World ε) α) :
      Agrees missing (.error (.unresolved (.noKey key kind)) world) r

/-- What is asked of the keys on the way: none stands for an intrinsic, and it is known if one is
missing. -/
def Graph.Expected (missing : Prop) (g : Graph) (target : Value) (key : String) : Prop :=
  ¬ g.StandsIn target key ∧ (g.Lacks target key → missing)

section
variable {ε α β : Type} {host : Host ε} {setup : Setup} {missing : Prop} {v : Value}

theorem Agrees.eq_ok {r : EStateM.Result PathError (World ε) α} {a : α} {world : World ε}
    (h : Agrees missing (.ok a world) r) : r = .ok a world := by
  cases h
  rfl

theorem Agrees.of_error {r : EStateM.Result PathError (World ε) α} {e : PathError}
    {world : World ε} (h : Agrees missing (.error e world) r) :
    r = .error e world ∨ missing ∧ ∃ key kind, e = .unresolved (.noKey key kind) := by
  cases h with
  | same => exact Or.inl rfl
  | instead hmissing key kind => exact Or.inr ⟨hmissing, key, kind, rfl⟩

theorem Agrees.bind {x x' : Resolve ε α} {f f' : α → Resolve ε β} {world : World ε}
    (hx : Agrees missing (x world) (x' world))
    (hf : ∀ a world₁, x world = .ok a world₁ → Agrees missing (f a world₁) (f' a world₁)) :
    Agrees missing ((x >>= f) world) ((x' >>= f') world) := by
  cases hr : x world with
  | ok a world₁ =>
    rw [hr] at hx
    rw [bind_of_ok hr, bind_of_ok hx.eq_ok]
    exact hf a world₁ hr
  | error e world₁ =>
    rw [hr] at hx
    rw [bind_of_error hr]
    rcases hx.of_error with hr' | ⟨hmissing, key, kind, rfl⟩
    · rw [bind_of_error hr']
      exact .same _
    · exact .instead hmissing key kind _ _

/-- The same beginning, and ends that agree. -/
theorem Agrees.bind_same {x : Resolve ε α} {f f' : α → Resolve ε β} {world : World ε}
    (hf : ∀ a world₁, x world = .ok a world₁ → Agrees missing (f a world₁) (f' a world₁)) :
    Agrees missing ((x >>= f) world) ((x >>= f') world) := Agrees.bind (.same _) hf

/-- **A key that is asked for on the way** is read with the setting as without it, if it is there or
cannot be made; if it is missing, reading it fails. -/
theorem byKey_agrees {target : Value} {key : String} {world : World ε}
    (hkey : world.graph.Expected missing target key) :
    Agrees missing ((Step.byKey target key none false).run world)
      ((Step.byKey target key none true).run world) := by
  obtain ⟨hstands, hlacks⟩ := hkey
  by_cases hlack : world.graph.Lacks target key
  · have hintrinsic : world.graph.intrinsic? target key = none :=
      Option.not_isSome_iff_eq_none.mp fun hsome => hstands ⟨hlack, hsome⟩
    have hfails : Step.byKey target key none false world.graph =
        .error (.noKey key (world.graph.kind target)) world.graph :=
      (Step.byKey_of_getKey?_eq_none hlack.2 false).trans
        (Step.missing_of_intrinsic?_eq_none hlack.1 hintrinsic)
    rw [Edit.run, hfails]
    exact .instead (hlacks hlack) key _ _ _
  · have hsame : Step.byKey target key none false world.graph =
        Step.byKey target key none true world.graph := by
      cases hfound : world.graph.getKey? target key with
      | some found => rw [Step.byKey_of_getKey? hfound, Step.byKey_of_getKey? hfound]
      | none =>
        have hscalar : target.isContainer = false :=
          Bool.eq_false_iff.mpr fun hcontainer => hlack ⟨hcontainer, hfound⟩
        rw [Step.byKey_of_getKey?_eq_none hfound, Step.byKey_of_getKey?_eq_none hfound, hscalar]
        rfl
    rw [Edit.run, Edit.run, hsame]
    exact .same _

/-- A step on the way to a write. -/
theorem step_agrees {trail : Trail} {level : Nat} {world : World ε} {token : Token}
    (hasks : StepAsks host setup (Graph.Expected missing) trail level world token) :
    Agrees missing (step host setup trail none false level token world)
      (step host setup.vivifying trail none true level token world) := by
  rw [step_vivifying]
  by_cases hword : ∃ key, token = .word key
  · obtain ⟨key, rfl⟩ := hword
    rw [step, step]
    exact Agrees.bind (byKey_agrees hasks) fun _ _ _ => .same _
  by_cases hcomputed : ∃ tree, token = .container .evalProperty tree
  · obtain ⟨tree, rfl⟩ := hcomputed
    rw [step, step]
    refine Agrees.bind_same fun _ world₁ henter => Agrees.bind_same fun computed world₂ hwalk =>
      Agrees.bind_same fun key world₃ hkey => Agrees.bind (byKey_agrees ?_) fun _ _ _ => .same _
    obtain ⟨graph, hask, rfl⟩ := Edit.exists_of_run_ok hkey
    obtain ⟨htext, rfl⟩ := Edit.askFor_eq_ok_iff.mp hask
    rw [enter_eq_ok henter] at hwalk
    exact hasks computed world₂ key hwalk htext
  · -- all other steps read, also on the way to a write
    rw [step_of_not_key (not_exists.mp hword) (not_exists.mp hcomputed) trail none true]
    exact .same _

mutual

theorem last_agrees (hoff : setup.autoVivify = false) {later : Bool} (trail : Trail) (level : Nat)
    (world : World ε) (token : Token)
    (hasks : (asking host setup (Graph.Expected missing)).Last host setup v later trail level
      world token) :
    Agrees missing (step host setup trail (some v) false level token world)
      (step host setup.vivifying trail (some v) false level token world) := by
  match token with
  -- a step that writes a key makes no maps, whatever the setting
  | .word key =>
    rw [step, step]
    exact .same _
  | .modified word modifiers =>
    rw [step, step, byModified_vivifying]
    exact .same _
  | .collection members =>
    rw [Watch.Last] at hasks
    rw [step, step]
    exact Agrees.bind (alternatives_agree hoff trail level world members hasks)
      fun _ _ _ => .same _
  | .container .call tree =>
    rw [step, step]
    exact .same _
  | .container .evalProperty tree =>
    rw [step, step, walkFrom_vivifying, enter_vivifying]
    exact .same _
  | .container .property tree | .container .quote tree =>
    rw [Watch.Last] at hasks
    rw [step_path_eq, step_path_eq, enter_vivifying]
    · refine Agrees.bind_same fun _ world₁ henter => ?_
      rw [enter_eq_ok henter]
      exact Agrees.bind (walkFrom_agrees hoff trail (level + 1) world tree hasks)
        fun _ _ _ => .same _
    all_goals exact trivial

theorem alternatives_agree (hoff : setup.autoVivify = false) {later : Bool} (trail : Trail)
    (level : Nat) (world : World ε) (members : List Token)
    (hasks : (asking host setup (Graph.Expected missing)).Alternatives host setup v later trail level
      world members) :
    Agrees missing (alternatives host setup trail (some v) level members world)
      (alternatives host setup.vivifying trail (some v) level members world) := by
  match members with
  | [] =>
    rw [alternatives, alternatives]
    exact .same _
  | member :: rest =>
    rw [Watch.Alternatives] at hasks
    have hstep := last_agrees hoff trail (alternativeLevel level member) world member hasks.1
    have hmember : Agrees missing (alternative host setup trail (some v) level member world)
        (alternative host setup.vivifying trail (some v) level member world) :=
      Agrees.bind_same fun _ world₁ henter => by
        rw [enterAlternative_eq_ok henter]
        exact hstep
    rw [alternatives_cons, alternatives_cons]
    refine Agrees.bind hmember fun result world₁ hmember =>
      Agrees.bind_same fun items world₂ hspread => ?_
    rw [(spread_eq_ok hspread).2]
    exact Agrees.bind
      (alternatives_agree hoff trail level world₁ rest (hasks.2 result world₁ hmember))
      fun _ _ _ => .same _

/-- **A write with the setting agrees with the one without**, if the keys that it asks for on its
way are as expected. -/
theorem walkFrom_agrees (hoff : setup.autoVivify = false) {later : Bool} (trail : Trail)
    (level : Nat) (world : World ε) (tokens : List Token)
    (hasks : (asking host setup (Graph.Expected missing)).Way host setup v later trail level world
      tokens) :
    Agrees missing (walkFrom host setup trail (some v) level tokens world)
      (walkFrom host setup.vivifying trail (some v) level tokens world) := by
  match tokens with
  | [] =>
    rw [walkFrom, walkFrom]
    exact .same _
  | token :: rest =>
    rw [Watch.Way] at hasks
    by_cases hempty : rest = []
    · have hlast := last_agrees hoff trail level world token (hasks.1 hempty)
      subst hempty
      rw [walkFrom_last, walkFrom_last]
      exact Agrees.bind hlast fun _ _ _ => .same _
    · obtain ⟨hstep, hnext⟩ := hasks.2 hempty
      rw [walkFrom_cons_some hempty, walkFrom_cons_some hempty, hoff]
      rw [hoff] at hnext
      exact Agrees.bind (step_agrees hstep) fun result world₁ hresult =>
        walkFrom_agrees hoff _ level world₁ rest (hnext result.1 result.2 world₁ hresult)

end

theorem resolveTokens_agrees (hoff : setup.autoVivify = false) {later : Bool} (root : Value)
    (tokens : List Token) (world : World ε)
    (hasks : (asking host setup (Graph.Expected missing)).Way host setup v later ⟨root, []⟩ 0 world
      tokens) :
    Agrees missing (resolveTokens host setup root tokens (some v) world)
      (resolveTokens host setup.vivifying root tokens (some v) world) :=
  Agrees.bind_same fun _ world₁ henter => by
    rw [enter_eq_ok henter]
    exact walkFrom_agrees hoff ⟨root, []⟩ 0 world tokens hasks

end

/-! ## Engines -/

namespace Engine
variable {ε : Type} {engine : Engine} {host : Host ε} {root v : Value} {path : Path}
  {arguments : List Value} {world : World ε} {missing : Prop}

/-- The same engine, with new maps. -/
def vivifying (engine : Engine) : Engine := { engine with settings.autoVivify := true }

/-- **Every key that a write along a path asks for on its way has a property.** -/
def WayAsks (engine : Engine) (host : Host ε) (P : Graph → Value → String → Prop) (root v : Value)
    (path : Path) (arguments : List Value) (world : World ε) : Prop :=
  engine.Watches host (asking host (engine.setup arguments) P) root v path arguments world

/-- Reading a path does not look at the setting. -/
theorem tokenize_vivifying (engine : Engine) (text : String) :
    (engine.vivifying.tokenize text).1 = (engine.tokenize text).1 := by
  unfold tokenize vivifying
  dsimp only
  generalize (if engine.settings.cache then engine.cache.get? text else (none, engine.cache)) = hit
  obtain ⟨hit?, cache⟩ := hit
  cases hit? with
  | some tree => rfl
  | none => cases engine.grammar.tokenize engine.settings.maxDepth text <;> rfl

theorem route_vivifying : (engine.vivifying.route path).1 = (engine.route path).1 := by
  cases path with
  | tokens tokens => rfl
  | text text =>
    have htokenize := engine.tokenize_vivifying text
    have hgrammar : engine.vivifying.grammar = engine.grammar := rfl
    unfold route
    dsimp only
    rw [hgrammar]
    split
    · exact congrArg (Except.map Route.tree) htokenize
    · rfl

theorem follow_agrees (hoff : engine.settings.autoVivify = false) (route : Route)
    (hasks : (asking host (engine.setup arguments) (Graph.Expected missing)).Way host
      (engine.setup arguments) v false ⟨root, []⟩ 0 world
      (route.steps engine.grammar.propertySeparator)) :
    Agrees missing (engine.follow host root (some v) arguments route world)
      (engine.vivifying.follow host root (some v) arguments route world) := by
  cases route with
  | tree tokens => exact resolveTokens_agrees hoff root tokens world hasks
  | flat text =>
    have hwalk := walkFrom_agrees hoff ⟨root, []⟩ 0 world _ hasks
    rw [Route.steps, walkFrom_words, walkFrom_words] at hwalk
    have hgrammar : engine.vivifying.grammar = engine.grammar := rfl
    rw [follow, follow, resolveFlat, resolveFlat, hgrammar]
    cases Flat.emptyAt? 0 (Flat.segments engine.grammar.propertySeparator text.toList) with
    | some position => exact .same _
    | none => exact hwalk

/-- **A write with the setting agrees with the one without**, whichever way the path is given. -/
theorem resolve_agrees (hoff : engine.settings.autoVivify = false)
    (hasks : engine.WayAsks host (Graph.Expected missing) root v path arguments world) :
    Agrees missing ((engine.resolve host root path (some v) arguments).1 world)
      ((engine.vivifying.resolve host root path (some v) arguments).1 world) := by
  rw [resolve_fst, resolve_fst, route_vivifying]
  cases hroute : (engine.route path).1 with
  | error e => exact .same _
  | ok route => exact follow_agrees hoff route (hasks route hroute)

/-- **New maps only take the place of failures**: where no key on the way stands for an intrinsic, a
write that succeeds without them does the same with them, and one that fails does the same, too,
unless a key was missing on its way. -/
theorem resolve_vivifying (hoff : engine.settings.autoVivify = false)
    (hasks : engine.WayAsks host (fun g target key => ¬ g.StandsIn target key) root v path arguments
      world) :
    (∀ w world', (engine.resolve host root path (some v) arguments).1 world = .ok w world' →
      (engine.vivifying.resolve host root path (some v) arguments).1 world = .ok w world') ∧
    (∀ e world', (engine.resolve host root path (some v) arguments).1 world = .error e world' →
      (engine.vivifying.resolve host root path (some v) arguments).1 world = .error e world' ∨
        (∃ key kind, e = .unresolved (.noKey key kind)) ∧
          ¬ engine.WayAsks host (fun g target key => ¬ g.Lacks target key) root v path arguments
            world) := by
  have hweak : Graph.Expected True = fun g target key => ¬ g.StandsIn target key := by
    funext g target key
    exact propext ⟨And.left, fun hstands => ⟨hstands, fun _ => trivial⟩⟩
  have hstrict : Graph.Expected False = fun g target key => ¬ g.Lacks target key := by
    funext g target key
    exact propext ⟨And.right, fun hlacks => ⟨fun hstands => hlacks hstands.1, hlacks⟩⟩
  have hagrees := resolve_agrees hoff (hweak.symm ▸ hasks)
  refine ⟨fun w world' hoffrun => ?_, fun e world' hoffrun => ?_⟩
  · rw [hoffrun] at hagrees
    exact hagrees.eq_ok
  rw [hoffrun] at hagrees
  rcases hagrees.of_error with hsame | ⟨-, hkey⟩
  · exact Or.inl hsame
  by_cases hall : engine.WayAsks host (fun g target key => ¬ g.Lacks target key) root v path
      arguments world
  · -- no key is missing on the way, so there is nothing in which the runs could differ
    have hsame := resolve_agrees hoff (hstrict.symm ▸ hall)
    rw [hoffrun] at hsame
    exact Or.inl (hsame.of_error.resolve_right And.left)
  · exact Or.inr ⟨hkey, hall⟩

/-- A map whose own key is the name of an intrinsic is written into with the setting and without. -/
theorem resolve_vivifying_own_key :
    let document := Graph.addJson {} (.object [("a", .object [("length", .object [])])])
    let world : World Unit := ⟨document.2, ()⟩
    let path : Path := .tokens [.word "a", .word "length", .word "x"]
    let engine : Engine := {}
    engine.settings.autoVivify = false ∧
      engine.WayAsks Host.none (fun g target key => ¬ g.StandsIn target key) document.1
        (.boolean true) path [] world ∧
      ∃ w world', (engine.resolve Host.none document.1 path (some (.boolean true)) []).1 world =
          .ok w world' ∧
        (engine.vivifying.resolve Host.none document.1 path (some (.boolean true)) []).1 world =
          .ok w world' := by
  intro document world path engine
  have hasks : engine.WayAsks Host.none (fun g target key => ¬ g.StandsIn target key) document.1
      (.boolean true) path [] world := by
    intro route hroute
    cases hroute
    rw [Route.steps, Watch.Way]
    refine ⟨by rintro ⟨⟩, fun _ => ⟨fun hstands => ?_, fun result trail₁ world₁ hstep => ?_⟩⟩
    · cases hstands.1.2
    cases hstep
    rw [Watch.Way]
    refine ⟨by rintro ⟨⟩, fun _ => ⟨fun hstands => ?_, fun result trail₁ world₁ hstep => ?_⟩⟩
    · cases hstands.1.2
    cases hstep
    rw [Watch.Way]
    exact ⟨fun _ => trivial, fun hne => absurd rfl hne⟩
  obtain ⟨w, world', hrun⟩ : ∃ w world', (engine.resolve Host.none document.1 path
      (some (.boolean true)) []).1 world = .ok w world' := ⟨_, _, rfl⟩
  exact ⟨rfl, hasks, w, world', hrun, (resolve_vivifying rfl hasks).1 w world' hrun⟩

/-- **A key that stands for an intrinsic is not left alone**: with the setting, a map is put in the
place of a length that is only read on the way. -/
theorem length_on_the_way_is_vivified :
    let world : World Unit := ⟨{ cells := #[.map (.ofList [("a", .integer 1)])] }, ()⟩
    let path : Path := .tokens [.word "length", .modified "a" { parent := 1 }]
    let engine : Engine := {}
    engine.settings.autoVivify = false ∧ ∃ world₁ world₂,
      (engine.resolve Host.none (.container 0) path (some (.integer 9)) []).1 world =
        .ok (.integer 9) world₁ ∧
      (engine.vivifying.resolve Host.none (.container 0) path (some (.integer 9)) []).1 world =
        .ok (.integer 9) world₂ ∧
      world₁.graph.ownKeys (.container 0) = ["a"] ∧
      world₂.graph.ownKeys (.container 0) = ["a", "length"] :=
  ⟨rfl, _, _, rfl, rfl, rfl, rfl⟩

end Engine

end GraphPath
