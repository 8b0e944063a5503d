import GraphPath.Proofs.Engine.Requests
import GraphPath.Proofs.Engine.Shared

/-! # The shared engine without its counter

The shared engine counts the resolutions that are under way, and while there are any it
cannot be configured.  What this comes to can be said without counting, by two kinds of
hosts.

While the shared engine resolves a path, its host is **frozen** (`Frozen.services`).  Such
a host has a grammar and settings once and for all.  All that it keeps is the cache.  Every
request for other options is refused, whether it comes from a function that the resolution
calls, or from one that is called by another engine on the way, and every path is resolved
under the same grammar and the same settings.

As long as the shared engine resolves nothing its host is **idle** (`Idle.services`).  It keeps an
engine, and requests are carried out, those of functions called by other engines included
(`Idle.perform_configure`).  A resolution with the shared engine is one on a host that is frozen
with the grammar and the settings of that moment, and leaves the engine with another cache
(`Idle.resolve`).

**The shared engine is frozen whenever it resolves a path, and idle otherwise**
(`Shared.frozen_while_resolving`), whatever its callers and the functions of the host do,
and however deeply they are nested.
-/

namespace GraphPath

/-! ## Frozen and idle hosts -/

namespace Frozen
variable (grammar : Grammar) (settings : Settings)

/-- The engine of a frozen host, with what it remembers. -/
def engine (cache : Cache TokenTree) : Engine := { grammar, settings, cache }

/-- Resolve a path with the engine of a frozen host. -/
def resolve (host : Host (Cache TokenTree)) (root : Value) (path : Path) (new? : Option Value)
    (arguments : List Value) : Resolve (Cache TokenTree) Value := fun world =>
  let (computation, engine) :=
    (engine grammar settings world.host).resolve host root path new? arguments
  computation { world with host := engine.cache }

/-- **What can be asked of a frozen host**: everything but another configuration. -/
def services (host : Host (Cache TokenTree)) : Services (Cache TokenTree) where
  resolve := resolve grammar settings host
  tokenize path cache :=
    let (tree?, engine) := (engine grammar settings cache).tokenize path
    (tree?, engine.cache)
  consult _ := (grammar, settings)
  configure _ _ := .error (.config .busy)
  functions := host

/-- The frozen host with the given functions, of which `depth` may be running one inside the
other. -/
def host (functions : Functions) : Nat → Host (Cache TokenTree)
  | 0 => Host.none
  | depth + 1 => fun f receiver arguments world =>
    (functions f receiver arguments world.graph).perform
      (services grammar settings (host functions depth)) world

end Frozen

namespace Idle
variable (functions : Functions)

/-- Resolve a path with the engine of an idle host, which is frozen until this is done. -/
def resolve (depth : Nat) (root : Value) (path : Path) (new? : Option Value)
    (arguments : List Value) : Resolve Engine Value := fun world =>
  let engine := world.host
  let frozen := Frozen.host engine.grammar engine.settings functions depth
  resultSeenAs (fun cache => { engine with cache })
    (Frozen.resolve engine.grammar engine.settings frozen root path new? arguments
      ⟨world.graph, engine.cache⟩)

/-- **What can be asked of an idle host.** -/
def services (depth : Nat) (host : Host Engine) : Services Engine where
  resolve := resolve functions depth
  tokenize path engine := engine.tokenize path
  consult engine := (engine.grammar, engine.settings)
  configure options engine := engine.configure options
  functions := host

/-- The idle host with the given functions, as they are called by other engines. -/
def host : Nat → Host Engine
  | 0 => Host.none
  | depth + 1 => fun f receiver arguments world =>
    (functions f receiver arguments world.graph).perform (services functions depth (host depth))
      world

end Idle

/-! ## Programs on views -/

/-- **Services that are a view of others**, whichever of them is asked for. -/
structure Services.SeenAs {ε ε' : Type} (view : ε → ε') (services : Services ε)
    (services' : Services ε') : Prop where
  resolve : ∀ root path new? arguments,
    GraphPath.SeenAs view (services.resolve root path new? arguments)
      (services'.resolve root path new? arguments)
  tokenize : ∀ path host, services'.tokenize path (view host) =
    ((services.tokenize path host).1, view (services.tokenize path host).2)
  consult : ∀ host, services'.consult (view host) = services.consult host
  configure : ∀ options host,
    services'.configure options (view host) = (services.configure options host).map view
  functions : ∀ f receiver arguments,
    GraphPath.SeenAs view (services.functions f receiver arguments)
      (services'.functions f receiver arguments)

/-- Which way a path goes does not depend on the host. -/
theorem Engine.resolve_snd_eq {ε ε' : Type} (engine : Engine) (host : Host ε) (host' : Host ε')
    (root : Value) (path : Path) (new? : Option Value) (arguments : List Value) :
    (engine.resolve host root path new? arguments).2 =
      (engine.resolve host' root path new? arguments).2 := by
  unfold Engine.resolve
  dsimp only
  split <;> rfl

theorem SeenAs.outcome {ε ε' α : Type} {view : ε → ε'} {x : Resolve ε α} {y : Resolve ε' α}
    (hview : SeenAs view x y) (graph : Graph) :
    SeenAs view (GraphPath.outcome graph x) (GraphPath.outcome graph y) := by
  intro world
  have hrun : y { world.seenAs view with graph } = resultSeenAs view (x { world with graph }) :=
    hview { world with graph }
  unfold GraphPath.outcome
  rw [hrun]
  cases x { world with graph } <;> rfl

/-- **A program does the same with services that are a view of others.** -/
theorem Program.perform_seenAs {ε ε' : Type} {view : ε → ε'} {services : Services ε}
    {services' : Services ε'} (hview : services.SeenAs view services') (program : Program) :
    SeenAs view (program.perform services) (program.perform services') := by
  induction program with
  | done graph result =>
    intro world
    cases result <;> rfl
  | get graph root path arguments next ih =>
    exact ((hview.resolve root path none arguments).outcome graph).bind fun answer =>
      ih answer.1.toOption answer.2
  | set graph root path new arguments next ih =>
    exact ((hview.resolve root path (some new) arguments).outcome graph).bind fun answer =>
      ih answer.1.isOk answer.2
  | tokenize graph path next ih =>
    intro world
    have htokenize : services'.tokenize path (world.seenAs view).host = _ :=
      hview.tokenize path world.host
    rw [perform_tokenize, perform_tokenize, htokenize]
    exact ih _ ⟨graph, (services.tokenize path world.host).2⟩
  | consult graph next ih =>
    intro world
    have hconsult : services'.consult (world.seenAs view).host = _ := hview.consult world.host
    rw [perform_consult, perform_consult, hconsult]
    exact ih _ _ ⟨graph, world.host⟩
  | configure graph options next ih =>
    intro world
    have hconfigure := hview.configure options world.host
    cases h : services.configure options world.host with
    | ok host =>
      rw [h] at hconfigure
      rw [perform_configure_of_ok h, perform_configure_of_ok hconfigure]
      exact ih _ ⟨graph, host⟩
    | error e =>
      rw [h] at hconfigure
      rw [perform_configure_of_error h, perform_configure_of_error hconfigure]
      exact ih _ ⟨graph, world.host⟩
  | elsewhere graph engine root path new? arguments next ih =>
    have hfirst := Engine.resolve_seenAs hview.functions engine root path new? arguments
    rw [perform, perform]
    dsimp only
    rw [engine.resolve_snd_eq services'.functions services.functions]
    exact (hfirst.outcome graph).bind fun answer => ih answer.1 _ answer.2

/-! ## While the shared engine resolves -/

namespace Frozen
variable {grammar : Grammar} {settings : Settings}

/-- The shared engine as it is kept by a frozen host, with so many resolutions under way. -/
def shared (grammar : Grammar) (settings : Settings) (running : Nat) (cache : Cache TokenTree) :
    Shared where
  engine := engine grammar settings cache
  running

/-- Resolving a path changes nothing of an engine but its cache. -/
theorem resolve_snd {ε : Type} (host : Host ε) (engine : Engine) (root : Value) (path : Path)
    (new? : Option Value) (arguments : List Value) :
    ∃ cache, (engine.resolve host root path new? arguments).2 = { engine with cache } := by
  rcases Engine.resolve_snd host root path new? arguments with h | ⟨text, h⟩
  · exact ⟨engine.cache, h⟩
  · obtain ⟨cache, hcache⟩ := engine.tokenize_snd text
    exact ⟨cache, h.trans hcache⟩

/-- A resolution that is under way is counted, and no longer counted when it is over. -/
theorem whileBusy_shared {running : Nat} {graph : Graph} {cache : Cache TokenTree}
    {x : Resolve Shared Value} {result : EStateM.Result PathError (World (Cache TokenTree)) Value}
    (hx : x ⟨graph, shared grammar settings (running + 1) cache⟩ =
      resultSeenAs (shared grammar settings (running + 1)) result) :
    Shared.whileBusy x ⟨graph, shared grammar settings running cache⟩ =
      resultSeenAs (shared grammar settings running) result := by
  have hrun : x { graph, host := { shared grammar settings running cache with
      running := (shared grammar settings running cache).running + 1 } } = _ := hx
  unfold Shared.whileBusy
  dsimp only
  rw [hrun]
  cases result <;> rfl

/-- **A resolution with the shared engine is frozen**, if the functions that it calls are. -/
theorem resolve_seenAs {host : Host (Cache TokenTree)} {host' : Host Shared} {running : Nat}
    (hhost : ∀ f receiver arguments, SeenAs (shared grammar settings (running + 1))
      (host f receiver arguments) (host' f receiver arguments)) (root : Value) (path : Path)
    (new? : Option Value) (arguments : List Value) :
    SeenAs (shared grammar settings running)
      (resolve grammar settings host root path new? arguments)
      (Shared.resolve host' root path new? arguments) := by
  intro world
  let now := engine grammar settings world.host
  obtain ⟨cache, hcache⟩ := resolve_snd host now root path new? arguments
  have hcache' := (now.resolve_snd_eq host' host root path new? arguments).trans hcache
  have hview := Engine.resolve_seenAs hhost now root path new? arguments ⟨world.graph, cache⟩
  show Shared.whileBusy (now.resolve host' root path new? arguments).1
      ⟨world.graph, ⟨(now.resolve host' root path new? arguments).2, running⟩⟩ =
    resultSeenAs _ ((now.resolve host root path new? arguments).1
      ⟨world.graph, (now.resolve host root path new? arguments).2.cache⟩)
  -- the path has been read by now, and from here on the two engines have the same cache
  rw [hcache, hcache']
  exact whileBusy_shared hview

/-- The services of the shared engine, with so many resolutions under way, are frozen ones. -/
theorem services_seenAs {host : Host (Cache TokenTree)} {host' : Host Shared} {running : Nat}
    (hhost : ∀ running f receiver arguments, SeenAs (shared grammar settings (running + 1))
      (host f receiver arguments) (host' f receiver arguments)) :
    (services grammar settings host).SeenAs (shared grammar settings (running + 1))
      (Shared.services host') where
  resolve := resolve_seenAs (hhost (running + 1))
  tokenize path cache := by
    obtain ⟨cache', hcache⟩ := (engine grammar settings cache).tokenize_snd path
    show (((engine grammar settings cache).tokenize path).1,
        (⟨((engine grammar settings cache).tokenize path).2, running + 1⟩ : Shared)) =
      (((engine grammar settings cache).tokenize path).1,
        shared grammar settings (running + 1)
          ((engine grammar settings cache).tokenize path).2.cache)
    rw [hcache]
    rfl
  consult _ := rfl
  -- one resolution at least is under way, which is why every request is refused
  configure _ _ := rfl
  functions := hhost running

theorem host_seenAs (functions : Functions) (depth : Nat) :
    ∀ running f receiver arguments, SeenAs (shared grammar settings (running + 1))
      (host grammar settings functions depth f receiver arguments)
      (Shared.host functions depth f receiver arguments) := by
  induction depth with
  | zero => exact fun _ _ _ _ => SeenAs.throw _
  | succ depth ih =>
    -- the functions inside may be called with more resolutions under way than this one
    intro running f receiver arguments world
    exact Program.perform_seenAs (services_seenAs ih) _ world

end Frozen

/-! ## While it does not -/

/-- A view of a view. -/
theorem resultSeenAs_resultSeenAs {ε ε' ε'' α : Type} (view : ε → ε') (view' : ε' → ε'')
    (result : EStateM.Result PathError (World ε) α) :
    resultSeenAs view' (resultSeenAs view result) = resultSeenAs (view' ∘ view) result := by
  cases result <;> rfl

namespace Idle
variable {functions : Functions}

/-- The shared engine as it is kept by an idle host, with no resolution under way. -/
def shared (engine : Engine) : Shared where
  engine
  running := 0

/-- A resolution with the idle engine is one that is frozen as the engine is then. -/
theorem resolve_seenAs (depth : Nat) (root : Value) (path : Path) (new? : Option Value)
    (arguments : List Value) :
    SeenAs shared (resolve functions depth root path new? arguments)
      (Shared.resolve (Shared.host functions depth) root path new? arguments) := by
  intro world
  obtain ⟨graph, engine⟩ := world
  have hhost : ∀ f receiver arguments,
      SeenAs (Frozen.shared engine.grammar engine.settings 1) _ _ :=
    Frozen.host_seenAs functions depth 0
  -- first the frozen host is seen as an idle engine, then this one as the shared engine
  show _ = resultSeenAs shared (resultSeenAs _ _)
  rw [resultSeenAs_resultSeenAs]
  exact Frozen.resolve_seenAs hhost root path new? arguments ⟨graph, engine.cache⟩

theorem services_seenAs {depth : Nat} {host : Host Engine}
    (hhost : ∀ f receiver arguments, SeenAs shared (host f receiver arguments)
      (Shared.host functions depth f receiver arguments)) :
    (services functions depth host).SeenAs shared
      (Shared.services (Shared.host functions depth)) where
  resolve := resolve_seenAs depth
  tokenize _ _ := rfl
  consult _ := rfl
  configure _ _ := rfl
  functions := hhost

theorem host_seenAs (functions : Functions) (depth : Nat) :
    ∀ f receiver arguments, SeenAs shared (host functions depth f receiver arguments)
      (Shared.host functions depth f receiver arguments) := by
  induction depth with
  | zero => exact fun _ _ _ => SeenAs.throw _
  | succ depth ih =>
    intro f receiver arguments world
    exact Program.perform_seenAs (services_seenAs ih) _ world

/-- **An acceptable request to an idle host takes effect**: the program goes on with an engine that
has everything that was mentioned. -/
theorem perform_configure {depth : Nat} {host : Host Engine} {options : Options}
    {engine after : Engine} (h : engine.configure options = .ok after) (graph before : Graph)
    (next : Except PathError Unit → Program) :
    (Program.configure graph options next).perform (services functions depth host)
          ⟨before, engine⟩ =
        (next (.ok ())).perform (services functions depth host) ⟨graph, after⟩ ∧
      Engine.Granted options after :=
  ⟨Program.perform_configure_of_ok h, Engine.granted_of_configure h⟩

end Idle

/-- **The shared engine is frozen while it resolves a path, and idle otherwise.**  A resolution with
it, even one within others, is one on a host that refuses every request and keeps the grammar and
the settings of when it began.  A session with it, in which other engines may call functions too, is
one on a host that carries requests out and keeps nothing but the engine. -/
theorem Shared.frozen_while_resolving (functions : Functions) (depth : Nat) :
    (∀ (root : Value) (path : Path) (new? : Option Value) (arguments : List Value) (engine : Engine)
      (running : Nat) (graph : Graph),
      let ⟨grammar, settings, cache⟩ := engine
      let frozen := Frozen.host grammar settings functions depth
      Shared.resolve (Shared.host functions depth) root path new? arguments
          ⟨graph, { engine, running }⟩ =
        resultSeenAs (Frozen.shared grammar settings running)
          (Frozen.resolve grammar settings frozen root path new? arguments ⟨graph, cache⟩)) ∧
    ∀ (session : Program) (engine : Engine) (graph : Graph),
      session.perform (Shared.services (Shared.host functions depth)) ⟨graph, Idle.shared engine⟩ =
        resultSeenAs Idle.shared
          (session.perform (Idle.services functions depth (Idle.host functions depth))
            ⟨graph, engine⟩) := by
  refine ⟨?_, ?_⟩
  · rintro root path new? arguments ⟨grammar, settings, cache⟩ running graph
    exact Frozen.resolve_seenAs (Frozen.host_seenAs functions depth running) root path new?
      arguments ⟨graph, cache⟩
  · intro session engine graph
    exact Program.perform_seenAs (Idle.services_seenAs (Idle.host_seenAs functions depth)) session
      ⟨graph, engine⟩

/-- A function that asks for a depth of 3 is refused when the shared engine calls it, and obeyed
when another engine does. -/
theorem Shared.refused_here_and_obeyed_elsewhere :
    let functions : Functions := fun _ _ _ graph =>
      .configure graph { maxDepth? := some 3 } fun _ => .done graph (.ok .null)
    let graph : Graph := { cells := #[.map (.ofList [("f", .callable ⟨.host "f", 0⟩)])] }
    let path : Path := .tokens [.word "f", .container .call []]
    let services := Shared.services (Shared.host functions 1)
    let here : Program := .get graph (.container 0) path [] fun _ graph => .done graph (.ok .null)
    let elsewhere : Program :=
      .elsewhere graph {} (.container 0) path none [] fun result _ graph => .done graph result
    (worldAfter (here.perform services ⟨graph, {}⟩)).host.engine.settings.maxDepth = 256 ∧
      (worldAfter (elsewhere.perform services ⟨graph, {}⟩)).host.engine.settings.maxDepth = 3 := by
  decide +kernel

end GraphPath
