import GraphPath.Proofs.Engine.Run
import GraphPath.Proofs.Resolve.HostState
import GraphPath.Shared

/-! # Runs of the shared engine

The shared engine is used by host functions while it is resolving a path.  That makes
no difference to what it can become: a resolution reads its own path before it calls
any function, so what the functions ask of the engine comes after that, one operation
behind the other.  Whatever functions there are, **a resolution with the shared engine
is a run of it** (`resolve_uses`), and all that holds of engines after a run holds of
the shared one.
-/

namespace GraphPath

/-! ## Programs -/

/-- **The services lead the state of the host** along a relation, whichever of them is asked for. -/
structure Services.Lead {ε : Type} (R : ε → ε → Prop) (services : Services ε) : Prop where
  resolve : ∀ root path new? arguments, Leads R (services.resolve root path new? arguments)
  tokenize : ∀ path host, R host (services.tokenize path host).2
  configure : ∀ {options host host'}, services.configure options host = .ok host' → R host host'
  functions : ∀ f receiver arguments, Leads R (services.functions f receiver arguments)

section
variable {ε : Type} {services : Services ε} {world : World ε} {graph : Graph} {options : Options}
  {path : String}

theorem Program.perform_tokenize {next : Option TokenTree → Program} :
    (tokenize graph path next).perform services world =
      (next (services.tokenize path world.host).1.toOption).perform services
        ⟨graph, (services.tokenize path world.host).2⟩ := rfl

theorem Program.perform_consult {next : Grammar → Settings → Program} :
    (consult graph next).perform services world =
      (next (services.consult world.host).1 (services.consult world.host).2).perform services
        ⟨graph, world.host⟩ := rfl

/-- A request that is accepted. -/
theorem Program.perform_configure_of_ok {next : Except PathError Unit → Program} {host : ε}
    (h : services.configure options world.host = .ok host) :
    (configure graph options next).perform services world =
      (next (.ok ())).perform services ⟨graph, host⟩ := by
  rw [perform]
  dsimp only
  rw [h]

/-- A request that is rejected. -/
theorem Program.perform_configure_of_error {next : Except PathError Unit → Program} {e : PathError}
    (h : services.configure options world.host = .error e) :
    (configure graph options next).perform services world =
      (next (.error e)).perform services ⟨graph, world.host⟩ := by
  rw [perform]
  dsimp only
  rw [h]

end

theorem Leads.outcome {ε α : Type} {R : ε → ε → Prop} {x : Resolve ε α} (hx : Leads R x)
    (graph : Graph) : Leads R (outcome graph x) := by
  intro world
  have hrun := hx { world with graph }
  unfold GraphPath.outcome
  cases h : x { world with graph } <;> rw [h] at hrun <;> exact hrun

/-- A program leads the state of the host as often as it asks. -/
theorem Program.perform_leads {ε : Type} {R : ε → ε → Prop} (hR : IsPreorder R)
    {services : Services ε} (hservices : services.Lead R) (program : Program) :
    Leads R (program.perform services) := by
  induction program with
  | done graph result =>
    intro world
    cases result <;> exact hR.refl world.host
  | get graph root path arguments next ih =>
    exact Leads.bind hR ((hservices.resolve root path none arguments).outcome graph)
      fun answer => ih answer.1.toOption answer.2
  | set graph root path new arguments next ih =>
    exact Leads.bind hR ((hservices.resolve root path (some new) arguments).outcome graph)
      fun answer => ih answer.1.isOk answer.2
  | tokenize graph path next ih =>
    intro world
    rw [perform_tokenize]
    exact hR.trans (hservices.tokenize path world.host) (ih _ ⟨graph, _⟩)
  | consult graph next ih =>
    intro world
    rw [perform_consult]
    exact ih _ _ ⟨graph, world.host⟩
  | configure graph options next ih =>
    intro world
    cases h : services.configure options world.host with
    | ok host =>
      rw [perform_configure_of_ok h]
      exact hR.trans (hservices.configure h) (ih _ ⟨graph, host⟩)
    | error e =>
      rw [perform_configure_of_error h]
      exact ih _ ⟨graph, world.host⟩
  | elsewhere graph engine root path new? arguments next ih =>
    have hfirst := Engine.resolve_leads hR hservices.functions engine root path new? arguments
    exact Leads.bind hR (hfirst.outcome graph) fun answer => ih answer.1 _ answer.2

namespace Shared
variable {before after : Shared}

/-! ## Uses of the shared engine -/

/-- **The shared engine has been used**: its engine has made a run, and what was under way then
is under way still. -/
structure Uses (before after : Shared) : Prop where
  /-- As many resolutions are under way. -/
  running : after.running = before.running
  /-- The engine has made a run. -/
  run : ∃ ops : List (Operation Shared), after.engine = before.engine.run ops

theorem uses_isPreorder : IsPreorder Uses where
  refl _ := ⟨rfl, [], rfl⟩
  trans := by
    rintro s₁ s₂ s₃ ⟨hrunning, ops, hrun⟩ ⟨hrunning', ops', hrun'⟩
    refine ⟨hrunning'.trans hrunning, ops ++ ops', ?_⟩
    rw [hrun', hrun, Engine.run_append]

theorem Uses.configure {options : Options} (h : before.configure options = .ok after) :
    Uses before after := by
  unfold Shared.configure at h
  split at h
  · cases h
  · cases hengine : before.engine.configure options with
    | error e =>
      rw [hengine] at h
      cases h
    | ok engine =>
      rw [hengine] at h
      cases h
      have hafter : before.engine.after (.configure options : Operation Shared) = engine :=
        Engine.after_configure hengine
      exact ⟨rfl, [.configure options], hafter.symm⟩

theorem whileBusy_uses {α : Type} {x : Resolve Shared α} (hx : Leads Uses x) :
    Leads Uses (whileBusy x) := by
  intro world
  have huses := hx { world with host.running := world.host.running + 1 }
  unfold whileBusy
  dsimp only
  cases h : x { world with host.running := world.host.running + 1 } <;> rw [h] at huses <;>
    exact ⟨rfl, huses.run⟩

theorem resolve_uses_of {host : Host Shared}
    (hhost : ∀ f receiver arguments, Leads Uses (host f receiver arguments)) (root : Value)
    (path : Path) (new? : Option Value) (arguments : List Value) :
    Leads Uses (resolve host root path new? arguments) := by
  intro world
  have hroute : Uses world.host
      { world.host with engine := (world.host.engine.resolve host root path new? arguments).2 } :=
    ⟨rfl, [.resolve host root path new? arguments], rfl⟩
  have hrest := whileBusy_uses
    (Engine.resolve_leads uses_isPreorder hhost world.host.engine root path new? arguments)
  exact uses_isPreorder.trans hroute (hrest { world with host.engine := _ })

theorem services_lead {host : Host Shared}
    (hhost : ∀ f receiver arguments, Leads Uses (host f receiver arguments)) :
    (services host).Lead Uses where
  resolve := resolve_uses_of hhost
  tokenize path _ := ⟨rfl, [.tokenize path], rfl⟩
  configure h := Uses.configure h
  functions := hhost

theorem host_uses (functions : Functions) (depth : Nat) :
    ∀ f receiver arguments, Leads Uses (host functions depth f receiver arguments) := by
  induction depth with
  | zero => exact fun _ _ _ => Leads.throw uses_isPreorder _
  | succ depth ih =>
    intro f receiver arguments world
    exact Program.perform_leads uses_isPreorder (services_lead ih) _ world

/-- **A resolution with the shared engine is a run of it**, whatever host functions it calls and
whatever they ask of the engine. -/
theorem resolve_uses (functions : Functions) (depth : Nat) (root : Value) (path : Path)
    (new? : Option Value) (arguments : List Value) :
    Leads Uses (resolve (host functions depth) root path new? arguments) :=
  resolve_uses_of (host_uses functions depth) root path new? arguments

end Shared

end GraphPath
