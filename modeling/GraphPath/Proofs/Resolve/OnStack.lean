import GraphPath.Proofs.Resolve.HostState

/-! # Resolving on a stack

The trail of a walk can be kept in another way: as the value that the walk has come to, its
**context**, and next to it a **stack** of all values that it has passed, the oldest first and the
context last.  A step puts its result on top, a walk inside a step begins with a copy of both, and
a root modifier cuts the stack down to its first value.  Values are taken from a stack by their
index, counted from the oldest, with nothing in between that would keep an index from being wrong
(`look`).

`OnStack.resolve` resolves a token tree in this way.  It also keeps a record (`Recorded`): of every
step of every walk, with what it was taken with and what came of it (`Visit`), and of every index
that was looked at (`Access`).  The host does not know of the record, and nothing depends on it.
**No step is missing from it**: what a resolution that succeeds has on record are the steps by all
tokens of the tree, at any depth (`OnStack.tokens_of_resolve`).
-/

namespace GraphPath

/-! ## Records -/

/-- What a step is taken with. -/
structure Entry where
  /-- The value that the walk has come to. -/
  context : Value
  /-- The values that it has passed, the oldest first. -/
  stack : List Value
  /-- What the step writes, if it does. -/
  new? : Option Value
  /-- Whether the step may make what is missing. -/
  vivify : Bool
  /-- How deep the walk is nested. -/
  level : Nat
  /-- The token. -/
  token : Token

/-- A step that has been taken. -/
structure Visit (ε : Type) extends Entry where
  /-- The world in front of it. -/
  before : World ε
  /-- What came of it, with the world that it left. -/
  result : EStateM.Result PathError (World ε) Value

/-- A look at an index of a stack. -/
structure Access where
  /-- The stack. -/
  stack : List Value
  /-- The index, as it was worked out. -/
  index : Int

/-- **What a host keeps, and next to it a record** of a resolution, the latest first. -/
structure Recorded (ε : Type) where
  /-- What the host keeps. -/
  host : ε
  /-- The steps of all walks. -/
  visits : List (Visit ε) := []
  /-- The looks at their stacks. -/
  accesses : List Access := []

section
variable {ε : Type}

/-- A world with nothing recorded yet. -/
def World.unrecorded (world : World ε) : World (Recorded ε) := ⟨world.graph, { host := world.host }⟩

/-- A host that keeps a record aside while its functions are called. -/
def Host.recorded (host : Host ε) : Host (Recorded ε) := fun f receiver arguments world =>
  let keep (after : World ε) : World (Recorded ε) :=
    ⟨after.graph, { world.host with host := after.host }⟩
  match host f receiver arguments (world.seenAs Recorded.host) with
  | .ok v after => .ok v (keep after)
  | .error e after => .error e (keep after)

/-- Take the value at an index of a stack. -/
def look (stack : List Value) (index : Int) : Resolve (Recorded ε) Value := fun world =>
  .ok (stack[index.toNat]?.getD .null)
    { world with host.accesses := ⟨stack, index⟩ :: world.host.accesses }

/-- Record a step when it is over. -/
def World.record (entry : Entry) (before : World (Recorded ε))
    (result : EStateM.Result PathError (World ε) Value) (after : World (Recorded ε)) :
    World (Recorded ε) :=
  { after with
    host.visits :=
      { entry with before := before.seenAs Recorded.host, result } :: after.host.visits }

/-- **Take a step, and record it**, whether it succeeds or fails. -/
def visit (entry : Entry) (step : Resolve (Recorded ε) (Value × List Value)) :
    Resolve (Recorded ε) (Value × List Value) := fun before =>
  match step before with
  | .ok (v, stack) after =>
    .ok (v, stack) (before.record entry (.ok v (after.seenAs Recorded.host)) after)
  | .error e after =>
    .error e (before.record entry (.error e (after.seenAs Recorded.host)) after)

/-! ## Walks -/

/-- What a modified word does on the value that its modifiers lead to: it finds out its key, and
works with the two. -/
def Step.onTarget (setup : Setup) (target : Value) (word : String) (modifiers : Modifiers)
    (new? : Option Value) : Edit Value := do
  let key ← Edit.askFor fun g => setup.finalKey g word modifiers
  withKey setup target key modifiers new?

namespace OnStack

/-- The value that parent modifiers lead to. -/
def back (context : Value) (stack : List Value) (parent : Nat) : Resolve (Recorded ε) Value :=
  if 0 < parent then
    if stack.length ≤ parent then throw (.unresolved (.parentPastRoot parent))
    else look stack (stack.length - 1 - parent)
  else pure context

/-- The value that parent and root modifiers lead to, and the stack to go on with. -/
def select (context : Value) (stack : List Value) (modifiers : Modifiers) :
    Resolve (Recorded ε) (Value × List Value) := do
  let target ← back context stack modifiers.parent
  if 0 < modifiers.root then
    let first ← look (stack.take 1) 0
    pure (first, stack.take 1)
  else pure (target, stack)

/-- The receiver of a call: the value in front of the context. -/
def receiver (stack : List Value) : Resolve (Recorded ε) Value :=
  if 2 ≤ stack.length then look stack (stack.length - 2) else pure .null

variable (host : Host ε) (setup : Setup)

mutual

/-- Resolve one token: the result, and the stack to put it on. -/
def step (context : Value) (stack : List Value) (new? : Option Value) (vivify : Bool)
    (level : Nat) : Token → Resolve (Recorded ε) (Value × List Value)
  | .word key => do
    let result ← (Step.byKey context key new? vivify).run
    pure (result, stack)
  | .modified word modifiers => do
    let (target, stack) ← select context stack modifiers
    let result ← (Step.onTarget setup target word modifiers new?).run
    pure (result, stack)
  | .collection members => do
    let results ← alternatives context stack new? level members
    let result ← (Edit.make fun g => g.newList results).run
    pure (result, stack)
  | .container .call tree => do
    if new?.isSome then throw (.unresolved .writeToCall)
    match context with
    | .callable f => do
      let arguments ←
        if tree.isEmpty then pure []
        else do
          enter setup tree (level + 1)
          spread (← walkFrom context stack none (level + 1) tree)
      let receiver ← receiver stack
      let result ← call host.recorded f receiver arguments
      pure (result, stack)
    | v => do
      let kind ← (Edit.ask fun g => g.kind v).run
      throw (.uncallable (.notCallable kind))
  | .container .evalProperty tree => do
    enter setup tree (level + 1)
    let computed ← walkFrom context stack none (level + 1) tree
    let key ← (Edit.askFor fun g => g.toKey computed).run
    let result ← (Step.byKey context key new? vivify).run
    pure (result, stack)
  | .container _ tree => do
    enter setup tree (level + 1)
    let result ← walkFrom context stack new? (level + 1) tree
    pure (result, stack)

/-- Resolve the alternatives of a collection, each with its own copy of the stack.  A word among
them, a call or a collection is a walk of one step. -/
def alternatives (context : Value) (stack : List Value) (new? : Option Value) (level : Nat) :
    List Token → Resolve (Recorded ε) (List Value)
  | [] => pure []
  | member :: rest => do
    let (result, _) ←
      match member with
      | .container .call _ | .word _ | .modified _ _ | .collection _ => do
        enter setup [member] (level + 1)
        visit ⟨context, stack, new?, false, level + 1, member⟩
          (step context stack new? false (level + 1) member)
      | .container _ _ => step context stack new? false level member
    let results ← spread result
    let others ← alternatives context stack new? level rest
    pure (results ++ others)

/-- Take the remaining steps of a walk.  Each puts its result on the stack, and goes on from it. -/
def walkFrom (context : Value) (stack : List Value) (new? : Option Value) (level : Nat) :
    List Token → Resolve (Recorded ε) Value
  | [] => pure context
  | token :: rest => do
    let last := rest.isEmpty
    let write := if last then new? else none
    let vivify := setup.autoVivify && new?.isSome && !last
    let (result, stack) ←
      visit ⟨context, stack, write, vivify, level, token⟩
        (step context stack write vivify level token)
    walkFrom result (stack ++ [result]) new? level rest

end

/-- One alternative of a collection.  A bracket of its own makes its own walk, anything else is
one. -/
def alternative (context : Value) (stack : List Value) (new? : Option Value) (level : Nat)
    (member : Token) : Resolve (Recorded ε) (Value × List Value) := do
  enterAlternative setup level member
  let inside := alternativeLevel level member
  match member with
  | .container .call _ | .word _ | .modified _ _ | .collection _ =>
    visit ⟨context, stack, new?, false, inside, member⟩
      (step host setup context stack new? false inside member)
  | .container _ _ => step host setup context stack new? false inside member

/-- The arguments of a call. -/
def callArguments (context : Value) (stack : List Value) (level : Nat) (tree : List Token) :
    Resolve (Recorded ε) (List Value) :=
  if tree.isEmpty then pure []
  else do
    enter setup tree (level + 1)
    let interior ← walkFrom host setup context stack none (level + 1) tree
    spread interior

/-- **Resolve a token tree on a stack**, which begins with nothing but the root on it. -/
def resolve (root : Value) (tokens : List Token) (new? : Option Value) :
    Resolve (Recorded ε) Value := do
  enter setup tokens 0
  walkFrom host setup root [root] new? 0 tokens

/-! ## Equations -/

section
variable {host setup} {context : Value} {stack : List Value} {new? : Option Value} {vivify : Bool}
  {level : Nat} {tree : List Token}

theorem alternatives_cons (member : Token) (rest : List Token) :
    alternatives host setup context stack new? level (member :: rest) = (do
      let result ← alternative host setup context stack new? level member
      let results ← spread result.1
      let others ← alternatives host setup context stack new? level rest
      pure (results ++ others)) := by
  rw [alternatives.eq_def]
  dsimp only
  unfold alternative enterAlternative alternativeLevel
  split <;> simp only [bind_assoc, pure_bind]

theorem step_call_callable {f : Callable} :
    step host setup (.callable f) stack none vivify level (.container .call tree) = (do
      let arguments ← callArguments host setup (.callable f) stack level tree
      let receiver ← receiver stack
      let result ← call host.recorded f receiver arguments
      pure (result, stack)) := by
  rw [step]
  dsimp only [Option.isSome_none]
  rw [if_neg Bool.false_ne_true]
  unfold callArguments
  split
  · rfl
  · simp only [bind_assoc]

/-- What is no callable cannot be called. -/
theorem step_call_of_not_callable (hcontext : ∀ f, context ≠ .callable f) :
    step host setup context stack none vivify level (.container .call tree) = (do
      let kind ← (Edit.ask fun g => g.kind context).run
      throw (.uncallable (.notCallable kind))) := by
  rw [step.eq_def]
  cases context with
  | callable f => exact absurd rfl (hcontext f)
  | _ => rfl

theorem step_call_some (v : Value) :
    step host setup context stack (some v) vivify level (.container .call tree) =
      throw (.unresolved .writeToCall) := by
  rw [step.eq_def]
  rfl

theorem step_path_eq {role : ContainerRole} (hrole : role.IsPath) :
    step host setup context stack new? vivify level (.container role tree) = (do
      enter setup tree (level + 1)
      let result ← walkFrom host setup context stack new? (level + 1) tree
      pure (result, stack)) := by
  cases role with
  | call | evalProperty => cases hrole
  | property | quote =>
    rw [step]
    · simp
    · simp

end

end OnStack

/-! ## The steps on record -/

/-- The step by an alternative of a collection itself.  A bracket makes its own walk without one. -/
def Token.ownStep : Token → List Token
  | .container .call tree => [.container .call tree]
  | .container _ _ => []
  | member => [member]

mutual

/-- The tokens by which steps are taken inside a step by this one, in the order in which the steps
end. -/
def Token.stepsInside : Token → List Token
  | .word _ | .modified _ _ => []
  | .container _ tree => Token.stepsAlong tree
  | .collection members => Token.stepsAmong members

/-- The tokens by which steps are taken along a walk, at any depth. -/
def Token.stepsAlong : List Token → List Token
  | [] => []
  | token :: rest => token.stepsInside ++ token :: Token.stepsAlong rest

/-- The tokens by which steps are taken for the alternatives of a collection. -/
def Token.stepsAmong : List Token → List Token
  | [] => []
  | member :: rest => member.stepsInside ++ member.ownStep ++ Token.stepsAmong rest

end

/-- The tokens of the steps on record, in the order in which the steps have ended. -/
def Recorded.tokens (record : Recorded ε) : List Token := record.visits.reverse.map (·.token)

/-- **A computation takes steps by these tokens** if it succeeds, and no others. -/
def Takes (tokens : List Token) {α : Type} (x : Resolve (Recorded ε) α) : Prop :=
  ∀ world a after, x world = .ok a after → after.host.tokens = world.host.tokens ++ tokens

namespace Takes
variable {α β : Type} {tokens tokens' : List Token} {x : Resolve (Recorded ε) α}
  {f : α → Resolve (Recorded ε) β}

protected theorem pure (a : α) : Takes [] (pure a : Resolve (Recorded ε) α) := by
  rintro world _ _ ⟨⟩
  rw [List.append_nil]

protected theorem throw (e : PathError) : Takes tokens (throw e : Resolve (Recorded ε) α) := by
  rintro world a after ⟨⟩

protected theorem bind (hx : Takes tokens x) (hf : ∀ a, Takes tokens' (f a)) :
    Takes (tokens ++ tokens') (x >>= f) := by
  intro world b after h
  obtain ⟨a, between, hfirst, hsecond⟩ := exists_of_bind_ok h
  rw [hf a between b after hsecond, hx world a between hfirst, List.append_assoc]

/-- Something in front that takes no step. -/
theorem behind (hx : Takes [] x) (hf : ∀ a, Takes tokens (f a)) : Takes tokens (x >>= f) :=
  hx.bind hf

/-- Something behind that takes no step. -/
theorem inFront (hx : Takes tokens x) (hf : ∀ a, Takes [] (f a)) : Takes tokens (x >>= f) := by
  have hbind := hx.bind hf
  rwa [List.append_nil] at hbind

protected theorem run (edit : Edit α) : Takes [] (edit.run : Resolve (Recorded ε) α) := by
  intro world a after h
  unfold Edit.run at h
  split at h
  · cases h
    rw [List.append_nil]
  · cases h

theorem look (stack : List Value) (index : Int) :
    Takes [] (GraphPath.look stack index : Resolve (Recorded ε) Value) := by
  rintro world _ _ ⟨⟩
  rw [List.append_nil]
  rfl

theorem enter (setup : Setup) (tree : List Token) (level : Nat) :
    Takes [] (GraphPath.enter setup tree level : Resolve (Recorded ε) Unit) := by
  unfold GraphPath.enter
  split
  · exact .throw _
  · split
    · exact .throw _
    · exact .pure ()

theorem call (host : Host ε) (function : Callable) (receiver : Value) (arguments : List Value) :
    Takes [] (GraphPath.call host.recorded function receiver arguments) := by
  unfold GraphPath.call
  split
  · exact .run _
  · intro world v after h
    unfold Host.recorded at h
    split at h
    · cases h
      rw [List.append_nil]
      rfl
    · cases h

/-- A step that is recorded comes behind the steps inside it. -/
theorem visit {entry : Entry} {step : Resolve (Recorded ε) (Value × List Value)}
    (hstep : Takes entry.token.stepsInside step) :
    Takes (entry.token.stepsInside ++ [entry.token]) (GraphPath.visit entry step) := by
  intro world result after h
  unfold GraphPath.visit at h
  split at h
  · rename_i v stack between hworld
    cases h
    have hinside := hstep world _ between hworld
    unfold Recorded.tokens at hinside ⊢
    rw [World.record, List.reverse_cons, List.map_append, hinside, List.append_assoc]
    rfl
  · cases h

end Takes

section
variable {host : Host ε} {setup : Setup}

theorem takes_select (context : Value) (stack : List Value) (modifiers : Modifiers) :
    Takes [] (OnStack.select context stack modifiers : Resolve (Recorded ε) _) := by
  have hback : Takes []
      (OnStack.back context stack modifiers.parent : Resolve (Recorded ε) Value) := by
    unfold OnStack.back
    split
    · split
      · exact .throw _
      · exact .look _ _
    · exact .pure _
  unfold OnStack.select
  refine hback.behind ?_
  intro target
  split
  · exact (Takes.look _ _).behind fun first => .pure _
  · exact .pure _

theorem takes_receiver (stack : List Value) :
    Takes [] (OnStack.receiver stack : Resolve (Recorded ε) Value) := by
  unfold OnStack.receiver
  split
  · exact .look _ _
  · exact .pure _

theorem takes_enterAlternative (level : Nat) (member : Token) :
    Takes [] (enterAlternative setup level member : Resolve (Recorded ε) Unit) := by
  rcases enterAlternative_cases member with ⟨-, henter⟩ | ⟨-, henter⟩
  · rw [henter]
    exact .enter _ _ _
  · rw [henter]
    exact .pure ()

mutual

theorem takes_step (context : Value) (stack : List Value) (new? : Option Value) (vivify : Bool)
    (level : Nat) (token : Token) :
    Takes token.stepsInside (OnStack.step host setup context stack new? vivify level token) := by
  match token with
  | .word key =>
    rw [OnStack.step, Token.stepsInside]
    exact (Takes.run _).behind fun result => .pure _
  | .modified word modifiers =>
    rw [OnStack.step, Token.stepsInside]
    refine (takes_select context stack modifiers).behind ?_
    rintro ⟨target, stack'⟩
    exact (Takes.run _).behind fun result => .pure _
  | .collection members =>
    rw [OnStack.step, Token.stepsInside]
    refine (takes_alternatives context stack new? level members).inFront ?_
    intro results
    exact (Takes.run _).behind fun result => .pure _
  | .container .call tree =>
    rw [Token.stepsInside]
    cases new? with
    | some v =>
      rw [OnStack.step_call_some]
      exact .throw _
    | none =>
      by_cases hcallable : ∃ f, context = .callable f
      · obtain ⟨f, rfl⟩ := hcallable
        rw [OnStack.step_call_callable]
        have harguments : Takes (Token.stepsAlong tree)
            (OnStack.callArguments host setup (.callable f) stack level tree) := by
          unfold OnStack.callArguments
          split
          · rename_i hempty
            rw [List.isEmpty_iff.mp hempty, Token.stepsAlong]
            exact .pure _
          · refine (Takes.enter _ _ _).behind ?_
            intro _
            exact (takes_walkFrom _ stack none (level + 1) tree).inFront fun _ => .run _
        refine harguments.inFront ?_
        intro arguments
        refine (takes_receiver stack).behind ?_
        intro receiver
        exact (Takes.call host f receiver arguments).behind fun result => .pure _
      · rw [OnStack.step_call_of_not_callable (not_exists.mp hcallable)]
        intro world v after h
        obtain ⟨kind, between, -, hthrow⟩ := exists_of_bind_ok h
        cases hthrow
  | .container .evalProperty tree =>
    rw [OnStack.step, Token.stepsInside]
    refine (Takes.enter _ _ _).behind ?_
    intro _
    refine (takes_walkFrom context stack none (level + 1) tree).inFront ?_
    intro computed
    refine (Takes.run _).behind ?_
    intro key
    exact (Takes.run _).behind fun result => .pure _
  | .container .property tree | .container .quote tree =>
    rw [OnStack.step_path_eq (by exact trivial), Token.stepsInside]
    refine (Takes.enter _ _ _).behind ?_
    intro _
    exact (takes_walkFrom context stack new? (level + 1) tree).inFront fun result => .pure _

theorem takes_alternatives (context : Value) (stack : List Value) (new? : Option Value)
    (level : Nat) (members : List Token) :
    Takes (Token.stepsAmong members)
      (OnStack.alternatives host setup context stack new? level members) := by
  match members with
  | [] =>
    rw [OnStack.alternatives, Token.stepsAmong]
    exact .pure _
  | member :: rest =>
    have htaken := takes_step context stack new? false (alternativeLevel level member) member
    have hmember : Takes (member.stepsInside ++ member.ownStep)
        (OnStack.alternative host setup context stack new? level member) := by
      unfold OnStack.alternative
      refine (takes_enterAlternative level member).behind ?_
      intro _
      match member with
      | .word _ | .modified _ _ | .collection _ | .container .call _ => exact htaken.visit
      | .container .evalProperty _ | .container .property _ | .container .quote _ =>
        show Takes (_ ++ []) _
        rw [List.append_nil]
        exact htaken
    rw [OnStack.alternatives_cons, Token.stepsAmong]
    refine hmember.bind ?_
    intro result
    refine (Takes.run _).behind ?_
    intro results
    exact (takes_alternatives context stack new? level rest).inFront fun others => .pure _

theorem takes_walkFrom (context : Value) (stack : List Value) (new? : Option Value) (level : Nat)
    (tokens : List Token) :
    Takes (Token.stepsAlong tokens)
      (OnStack.walkFrom host setup context stack new? level tokens) := by
  match tokens with
  | [] =>
    rw [OnStack.walkFrom, Token.stepsAlong]
    exact .pure _
  | token :: rest =>
    rw [OnStack.walkFrom, Token.stepsAlong, ← List.singleton_append, ← List.append_assoc]
    refine (takes_step context stack _ _ level token).visit.bind ?_
    rintro ⟨result, stack'⟩
    exact takes_walkFrom result (stack' ++ [result]) new? level rest

end

/-- **The steps of a resolution are all on record**: if it succeeds, one by each token of the tree
at any depth, except for brackets in collections, in the order in which they end. -/
theorem OnStack.tokens_of_resolve {root : Value} {tokens : List Token} {new? : Option Value}
    {world : World ε} {v : Value} {after : World (Recorded ε)}
    (h : OnStack.resolve host setup root tokens new? world.unrecorded = .ok v after) :
    after.host.tokens = Token.stepsAlong tokens := by
  have htakes : Takes (Token.stepsAlong tokens) (OnStack.resolve host setup root tokens new?) :=
    (Takes.enter _ _ _).behind fun _ => takes_walkFrom root [root] new? 0 tokens
  exact htakes world.unrecorded v after h

end

end

end GraphPath
