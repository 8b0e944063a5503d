import Mathlib.Data.List.Forall2
import GraphPath.Proofs.Graph.Preserved
import GraphPath.Proofs.Resolve.Growth
import GraphPath.Proofs.Resolve.Region

/-! # Two readings side by side

Reading a document leaves it as it was.  What a reading adds is its own: new lists, and
the callables that stand for methods.  So if a document is read twice, the second time
perhaps behind other readings that have left lists of their own, the two readings differ
in the numbers of what they make, and in nothing else.

Two values are the **same result** of two readings of a graph if they are one value of
the graph, or a method looked up by both, or two new lists of such items
(`Graph.SameResult`).  New lists do not stand inside new lists, since a collection takes
the items out of the lists that its members come to.  Values that are the same result
look alike (`Graph.SameLook`): they have the same kind and the same keys, and what
stands under a key is the same item again.

**From trails that pass the same results, a token without calls comes to the same
result or fails alike** (`step_beside`), as long as the reading that is nested deeper does
not run into the depth limit.
-/

namespace GraphPath

/-- Related lists have related items at the same places. -/
theorem rel_getElem? {α β : Type} {R : α → β → Prop} {xs : List α} {ys : List β}
    (h : List.Forall₂ R xs ys) (i : Nat) : Option.Rel R xs[i]? ys[i]? := by
  induction h generalizing i with
  | nil => exact .none
  | cons hxy _ ih =>
    cases i with
    | zero => exact .some hxy
    | succ i => exact ih i

namespace Graph
variable {g g₁ g₂ g₃ : Graph} {v w : Value} {key : String}

/-! ## The same results -/

/-- **One item in two readings of a graph**: a value of the graph, or a method that both of them
have looked up. -/
inductive SameItem (g : Graph) : Value → Value → Prop
  | value {v : Value} (hv : g.Holds v) : SameItem g v v
  | method (method : Method) {i j : Nat} (hi : g.callables ≤ i) (hj : g.callables ≤ j) :
      SameItem g (.callable ⟨.method method, i⟩) (.callable ⟨.method method, j⟩)

/-- **One result of two readings of a graph**, in the graphs that they leave: one item, or a new
list of such items in each of them. -/
inductive SameResult (g g₁ g₂ : Graph) : Value → Value → Prop
  | item {v w : Value} (hitem : g.SameItem v w) : SameResult g g₁ g₂ v w
  | lists {h k : Handle} {items items' : List Value} (hnew : g.cells.size ≤ h)
      (hnew' : g.cells.size ≤ k) (hlt : h < g₁.cells.size) (hlt' : k < g₂.cells.size)
      (hread : g₁.read h = .list items) (hread' : g₂.read k = .list items')
      (hitems : List.Forall₂ g.SameItem items items') :
      SameResult g g₁ g₂ (.container h) (.container k)

theorem SameResult.mono {g₁' g₂' : Graph} (hsame : g.SameResult g₁ g₂ v w)
    (h₁ : g₁.PreservedIn g₁') (h₂ : g₂.PreservedIn g₂') : g.SameResult g₁' g₂' v w := by
  cases hsame with
  | item hitem => exact .item hitem
  | lists hnew hnew' hlt hlt' hread hread' hitems =>
    exact .lists hnew hnew' (Nat.lt_of_lt_of_le hlt h₁.size_le)
      (Nat.lt_of_lt_of_le hlt' h₂.size_le) ((h₁.read_eq _ hlt).trans hread)
      ((h₂.read_eq _ hlt').trans hread') hitems

/-- Lists that two readings make of the same items. -/
theorem sameResult_newList (h₁ : g.PreservedIn g₁) (h₂ : g.PreservedIn g₂)
    {items items' : List Value} (hitems : List.Forall₂ g.SameItem items items') :
    g.SameResult (g₁.newList items).2 (g₂.newList items').2 (g₁.newList items).1
      (g₂.newList items').1 :=
  .lists h₁.size_le h₂.size_le (g₁.lt_size_newList items) (g₂.lt_size_newList items')
    (g₁.read_alloc_self _) (g₂.read_alloc_self _) hitems

/-! ## What looks alike -/

/-- Containers that hold the same items. -/
inductive SameCell (g : Graph) : Cell → Cell → Prop
  | list {items items' : List Value} (hitems : List.Forall₂ g.SameItem items items') :
      SameCell g (.list items) (.list items')
  | map {fields : OrderedMap String Value} (hfields : ∀ v ∈ fields.values, g.Holds v) :
      SameCell g (.map fields) (.map fields)

/-- **Values that look alike**, each in a graph of its own. -/
inductive SameLook (g g₁ g₂ : Graph) : Value → Value → Prop
  | scalar {v : Value} (hv : v.isContainer = false) : SameLook g g₁ g₂ v v
  | callable (f f' : Callable) : SameLook g g₁ g₂ (.callable f) (.callable f')
  | container {h k : Handle} (hcell : g.SameCell (g₁.read h) (g₂.read k)) :
      SameLook g g₁ g₂ (.container h) (.container k)

theorem Closed.sameCell (hg : g.Closed) (h : Handle) : g.SameCell (g.read h) (g.read h) := by
  have hvalues := hg h
  generalize g.read h = cell at hvalues
  cases cell with
  | list items => exact .list (List.forall₂_same.mpr fun v hv => .value (hvalues v hv))
  | map fields => exact .map hvalues

theorem SameItem.look (hg : g.Closed) (h₁ : g.PreservedIn g₁) (h₂ : g.PreservedIn g₂)
    (hsame : g.SameItem v w) : g.SameLook g₁ g₂ v w := by
  cases hsame with
  | value hv =>
    cases v with
    | container h =>
      refine .container ?_
      rw [h₁.read_eq h hv, h₂.read_eq h hv]
      exact hg.sameCell h
    | _ => exact .scalar rfl
  | method => exact .callable _ _

theorem SameResult.look (hg : g.Closed) (h₁ : g.PreservedIn g₁) (h₂ : g.PreservedIn g₂)
    (hsame : g.SameResult g₁ g₂ v w) : g.SameLook g₁ g₂ v w := by
  cases hsame with
  | item hitem => exact hitem.look hg h₁ h₂
  | lists _ _ _ _ hread hread' hitems =>
    refine .container ?_
    rw [hread, hread']
    exact .list hitems

namespace SameCell
variable {cell cell' : Cell}

theorem size_eq (hsame : g.SameCell cell cell') : cell.size = cell'.size := by
  cases hsame with
  | list hitems => exact hitems.length_eq
  | map => rfl

theorem keys_eq (hsame : g.SameCell cell cell') : cell.keys = cell'.keys := by
  cases hsame with
  | list hitems => rw [Cell.keys, Cell.keys, hitems.length_eq]
  | map => rfl

theorem get? (hsame : g.SameCell cell cell') (key : String) :
    Option.Rel g.SameItem (cell.get? key) (cell'.get? key) := by
  cases hsame with
  | @list items items' hitems =>
    cases hindex : listIndex? key with
    | none =>
      simp only [Cell.get?, hindex]
      exact .none
    | some i =>
      simp only [Cell.get?, hindex]
      exact rel_getElem? hitems i
  | @map fields hfields =>
    cases hfound : (Cell.map fields).get? key with
    | none => exact .none
    | some v => exact .some (.value (hfields v (Cell.mem_values_of_get? hfound)))

end SameCell

namespace SameLook

theorem kind_eq (hsame : g.SameLook g₁ g₂ v w) : g₁.kind v = g₂.kind w := by
  cases hsame with
  | scalar hv =>
    cases v with
    | container h => cases hv
    | _ => rfl
  | callable => rfl
  | @container h k hcell =>
    unfold kind
    dsimp only
    generalize g₁.read h = cell, g₂.read k = cell' at hcell
    cases hcell <;> rfl

theorem isCallable_eq (hsame : g.SameLook g₁ g₂ v w) : v.isCallable = w.isCallable := by
  cases hsame <;> rfl

theorem ownKeys_eq (hsame : g.SameLook g₁ g₂ v w) : g₁.ownKeys v = g₂.ownKeys w := by
  cases hsame with
  | scalar hv =>
    cases v with
    | container h => cases hv
    | _ => rfl
  | callable => rfl
  | container hcell => exact hcell.keys_eq

theorem length?_eq (hsame : g.SameLook g₁ g₂ v w) : g₁.length? v = g₂.length? w := by
  cases hsame with
  | scalar hv =>
    cases v with
    | container h => cases hv
    | _ => rfl
  | callable => rfl
  | container hcell => exact congrArg some hcell.size_eq

theorem toKey_eq (hsame : g.SameLook g₁ g₂ v w) : g₁.toKey v = g₂.toKey w := by
  have hkind := hsame.kind_eq
  cases hsame with
  | scalar hv =>
    cases v with
    | container h => cases hv
    | boolean b => cases b <;> rfl
    | _ => rfl
  | callable => rfl
  | container => exact congrArg (fun kind => Except.error (Failure.notAKey kind)) hkind

theorem getKey? (hsame : g.SameLook g₁ g₂ v w) (key : String) :
    Option.Rel g.SameItem (g₁.getKey? v key) (g₂.getKey? w key) := by
  cases hsame with
  | scalar hv =>
    cases v with
    | container h => cases hv
    | _ => exact .none
  | callable => exact .none
  | container hcell => exact hcell.get? key

end SameLook

/-- **The items of the same results are the same**; a result that is no list is the only one. -/
theorem SameResult.spread (hg : g.Closed) (h₁ : g.PreservedIn g₁) (h₂ : g.PreservedIn g₂)
    (hsame : g.SameResult g₁ g₂ v w) :
    List.Forall₂ g.SameItem ((g₁.items? v).getD [v]) ((g₂.items? w).getD [w]) := by
  have alone {v w : Value} (hitem : g.SameItem v w) : List.Forall₂ g.SameItem [v] [w] :=
    .cons hitem .nil
  cases hsame with
  | item hitem =>
    cases hitem with
    | value hv =>
      cases v with
      | container h =>
        have hitems := hg.sameCell h
        unfold items?
        dsimp only
        rw [h₁.read_eq h hv, h₂.read_eq h hv]
        generalize g.read h = cell at hitems
        cases hitems with
        | list hitems => exact hitems
        | map => exact alone (.value hv)
      | _ => exact alone (.value hv)
    | method method hi hj => exact alone (.method method hi hj)
  | lists _ _ _ _ hread hread' hitems =>
    unfold items?
    dsimp only
    rw [hread, hread']
    exact hitems

end Graph

/-! ## Runs that come to the same -/

/-- **Two runs that come to related results**, or fail for one reason.  Nothing is said where the
first of them fails for a reason that excuses it. -/
inductive Alike {ε σ α β : Type} (excused : ε → Prop) (R : α → σ → β → σ → Prop) :
    EStateM.Result ε σ α → EStateM.Result ε σ β → Prop
  | ok {a : α} {b : β} {s s' : σ} (h : R a s b s') : Alike excused R (.ok a s) (.ok b s')
  | error (e : ε) (s s' : σ) : Alike excused R (.error e s) (.error e s')
  | excused {e : ε} (he : excused e) (s : σ) (r : EStateM.Result ε σ β) :
      Alike excused R (.error e s) r

/-- **What two readings come to side by side**: both keep what there was, and their results are
related. -/
structure Graph.Come {α β : Type} (R : Graph → Graph → α → β → Prop) (g₁ g₂ : Graph) (a : α)
    (g₁' : Graph) (b : β) (g₂' : Graph) : Prop where
  /-- The first graph is preserved. -/
  left : g₁.PreservedIn g₁'
  /-- So is the second. -/
  right : g₂.PreservedIn g₂'
  /-- The results are related. -/
  related : R g₁' g₂' a b

/-- The two edits come to the same from the graphs `g₁` and `g₂`. -/
def Edit.Beside {α β : Type} (R : Graph → Graph → α → β → Prop) (g₁ g₂ : Graph) (edit : Edit α)
    (edit' : Edit β) : Prop :=
  Alike (fun _ => False) (Graph.Come R g₁ g₂) (edit g₁) (edit' g₂)

/-- The depth limit has been run into. -/
def PathError.IsTooDeep : PathError → Prop
  | .tooDeep _ => True
  | _ => False

/-- The two computations come to the same from the worlds `world` and `world'`, unless the first one
runs into the depth limit. -/
def Resolve.Beside {ε α β : Type} (R : Graph → Graph → α → β → Prop) (world world' : World ε)
    (x : Resolve ε α) (y : Resolve ε β) : Prop :=
  Alike PathError.IsTooDeep
    (fun a after b after' => Graph.Come R world.graph world'.graph a after.graph b after'.graph)
    (x world) (y world')

section
variable {ε α β γ δ : Type} {R : Graph → Graph → α → β → Prop} {S : Graph → Graph → γ → δ → Prop}

/-- Related answers that take no step. -/
theorem Resolve.Beside.pure {world world' : World ε} {a : α} {b : β}
    (hrelated : R world.graph world'.graph a b) :
    Resolve.Beside R world world' (pure a : Resolve ε α) (Pure.pure b : Resolve ε β) :=
  .ok ⟨.refl _, .refl _, hrelated⟩

theorem Edit.Beside.run {edit : Edit α} {edit' : Edit β} {world world' : World ε}
    (hbeside : Edit.Beside R world.graph world'.graph edit edit') :
    Resolve.Beside R world world' edit.run edit'.run := by
  unfold Edit.Beside at hbeside
  unfold Resolve.Beside Edit.run
  generalize edit world.graph = r, edit' world'.graph = r' at hbeside
  cases hbeside with
  | ok hcome => exact .ok hcome
  | error e s s' => exact .error _ _ _
  | excused he => exact he.elim

theorem Resolve.Beside.cases {world world' : World ε} {x : Resolve ε α} {y : Resolve ε β}
    (hbeside : Resolve.Beside R world world' x y) :
    (∃ a after b after', x world = .ok a after ∧ y world' = .ok b after' ∧
        Graph.Come R world.graph world'.graph a after.graph b after'.graph) ∨
      (∃ e after after', x world = .error e after ∧ y world' = .error e after') ∨
      ∃ e after, e.IsTooDeep ∧ x world = .error e after := by
  unfold Resolve.Beside at hbeside
  generalize x world = r, y world' = r' at hbeside
  cases hbeside with
  | ok hcome => exact Or.inl ⟨_, _, _, _, rfl, rfl, hcome⟩
  | error e after after' => exact Or.inr (Or.inl ⟨e, after, after', rfl, rfl⟩)
  | excused hdeep after => exact Or.inr (Or.inr ⟨_, after, hdeep, rfl⟩)

/-- **Side by side, one after the other.** -/
theorem Resolve.Beside.bind {world world' : World ε} {x : Resolve ε α} {y : Resolve ε β}
    {f : α → Resolve ε γ} {f' : β → Resolve ε δ} (hx : Resolve.Beside R world world' x y)
    (hf : ∀ a b after after', world.graph.PreservedIn after.graph →
      world'.graph.PreservedIn after'.graph → R after.graph after'.graph a b →
      Resolve.Beside S after after' (f a) (f' b)) :
    Resolve.Beside S world world' (x >>= f) (y >>= f') := by
  unfold Resolve.Beside
  rcases hx.cases with ⟨a, after, b, after', hok, hok', hcome⟩ |
    ⟨e, after, after', herror, herror'⟩ | ⟨e, after, hdeep, herror⟩
  · rw [bind_of_ok hok, bind_of_ok hok']
    have hrest := hf a b after after' hcome.left hcome.right hcome.related
    rcases hrest.cases with ⟨c, last, d, last', hok, hok', hcome'⟩ |
      ⟨e, last, last', herror, herror'⟩ | ⟨e, last, hdeep, herror⟩
    · rw [hok, hok']
      exact .ok ⟨hcome.left.trans hcome'.left, hcome.right.trans hcome'.right, hcome'.related⟩
    · rw [herror, herror']
      exact .error e _ _
    · rw [herror]
      exact .excused hdeep _ _
  · rw [bind_of_error herror, bind_of_error herror']
    exact .error e _ _
  · rw [bind_of_error herror]
    exact .excused hdeep _ _

end

/-! ## Single steps -/

namespace Step
variable {g g₁ g₂ : Graph} {target target' : Value} {key pattern : String}

theorem missing_beside (h₁ : g.PreservedIn g₁) (h₂ : g.PreservedIn g₂)
    (hlook : g.SameLook g₁ g₂ target target') (key : String) :
    Edit.Beside g.SameResult g₁ g₂ (missing target key) (missing target' key) := by
  unfold Edit.Beside
  rw [missing_eq, missing_eq, hlook.isCallable_eq, hlook.kind_eq]
  have hnone : Alike (fun _ => False) (Graph.Come g.SameResult g₁ g₂)
      (if target'.isCallable then .ok (.string key) g₁
        else .error (.noKey key (g₂.kind target')) g₁ : EStateM.Result Failure Graph Value)
      (if target'.isCallable then .ok (.string key) g₂
        else .error (.noKey key (g₂.kind target')) g₂ : EStateM.Result Failure Graph Value) := by
    split
    · exact .ok ⟨.refl _, .refl _, .item (.value trivial)⟩
    · exact .error _ _ _
  unfold Graph.intrinsic?
  by_cases hlength : (key == "length") = true
  · rw [if_pos hlength, if_pos hlength, hlook.length?_eq]
    cases g₂.length? target' with
    | none => exact hnone
    | some n => exact .ok ⟨.refl _, .refl _, .item (.value trivial)⟩
  · rw [if_neg hlength, if_neg hlength]
    cases Method.ofName? key with
    | none => exact hnone
    | some method =>
      dsimp only
      rw [hlook.kind_eq]
      by_cases happlies : method.appliesTo (g₂.kind target') = true
      · rw [if_pos happlies, if_pos happlies]
        exact .ok ⟨g₁.preservedIn_newCallable (.method method),
          g₂.preservedIn_newCallable (.method method),
          .item (.method method h₁.callables_le h₂.callables_le)⟩
      · rw [if_neg happlies, if_neg happlies]
        exact hnone

/-- **A step by a literal key** comes to the same from values that look alike. -/
theorem byKey_beside (h₁ : g.PreservedIn g₁) (h₂ : g.PreservedIn g₂)
    (hlook : g.SameLook g₁ g₂ target target') (key : String) :
    Edit.Beside g.SameResult g₁ g₂ (byKey target key none false) (byKey target' key none false) := by
  unfold Edit.Beside
  rw [byKey_none, byKey_none]
  have hkey := hlook.getKey? key
  generalize g₁.getKey? target key = found, g₂.getKey? target' key = found' at hkey
  cases hkey with
  | some hitem => exact .ok ⟨.refl _, .refl _, .item hitem⟩
  | none => exact missing_beside h₁ h₂ hlook key

theorem byPattern_beside (h₁ : g.PreservedIn g₁) (h₂ : g.PreservedIn g₂)
    (hlook : g.SameLook g₁ g₂ target target') (pattern : String) :
    Edit.Beside g.SameResult g₁ g₂ (byPattern target pattern none)
      (byPattern target' pattern none) := by
  have hkey (key key' : String) (heq : key = key') :
      Option.Rel g.SameItem (g₁.getKey? target key) (g₂.getKey? target' key') :=
    heq ▸ hlook.getKey? key
  have hitems (keys : List String) : List.Forall₂ g.SameItem (keys.filterMap (g₁.getKey? target))
      (keys.filterMap (g₂.getKey? target')) := List.rel_filterMap hkey (List.forall₂_refl keys)
  unfold Edit.Beside
  rw [byPattern_none, byPattern_none, hlook.ownKeys_eq]
  exact .ok ⟨g₁.preservedIn_newList _, g₂.preservedIn_newList _,
    Graph.sameResult_newList h₁ h₂ (hitems _)⟩

theorem byModifiedKey_beside (h₁ : g.PreservedIn g₁) (h₂ : g.PreservedIn g₂)
    (hlook : g.SameLook g₁ g₂ target target') (key : String) :
    Edit.Beside g.SameResult g₁ g₂ (byModifiedKey target key none)
      (byModifiedKey target' key none) := by
  unfold Edit.Beside
  rw [byModifiedKey_none, byModifiedKey_none]
  have hkey := hlook.getKey? key
  generalize g₁.getKey? target key = found, g₂.getKey? target' key = found' at hkey
  cases hkey with
  | some hitem => exact .ok ⟨.refl _, .refl _, .item hitem⟩
  | none =>
    dsimp only
    split
    · exact byPattern_beside h₁ h₂ hlook key
    · exact missing_beside h₁ h₂ hlook key

theorem withKey_beside {setup : Setup} (harguments : ∀ v ∈ setup.arguments, g.Holds v)
    (h₁ : g.PreservedIn g₁) (h₂ : g.PreservedIn g₂) (hlook : g.SameLook g₁ g₂ target target')
    (key : String) (modifiers : Modifiers) :
    Edit.Beside g.SameResult g₁ g₂ (withKey setup target key modifiers none)
      (withKey setup target' key modifiers none) := by
  unfold withKey
  split
  · show Alike _ _ (Edit.askFor (fun _ => setup.argument key) g₁)
      (Edit.askFor (fun _ => setup.argument key) g₂)
    unfold Edit.askFor
    cases hargument : setup.argument key with
    | error failure => exact .error _ _ _
    | ok v =>
      have hv := harguments v (Setup.mem_arguments hargument)
      exact .ok ⟨.refl _, .refl _, .item (.value hv)⟩
  · exact byModifiedKey_beside h₁ h₂ hlook key

end Step

/-! ## Trails -/

/-- Trails of two readings that have passed the same results. -/
structure Graph.SameTrail (g g₁ g₂ : Graph) (trail trail' : Trail) : Prop where
  /-- They began at the same. -/
  root : g.SameResult g₁ g₂ trail.root trail'.root
  /-- Their steps came to the same. -/
  steps : List.Forall₂ (g.SameResult g₁ g₂) trail.steps trail'.steps

/-- The results of two steps, and the trails to push them on. -/
def Graph.SameStep (g g₁ g₂ : Graph) (result result' : Value × Trail) : Prop :=
  g.SameResult g₁ g₂ result.1 result'.1 ∧ g.SameTrail g₁ g₂ result.2 result'.2

namespace Graph.SameTrail
variable {g g₁ g₂ : Graph} {trail trail' : Trail} {v w : Value}

theorem mono {g₁' g₂' : Graph} (hsame : g.SameTrail g₁ g₂ trail trail')
    (h₁ : g₁.PreservedIn g₁') (h₂ : g₂.PreservedIn g₂') : g.SameTrail g₁' g₂' trail trail' :=
  ⟨hsame.root.mono h₁ h₂, hsame.steps.imp fun _ _ hstep => hstep.mono h₁ h₂⟩

theorem push (hsame : g.SameTrail g₁ g₂ trail trail') (hv : g.SameResult g₁ g₂ v w) :
    g.SameTrail g₁ g₂ (trail.push v) (trail'.push w) :=
  ⟨hsame.root, .cons hv hsame.steps⟩

theorem values (hsame : g.SameTrail g₁ g₂ trail trail') :
    List.Forall₂ (g.SameResult g₁ g₂) trail.values trail'.values :=
  List.rel_append hsame.steps (.cons hsame.root .nil)

theorem back? (hsame : g.SameTrail g₁ g₂ trail trail') (n : Nat) :
    Option.Rel (g.SameResult g₁ g₂) (trail.back? n) (trail'.back? n) := rel_getElem? hsame.values n

theorem current (hsame : g.SameTrail g₁ g₂ trail trail') :
    g.SameResult g₁ g₂ trail.current trail'.current := by
  obtain ⟨root, steps⟩ := trail
  obtain ⟨root', steps'⟩ := trail'
  obtain ⟨hroot, hsteps⟩ := hsame
  cases hsteps with
  | nil => exact hroot
  | cons hstep => exact hstep

/-- Modifiers lead to the same result, and to trails that are the same again. -/
theorem select (hsame : g.SameTrail g₁ g₂ trail trail') (modifiers : Modifiers) :
    (∃ failure, trail.select modifiers = .error failure ∧
        trail'.select modifiers = .error failure) ∨
      ∃ result result', trail.select modifiers = .ok result ∧
        trail'.select modifiers = .ok result' ∧ g.SameStep g₁ g₂ result result' := by
  have hback := hsame.back? modifiers.parent
  unfold Trail.select
  generalize trail.back? modifiers.parent = found, trail'.back? modifiers.parent = found' at hback
  cases hback with
  | none => exact Or.inl ⟨_, rfl, rfl⟩
  | some hv =>
    dsimp only
    split
    · exact Or.inr ⟨_, _, rfl, rfl, hsame.root, hsame.root, .nil⟩
    · exact Or.inr ⟨_, _, rfl, rfl, hv, hsame⟩

end Graph.SameTrail

/-- **Two readings of `g` at a moment of theirs**: both keep it, and have passed the same
results. -/
structure Graph.Abreast (g g₁ g₂ : Graph) (trail trail' : Trail) : Prop where
  /-- The first one keeps the graph. -/
  left : g.PreservedIn g₁
  /-- So does the second. -/
  right : g.PreservedIn g₂
  /-- They have passed the same. -/
  trail : g.SameTrail g₁ g₂ trail trail'

namespace Graph.Abreast
variable {g g₁ g₂ g₁' g₂' : Graph} {trail trail' : Trail}

theorem mono (h : g.Abreast g₁ g₂ trail trail') (h₁ : g₁.PreservedIn g₁')
    (h₂ : g₂.PreservedIn g₂') : g.Abreast g₁' g₂' trail trail' :=
  ⟨h.left.trans h₁, h.right.trans h₂, h.trail.mono h₁ h₂⟩

theorem look (h : g.Abreast g₁ g₂ trail trail') (hg : g.Closed) :
    g.SameLook g₁ g₂ trail.current trail'.current := h.trail.current.look hg h.left h.right

/-- The step that both of them have taken. -/
theorem push {result result' : Value × Trail} (h : g.Abreast g₁ g₂ trail trail')
    (h₁ : g₁.PreservedIn g₁') (h₂ : g₂.PreservedIn g₂')
    (hstep : g.SameStep g₁' g₂' result result') :
    g.Abreast g₁' g₂' (result.2.push result.1) (result'.2.push result'.1) :=
  ⟨h.left.trans h₁, h.right.trans h₂, hstep.2.push hstep.1⟩

end Graph.Abreast

/-! ## Steps and walks -/

section
variable {ε : Type} {host : Host ε} {setup : Setup} {g : Graph} {world world' : World ε}
  {trail trail' : Trail} {level level' : Nat}

/-- Where the deeper of two walks may begin, so may the other. -/
theorem enter_beside (hlevel : level' ≤ level) (tokens : List Token) :
    Resolve.Beside (fun _ _ _ _ => True) world world' (enter setup tokens level)
      (enter setup tokens level') := by
  unfold Resolve.Beside enter
  by_cases hdeep : setup.maxDepth < level
  · rw [if_pos hdeep]
    exact .excused trivial _ _
  · have hdeep' : ¬ setup.maxDepth < level' := by omega
    rw [if_neg hdeep, if_neg hdeep']
    split
    · exact .error _ _ _
    · exact .ok ⟨.refl _, .refl _, trivial⟩

theorem askFor_beside {α : Type} {f f' : Graph → Except Failure α}
    (hsame : f world.graph = f' world'.graph) :
    Resolve.Beside (fun _ _ a b => a = b) world world' (Edit.askFor f).run
      (Edit.askFor f').run := by
  refine Edit.Beside.run ?_
  unfold Edit.Beside Edit.askFor
  rw [hsame]
  cases f' world'.graph with
  | ok a => exact .ok ⟨.refl _, .refl _, rfl⟩
  | error failure => exact .error _ _ _

theorem select_beside (htrail : g.SameTrail world.graph world'.graph trail trail')
    (modifiers : Modifiers) :
    Resolve.Beside g.SameStep world world' (Edit.askFor fun _ => trail.select modifiers).run
      (Edit.askFor fun _ => trail'.select modifiers).run := by
  refine Edit.Beside.run ?_
  unfold Edit.Beside Edit.askFor
  rcases htrail.select modifiers with ⟨failure, h, h'⟩ | ⟨result, result', h, h', hsame⟩
  · rw [h, h']
    exact .error _ _ _
  · rw [h, h']
    exact .ok ⟨.refl _, .refl _, hsame⟩

theorem finalKey_eq (hg : g.Closed) (harguments : ∀ v ∈ setup.arguments, g.Holds v)
    {g₁ g₂ : Graph} (h₁ : g.PreservedIn g₁) (h₂ : g.PreservedIn g₂) (word : String)
    (modifiers : Modifiers) :
    setup.finalKey g₁ word modifiers = setup.finalKey g₂ word modifiers := by
  unfold Setup.finalKey
  split
  · cases hargument : setup.argument word with
    | error failure => rfl
    | ok v =>
      have hv := harguments v (Setup.mem_arguments hargument)
      exact ((Graph.SameItem.value hv).look hg h₁ h₂).toKey_eq
  · rfl

/-- A step by a modified word. -/
theorem byModified_beside (hg : g.Closed) (harguments : ∀ v ∈ setup.arguments, g.Holds v)
    (habreast : g.Abreast world.graph world'.graph trail trail') (word : String)
    (modifiers : Modifiers) :
    Resolve.Beside g.SameStep world world' (Step.byModified setup trail word modifiers none).run
      (Step.byModified setup trail' word modifiers none).run := by
  rw [Step.byModified_eq, Step.byModified_eq]
  simp only [Edit.run_bind, Edit.run_pure]
  refine (select_beside habreast.trail modifiers).bind fun reached reached' w w' h₁ h₂ hreached => ?_
  have hfirst := habreast.mono h₁ h₂
  have hkey := finalKey_eq hg harguments hfirst.left hfirst.right word modifiers
  refine (askFor_beside hkey).bind fun key key' u u' h₁ h₂ heq => ?_
  subst heq
  have hthen := hfirst.mono h₁ h₂
  have hlook := (hreached.1.mono h₁ h₂).look hg hthen.left hthen.right
  refine (Step.withKey_beside harguments hthen.left hthen.right hlook key modifiers).run.bind
    fun result result' t t' h₃ h₄ hresult => ?_
  exact .pure ⟨hresult, (hreached.2.mono h₁ h₂).mono h₃ h₄⟩

/-- The items of a result are added to those of a collection. -/
theorem spread_beside (hg : g.Closed) (h₁ : g.PreservedIn world.graph)
    (h₂ : g.PreservedIn world'.graph) {v w : Value}
    (hsame : g.SameResult world.graph world'.graph v w) :
    Resolve.Beside (fun _ _ => List.Forall₂ g.SameItem) world world' (spread v) (spread w) :=
  .ok ⟨.refl _, .refl _, hsame.spread hg h₁ h₂⟩

theorem newList_beside (h₁ : g.PreservedIn world.graph) (h₂ : g.PreservedIn world'.graph)
    {items items' : List Value} (hitems : List.Forall₂ g.SameItem items items') :
    Resolve.Beside g.SameResult world world' (Edit.make fun g => g.newList items).run
      (Edit.make fun g => g.newList items').run :=
  .ok ⟨Graph.preservedIn_newList _ _, Graph.preservedIn_newList _ _,
    Graph.sameResult_newList h₁ h₂ hitems⟩

theorem alternativeLevel_mono (hlevel : level' ≤ level) (member : Token) :
    alternativeLevel level' member ≤ alternativeLevel level member := by
  rcases enterAlternative_cases member with ⟨hdeeper, -⟩ | ⟨hdeeper, -⟩
  · rw [hdeeper, hdeeper]
    exact Nat.succ_le_succ hlevel
  · rw [hdeeper, hdeeper]
    exact hlevel

theorem enterAlternative_beside (hlevel : level' ≤ level) (member : Token) :
    Resolve.Beside (fun _ _ _ _ => True) world world' (enterAlternative setup level member)
      (enterAlternative setup level' member) := by
  rcases enterAlternative_cases member with ⟨-, henter⟩ | ⟨-, henter⟩
  · rw [henter, henter]
    exact enter_beside (Nat.succ_le_succ hlevel) _
  · rw [henter, henter]
    exact .pure trivial

mutual

/-- **A token without calls takes the same step in two readings**, or fails alike. -/
theorem step_beside (hg : g.Closed) (harguments : ∀ v ∈ setup.arguments, g.Holds v)
    {world world' : World ε} {trail trail' : Trail} {level level' : Nat} (hlevel : level' ≤ level)
    (habreast : g.Abreast world.graph world'.graph trail trail') (token : Token)
    (hfree : token.callFree = true) :
    Resolve.Beside g.SameStep world world' (step host setup trail none false level token)
      (step host setup trail' none false level' token) := by
  match token with
  | .word key =>
    rw [step, step]
    refine (Step.byKey_beside habreast.left habreast.right (habreast.look hg) key).run.bind
      fun v w t t' h₁ h₂ hsame => ?_
    exact .pure ⟨hsame, habreast.trail.mono h₁ h₂⟩
  | .modified word modifiers =>
    rw [step, step]
    exact byModified_beside hg harguments habreast word modifiers
  | .collection members =>
    rw [Token.callFree] at hfree
    rw [step, step]
    refine (alternatives_beside hg harguments hlevel habreast members hfree).bind
      fun items items' u u' h₁ h₂ hitems => ?_
    have hthen := habreast.mono h₁ h₂
    refine (newList_beside hthen.left hthen.right hitems).bind fun v w t t' h₃ h₄ hsame => ?_
    exact .pure ⟨hsame, hthen.trail.mono h₃ h₄⟩
  | .container .call tree => cases hfree
  | .container .evalProperty tree =>
    simp only [Token.callFree] at hfree
    have hdeeper : level' + 1 ≤ level + 1 := Nat.succ_le_succ hlevel
    rw [step, step]
    refine (enter_beside hdeeper tree).bind fun _ _ w w' h₁ h₂ _ => ?_
    have hfirst := habreast.mono h₁ h₂
    refine (walkFrom_beside hg harguments hdeeper hfirst tree hfree).bind
      fun v v' u u' h₁ h₂ hcomputed => ?_
    have hthen := hfirst.mono h₁ h₂
    -- what is computed may be new in each of the readings, but it has the same text
    have htext := (hcomputed.look hg hthen.left hthen.right).toKey_eq
    refine (askFor_beside htext).bind fun key key' t t' h₁ h₂ heq => ?_
    subst heq
    have hlast := hthen.mono h₁ h₂
    refine (Step.byKey_beside hlast.left hlast.right (hlast.look hg) key).run.bind
      fun v w s s' h₁ h₂ hsame => ?_
    exact .pure ⟨hsame, hlast.trail.mono h₁ h₂⟩
  | .container .property tree | .container .quote tree =>
    simp only [Token.callFree] at hfree
    have hdeeper : level' + 1 ≤ level + 1 := Nat.succ_le_succ hlevel
    rw [step_path_eq, step_path_eq]
    · refine (enter_beside hdeeper tree).bind fun _ _ w w' h₁ h₂ _ => ?_
      have hfirst := habreast.mono h₁ h₂
      refine (walkFrom_beside hg harguments hdeeper hfirst tree hfree).bind
        fun v v' u u' h₁ h₂ hsame => ?_
      exact .pure ⟨hsame, hfirst.trail.mono h₁ h₂⟩
    all_goals exact trivial

theorem alternatives_beside (hg : g.Closed) (harguments : ∀ v ∈ setup.arguments, g.Holds v)
    {world world' : World ε} {trail trail' : Trail} {level level' : Nat} (hlevel : level' ≤ level)
    (habreast : g.Abreast world.graph world'.graph trail trail') (members : List Token)
    (hfree : Token.allCallFree members = true) :
    Resolve.Beside (fun _ _ => List.Forall₂ g.SameItem) world world'
      (alternatives host setup trail none level members)
      (alternatives host setup trail' none level' members) := by
  match members with
  | [] =>
    rw [alternatives, alternatives]
    exact .pure .nil
  | member :: rest =>
    rw [Token.allCallFree, Bool.and_eq_true] at hfree
    rw [alternatives_cons, alternatives_cons, alternative, alternative, bind_assoc, bind_assoc]
    refine (enterAlternative_beside hlevel member).bind fun _ _ w w' h₁ h₂ _ => ?_
    have hfirst := habreast.mono h₁ h₂
    refine (step_beside hg harguments (alternativeLevel_mono hlevel member) hfirst member
      hfree.1).bind fun result result' u u' h₁ h₂ hresult => ?_
    have hthen := hfirst.mono h₁ h₂
    refine (spread_beside hg hthen.left hthen.right hresult.1).bind
      fun items items' t t' h₁ h₂ hitems => ?_
    have hlast := hthen.mono h₁ h₂
    refine (alternatives_beside hg harguments hlevel hlast rest hfree.2).bind
      fun others others' s s' h₁ h₂ hothers => ?_
    exact .pure (List.rel_append hitems hothers)

/-- **A row of tokens without calls comes to the same in two readings**, or fails alike. -/
theorem walkFrom_beside (hg : g.Closed) (harguments : ∀ v ∈ setup.arguments, g.Holds v)
    {world world' : World ε} {trail trail' : Trail} {level level' : Nat} (hlevel : level' ≤ level)
    (habreast : g.Abreast world.graph world'.graph trail trail') (tokens : List Token)
    (hfree : Token.allCallFree tokens = true) :
    Resolve.Beside g.SameResult world world' (walkFrom host setup trail none level tokens)
      (walkFrom host setup trail' none level' tokens) := by
  match tokens with
  | [] =>
    rw [walkFrom, walkFrom]
    exact .pure habreast.trail.current
  | token :: rest =>
    rw [Token.allCallFree, Bool.and_eq_true] at hfree
    rw [walkFrom_cons_none, walkFrom_cons_none]
    refine (step_beside hg harguments hlevel habreast token hfree.1).bind
      fun result result' t t' h₁ h₂ hresult => ?_
    exact walkFrom_beside hg harguments hlevel (habreast.push h₁ h₂ hresult) rest hfree.2

end

end

end GraphPath
