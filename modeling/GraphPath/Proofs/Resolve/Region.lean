import GraphPath.Proofs.Graph.Reach
import GraphPath.Proofs.Resolve.LastStep

/-! # Regions that reading does not leave

Where the values come from that a resolution passes is one question for all kinds of
steps.  A `Region` gives an answer to it: it says what holds of the graph, and which
values belong to the region.  It is **lawful** if nothing that a reading step does by
itself leads out of it: no way inwards, no scalar, no new list of values that belong to
it (`Region.Lawful`).

A new list need not belong to the region itself.  It is enough that it is one of those
that the region has **made**, whose items all belong to it; such lists stand on the trail
like any other value, and a resolution may end at one.  Which tokens can come to a list
of that kind is seen from the token (`Token.MakesList`).

**A reading step from values of a lawful region comes to a value of the region, or to a
list that it has made** (`Region.step_reads`); calls are taken care of by whoever knows
what is called (`Region.Calls`).  On the way to a write the same holds if no map made
there leads out of the region (`Region.trailFrom_goes`).
-/

namespace GraphPath

/-! ## Kinds of tokens -/

mutual

/-- Whether there is no call in a token, at any depth. -/
def Token.callFree : Token → Bool
  | .word _ | .modified _ _ => true
  | .collection members => Token.allCallFree members
  | .container .call _ => false
  | .container _ tree => Token.allCallFree tree

/-- Whether there is no call in a row of tokens. -/
def Token.allCallFree : List Token → Bool
  | [] => true
  | token :: rest => token.callFree && Token.allCallFree rest

end

mutual

/-- The tokens that can come to a new list: patterns, collections, calls, and paths that end in
such a token. -/
def Token.MakesList (setup : Setup) : Token → Prop
  | .word _ => False
  | .modified text modifiers => setup.Matches text modifiers
  | .collection _ => True
  | .container .call _ => True
  | .container .evalProperty _ => False
  | .container .property tree | .container .quote tree => Token.EndsInList setup tree

/-- Whether the last of a row of tokens can come to a new list. -/
def Token.EndsInList (setup : Setup) : List Token → Prop
  | [] => False
  | token :: rest => (rest = [] ∧ token.MakesList setup) ∨ Token.EndsInList setup rest

end

/-! ## Regions -/

/-- **A region** of the values of a graph that may change. -/
structure Region where
  /-- What holds of the graph. -/
  inv : Graph → Prop
  /-- The values that belong to the region. -/
  within : Graph → Value → Prop
  /-- The lists made of such values. -/
  made : Graph → Value → Prop

namespace Region
variable (R : Region)

/-- The values that may stand on the trail. -/
def Lent (g : Graph) (v : Value) : Prop := R.within g v ∨ R.made g v

/-- **What a reading step does to a graph**: nothing leaves the region. -/
structure Kept (g g' : Graph) : Prop where
  /-- What held of the graph still holds. -/
  inv : R.inv g'
  /-- What belonged to the region still does. -/
  within : ∀ v, R.within g v → R.within g' v
  /-- The lists that were made still are of such values. -/
  made : ∀ v, R.made g v → R.made g' v

/-- **A region is lawful** if no reading leads out of it. -/
structure Lawful : Prop where
  /-- What is no container belongs to it. -/
  scalar : ∀ {g v}, v.isContainer = false → R.within g v
  /-- What is inside a value of the region, or inside a list that was made, belongs to it. -/
  inside : ∀ {g v w}, R.inv g → R.Lent g v → g.Inside v w → R.within g w
  /-- What was made is a list, or belongs to the region. -/
  list : ∀ {g v}, R.made g v → R.within g v ∨ (g.items? v).isSome = true
  /-- Nothing depends on more than the containers. -/
  cells : ∀ {g g' : Graph}, R.inv g → g'.cells = g.cells → R.Kept g g'
  /-- Lists may be made of its values. -/
  newList : ∀ {g : Graph} {items : List Value}, R.inv g → (∀ v ∈ items, R.within g v) →
    R.Kept g (g.newList items).2 ∧ R.made (g.newList items).2 (g.newList items).1

/-- Calls with values of the region do not lead out of it. -/
def Calls {ε : Type} (host : Host ε) : Prop :=
  ∀ {f receiver arguments world v world'}, R.inv world.graph → R.Lent world.graph receiver →
    (∀ a ∈ arguments, R.within world.graph a) →
    call host f receiver arguments world = .ok v world' →
    R.Kept world.graph world'.graph ∧ R.Lent world'.graph v

/-- What a resolution may look at belongs to the region: the arguments and the trail. -/
structure Covers (setup : Setup) (trail : Trail) (g : Graph) : Prop where
  inv : R.inv g
  arguments : ∀ v ∈ setup.arguments, R.within g v
  trail : ∀ v ∈ trail.values, R.Lent g v

variable {R} {g g' g'' : Graph} {v w : Value}

theorem Kept.refl (hinv : R.inv g) : R.Kept g g := ⟨hinv, fun _ h => h, fun _ h => h⟩

theorem Kept.trans (h : R.Kept g g') (h' : R.Kept g' g'') : R.Kept g g'' :=
  ⟨h'.inv, fun v hv => h'.within v (h.within v hv), fun v hv => h'.made v (h.made v hv)⟩

theorem Kept.lent (h : R.Kept g g') (hv : R.Lent g v) : R.Lent g' v := hv.imp (h.within v) (h.made v)

/-- The items of a value that may stand on the trail, or the value itself, belong to the region. -/
theorem Lawful.within_spread (hR : R.Lawful) (hinv : R.inv g) (hv : R.Lent g v) :
    ∀ w ∈ (g.items? v).getD [v], R.within g w := by
  intro w hw
  cases hitems : g.items? v with
  | some items =>
    rw [hitems] at hw
    exact hR.inside hinv hv (Graph.inside_of_items? hitems hw)
  | none =>
    rw [hitems] at hw
    rw [List.mem_singleton.mp hw]
    rcases hv with hv | hv
    · exact hv
    · refine (hR.list hv).resolve_right fun hsome => ?_
      rw [hitems] at hsome
      cases hsome

section
variable {setup : Setup} {trail trail' : Trail}

theorem Covers.kept (hcov : R.Covers setup trail g) (hkept : R.Kept g g') :
    R.Covers setup trail g' where
  inv := hkept.inv
  arguments v hv := hkept.within v (hcov.arguments v hv)
  trail v hv := hkept.lent (hcov.trail v hv)

theorem Covers.of_subset (hcov : R.Covers setup trail g)
    (hsub : ∀ v ∈ trail'.values, v ∈ trail.values) : R.Covers setup trail' g :=
  { hcov with trail := fun v hv => hcov.trail v (hsub v hv) }

theorem Covers.push (hcov : R.Covers setup trail g) (hv : R.Lent g v) :
    R.Covers setup (trail.push v) g :=
  { hcov with
    trail := fun w hw => by
      rcases List.mem_cons.mp hw with rfl | hw
      · exact hv
      · exact hcov.trail w hw }

theorem Covers.current (hcov : R.Covers setup trail g) : R.Lent g trail.current :=
  hcov.trail _ trail.current_mem

end

/-! ## Single steps -/

section
variable {setup : Setup} {trail trail' : Trail} {target : Value} {key word pattern : String}
  {modifiers : Modifiers}

theorem Lawful.within_of_missing (hR : R.Lawful) (hinv : R.inv g)
    (h : Step.missing target key g = .ok w g') : R.Kept g g' ∧ R.within g' w := by
  obtain ⟨hscalar, hcells⟩ := Step.missing_eq_ok h
  exact ⟨hR.cells hinv hcells, hR.scalar hscalar⟩

theorem Lawful.within_of_byKey (hR : R.Lawful) (hinv : R.inv g) (htarget : R.Lent g target)
    (h : Step.byKey target key none false g = .ok w g') : R.Kept g g' ∧ R.within g' w := by
  rcases Step.byKey_cases h with ⟨hkey, rfl⟩ | ⟨-, hfalse, -⟩ | ⟨-, -, hscalar, hcells⟩
  · exact ⟨.refl hinv, hR.inside hinv htarget (Graph.inside_of_getKey? hkey)⟩
  · cases hfalse
  · exact ⟨hR.cells hinv hcells, hR.scalar hscalar⟩

theorem Lawful.made_of_byPattern (hR : R.Lawful) (hinv : R.inv g) (htarget : R.Lent g target)
    (h : Step.byPattern target pattern none g = .ok w g') : R.Kept g g' ∧ R.made g' w := by
  obtain ⟨keys, found, g₁, hgather, rfl, rfl⟩ := Step.byPattern_eq_ok h
  obtain ⟨rfl, hfound⟩ := Step.gather_none_eq_ok hgather
  refine hR.newList hinv fun v hv => ?_
  obtain ⟨key, hkey⟩ := hfound v hv
  exact hR.inside hinv htarget (Graph.inside_of_getKey? hkey)

theorem Lawful.byModified_reads (hR : R.Lawful) (hcov : R.Covers setup trail g)
    (h : Step.byModified setup trail word modifiers none g = .ok (w, trail') g') :
    R.Kept g g' ∧ (R.within g' w ∨ setup.Matches word modifiers ∧ R.made g' w) := by
  obtain ⟨target, key, hselect, hfinal, ⟨-, hargument, rfl⟩ | hresult⟩ := Step.byModified_eq_ok h
  · exact ⟨.refl hcov.inv, Or.inl (hcov.arguments w (Setup.mem_arguments hargument))⟩
  have htarget : R.Lent g target := hcov.trail _ (Trail.select_eq_ok hselect).1
  rcases Step.byModifiedKey_none_eq_ok hresult with ⟨hkey, rfl⟩ | ⟨hpattern, hresult⟩ | hmissing
  · exact ⟨.refl hcov.inv, Or.inl (hR.inside hcov.inv htarget (Graph.inside_of_getKey? hkey))⟩
  · obtain ⟨hkept, hmade⟩ := hR.made_of_byPattern hcov.inv htarget hresult
    exact ⟨hkept, Or.inr ⟨⟨g, key, hfinal, hpattern⟩, hmade⟩⟩
  · obtain ⟨hkept, hwithin⟩ := hR.within_of_missing hcov.inv hmissing
    exact ⟨hkept, Or.inl hwithin⟩

end

/-! ## Walks -/

section
variable {ε : Type} {host : Host ε} {setup : Setup}

mutual

/-- **A reading step stays in a lawful region**, or comes to a list that the region has made. -/
theorem step_reads (hR : R.Lawful) {trail trail' : Trail} {level : Nat} {world world' : World ε}
    {w : Value} (token : Token) (hcalls : token.callFree = true ∨ R.Calls host)
    (hcov : R.Covers setup trail world.graph)
    (h : step host setup trail none false level token world = .ok (w, trail') world') :
    R.Kept world.graph world'.graph ∧
      (R.within world'.graph w ∨ token.MakesList setup ∧ R.made world'.graph w) := by
  match token with
  | .word key =>
    obtain ⟨-, graph, hkey, rfl⟩ := step_word_eq_ok h
    obtain ⟨hkept, hwithin⟩ := hR.within_of_byKey hcov.inv hcov.current hkey
    exact ⟨hkept, Or.inl hwithin⟩
  | .modified word modifiers =>
    obtain ⟨graph, hmodified, rfl⟩ := step_modified_eq_ok h
    rw [Token.MakesList]
    exact hR.byModified_reads hcov hmodified
  | .collection members =>
    obtain ⟨-, results, world₁, hresults, rfl, rfl⟩ := step_collection_eq_ok h
    rw [Token.callFree] at hcalls
    obtain ⟨hkept, hwithin⟩ := alternatives_reads hR members hcalls hcov hresults
    obtain ⟨hlist, hmade⟩ := hR.newList hkept.inv hwithin
    rw [Token.MakesList]
    exact ⟨hkept.trans hlist, Or.inr ⟨trivial, hmade⟩⟩
  | .container .call tree =>
    obtain ⟨-, -, f, arguments, world₁, -, hcall, hinterior⟩ := step_call_eq_ok h
    rw [Token.callFree] at hcalls
    have hcalls : R.Calls host := hcalls.resolve_left Bool.false_ne_true
    have harguments : R.Kept world.graph world₁.graph ∧
        ∀ a ∈ arguments, R.within world₁.graph a := by
      rcases hinterior with ⟨rfl, rfl⟩ | ⟨interior, hwalk, rfl⟩
      · exact ⟨.refl hcov.inv, nofun⟩
      · obtain ⟨hkept, hlent, -⟩ := walkFrom_reads hR tree (Or.inr hcalls) hcov hwalk
        exact ⟨hkept, hR.within_spread hkept.inv hlent⟩
    obtain ⟨hkept, harguments⟩ := harguments
    have hreceiver : R.Lent world₁.graph trail.receiver := by
      rcases trail.receiver_mem with hmem | hnull
      · exact hkept.lent (hcov.trail _ hmem)
      · rw [hnull]
        exact Or.inl (hR.scalar rfl)
    obtain ⟨hkept', hlent⟩ := hcalls hkept.inv hreceiver harguments hcall
    rw [Token.MakesList]
    exact ⟨hkept.trans hkept', hlent.imp_right fun hmade => ⟨trivial, hmade⟩⟩
  | .container .evalProperty tree =>
    obtain ⟨-, computed, world₁, key, graph, hwalk, -, hkey, rfl⟩ := step_computed_eq_ok h
    simp only [Token.callFree] at hcalls
    obtain ⟨hkept, -, -⟩ := walkFrom_reads hR tree hcalls hcov hwalk
    obtain ⟨hkept', hwithin⟩ := hR.within_of_byKey hkept.inv (hcov.kept hkept).current hkey
    exact ⟨hkept.trans hkept', Or.inl hwithin⟩
  | .container .property tree | .container .quote tree =>
    obtain ⟨-, hne, hwalk⟩ := step_path_eq_ok (by exact trivial) h
    simp only [Token.callFree] at hcalls
    obtain ⟨hkept, -, hresult⟩ := walkFrom_reads hR tree hcalls hcov hwalk
    rw [Token.MakesList]
    exact ⟨hkept, hresult hne⟩

theorem alternatives_reads (hR : R.Lawful) {trail : Trail} {level : Nat}
    {world world' : World ε} {results : List Value} (members : List Token)
    (hcalls : Token.allCallFree members = true ∨ R.Calls host)
    (hcov : R.Covers setup trail world.graph)
    (h : alternatives host setup trail none level members world = .ok results world') :
    R.Kept world.graph world'.graph ∧ ∀ v ∈ results, R.within world'.graph v := by
  match members with
  | [] =>
    rw [alternatives] at h
    cases h
    exact ⟨.refl hcov.inv, nofun⟩
  | member :: rest =>
    obtain ⟨⟨result, trail₁⟩, world₁, others, hmember, hothers, rfl⟩ := alternatives_cons_eq_ok h
    rw [Token.allCallFree, Bool.and_eq_true] at hcalls
    obtain ⟨hkept, hresult⟩ :=
      step_reads hR member (hcalls.imp_left And.left) hcov (alternative_eq_ok hmember)
    obtain ⟨hkept', hrest⟩ :=
      alternatives_reads hR rest (hcalls.imp_left And.right) (hcov.kept hkept) hothers
    have hlent : R.Lent world₁.graph result := hresult.imp_right And.right
    refine ⟨hkept.trans hkept', fun v hv => ?_⟩
    rcases List.mem_append.mp hv with hv | hv
    · exact hkept'.within v (hR.within_spread hkept.inv hlent v hv)
    · exact hrest v hv

theorem walkFrom_reads (hR : R.Lawful) {trail : Trail} {level : Nat} {world world' : World ε}
    {w : Value} (tokens : List Token) (hcalls : Token.allCallFree tokens = true ∨ R.Calls host)
    (hcov : R.Covers setup trail world.graph)
    (h : walkFrom host setup trail none level tokens world = .ok w world') :
    R.Kept world.graph world'.graph ∧ R.Lent world'.graph w ∧ (tokens ≠ [] →
      R.within world'.graph w ∨ Token.EndsInList setup tokens ∧ R.made world'.graph w) := by
  match tokens with
  | [] =>
    rw [walkFrom] at h
    cases h
    exact ⟨.refl hcov.inv, hcov.current, fun hne => absurd rfl hne⟩
  | token :: rest =>
    obtain ⟨result, trail₁, world₁, hstep, hrest⟩ := walkFrom_cons_none_eq_ok h
    rw [Token.allCallFree, Bool.and_eq_true] at hcalls
    obtain ⟨hkept, hresult⟩ := step_reads hR token (hcalls.imp_left And.left) hcov hstep
    have hlent : R.Lent world₁.graph result := hresult.imp_right And.right
    have hcov' : R.Covers setup (trail₁.push result) world₁.graph :=
      ((hcov.kept hkept).of_subset (step_trail hstep)).push hlent
    obtain ⟨hkept', hlent', hend⟩ :=
      walkFrom_reads hR rest (hcalls.imp_left And.right) hcov' hrest
    refine ⟨hkept.trans hkept', hlent', fun _ => ?_⟩
    rw [Token.EndsInList]
    by_cases hne : rest = []
    · -- the walk is at its end, with the result of this step
      subst hne
      rw [walkFrom] at hrest
      cases hrest
      exact hresult.imp_right fun hmade => ⟨Or.inl ⟨rfl, hmade.1⟩, hmade.2⟩
    · exact (hend hne).imp_right fun hmade => ⟨Or.inr hmade.1, hmade.2⟩

end

/-! ## The way to a write -/

/-- Maps that are made where keys are missing do not lead out of the region. -/
def Vivifies (R : Region) : Prop :=
  ∀ {g target key w g'}, R.inv g → R.within g target → target.isContainer = true →
    g.getKey? target key = none → Step.vivifyKey target key g = .ok w g' →
    R.inv g' ∧ (∀ v, R.within g v → R.within g' v) ∧ R.within g' w

/-- **What a step on the way to a write does**: nothing leaves the region, and it comes to a value
of the region. -/
structure Goes (R : Region) (g : Graph) (w : Value) (g' : Graph) : Prop where
  /-- What held of the graph still holds. -/
  inv : R.inv g'
  /-- What belonged to the region still does. -/
  within : ∀ v, R.within g v → R.within g' v
  /-- The value belongs to the region. -/
  result : R.within g' w

variable {trail trail' : Trail} {level : Nat} {world world' : World ε} {v w : Value}
  {token : Token}

theorem Lawful.goes_of_byKey (hR : R.Lawful) {target : Value} {key : String} {vivify : Bool}
    (hvivify : vivify = true → R.Vivifies) (hinv : R.inv g) (htarget : R.within g target)
    (h : Step.byKey target key none vivify g = .ok w g') : R.Goes g w g' := by
  rcases Step.byKey_cases h with ⟨hkey, rfl⟩ | ⟨hkey, htrue, hcontainer, hmade⟩ |
    ⟨-, -, hscalar, hcells⟩
  · exact ⟨hinv, fun _ h => h, hR.inside hinv (Or.inl htarget) (Graph.inside_of_getKey? hkey)⟩
  · obtain ⟨hinv', hwithin, hresult⟩ := hvivify htrue hinv htarget hcontainer hkey hmade
    exact ⟨hinv', hwithin, hresult⟩
  · have hkept := hR.cells hinv hcells
    exact ⟨hkept.inv, hkept.within, hR.scalar hscalar⟩

theorem step_goes (hR : R.Lawful) {vivify : Bool} (hvivify : vivify = true → R.Vivifies)
    (hcalls : token.callFree = true ∨ R.Calls host)
    (hlist : ¬ token.MakesList setup ∨ ∀ g v, R.made g v → R.within g v)
    (hcov : R.Covers setup trail world.graph)
    (hcurrent : R.within world.graph trail.current)
    (h : step host setup trail none vivify level token world = .ok (w, trail') world') :
    R.Goes world.graph w world'.graph := by
  by_cases hword : ∃ key, token = .word key
  · obtain ⟨key, rfl⟩ := hword
    obtain ⟨-, graph, hkey, rfl⟩ := step_word_eq_ok h
    exact hR.goes_of_byKey hvivify hcov.inv hcurrent hkey
  by_cases hcomputed : ∃ tree, token = .container .evalProperty tree
  · obtain ⟨tree, rfl⟩ := hcomputed
    obtain ⟨-, computed, world₁, key, graph, hwalk, -, hkey, rfl⟩ := step_computed_eq_ok h
    simp only [Token.callFree] at hcalls
    obtain ⟨hkept, -, -⟩ := walkFrom_reads hR tree hcalls hcov hwalk
    have hgoes := hR.goes_of_byKey hvivify hkept.inv (hkept.within _ hcurrent) hkey
    exact ⟨hgoes.inv, fun v hv => hgoes.within v (hkept.within v hv), hgoes.result⟩
  · -- all other steps read, also on the way to a write
    rw [step_of_not_key (not_exists.mp hword) (not_exists.mp hcomputed)] at h
    obtain ⟨hkept, hresult⟩ := step_reads hR token hcalls hcov h
    refine ⟨hkept.inv, hkept.within, ?_⟩
    rcases hresult with hwithin | ⟨hmakes, hmade⟩
    · exact hwithin
    · exact hlist.elim (absurd hmakes) fun hlist => hlist _ _ hmade

/-- **The way to a write stays in a lawful region**, if no step of it comes to a list that does not
belong there. -/
theorem trailFrom_goes (hR : R.Lawful) (hvivify : setup.autoVivify = true → R.Vivifies)
    (tokens : List Token) (hcalls : Token.allCallFree tokens = true ∨ R.Calls host)
    (hlist : (∀ token ∈ tokens, ¬ token.MakesList setup) ∨ ∀ g v, R.made g v → R.within g v)
    (hinv : R.inv world.graph) (harguments : ∀ v ∈ setup.arguments, R.within world.graph v)
    (htrail : ∀ v ∈ trail.values, R.within world.graph v)
    (h : trailFrom host setup trail level tokens world = .ok trail' world') :
    R.inv world'.graph ∧ (∀ v, R.within world.graph v → R.within world'.graph v) ∧
      ∀ v ∈ trail'.values, R.within world'.graph v := by
  induction tokens generalizing trail world with
  | nil =>
    cases h
    exact ⟨hinv, fun _ h => h, htrail⟩
  | cons token rest ih =>
    obtain ⟨⟨result, trail₁⟩, world₁, hstep, hrest⟩ := exists_of_bind_ok h
    rw [Token.allCallFree, Bool.and_eq_true] at hcalls
    have hcov : R.Covers setup trail world.graph :=
      ⟨hinv, harguments, fun v hv => Or.inl (htrail v hv)⟩
    have hgoes := step_goes hR hvivify (hcalls.imp_left And.left)
      (hlist.imp_left fun hnone => hnone token List.mem_cons_self) hcov
      (htrail _ trail.current_mem) hstep
    have htrail' : ∀ v ∈ (trail₁.push result).values, R.within world₁.graph v := fun v hv => by
      rcases List.mem_cons.mp hv with rfl | hv
      · exact hgoes.result
      · exact hgoes.within v (htrail v (step_trail hstep v hv))
    obtain ⟨hinv', hwithin, hend⟩ := ih (hcalls.imp_left And.right)
      (hlist.imp_left fun hnone token hmem => hnone token (List.mem_cons_of_mem _ hmem))
      hgoes.inv (fun v hv => hgoes.within v (harguments v hv)) htrail' hrest
    exact ⟨hinv', fun v hv => hwithin v (hgoes.within v hv), hend⟩

end

end Region

end GraphPath
