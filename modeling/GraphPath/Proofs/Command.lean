import GraphPath.Command
import GraphPath.Proofs.Resolve.Loopless
import GraphPath.Proofs.Token.Scan

/-! # The document that a write prints

A command works on documents that have just been read from JSON.  In them every
container was made after all those inside it (`Graph.Layered`), so there are no loops;
and what was read for one of its texts, the new value for one, stands apart from all the
rest (`Graph.Grown.apart`).

A write that is carried out on such a graph and spares the new value leaves no loop in
it, and so **there is a finite document to print** (`Request.execute_set`).  It need not
be so for a collection whose later alternatives go into the new value.
-/

namespace GraphPath

namespace Graph
variable {g g₁ g' : Graph} {values values' : List Value} {v w : Value}

/-- New containers are put on top. -/
theorem Grown.layered (hgrown : g.Grown values g') (hg : g.Layered) : g'.Layered := by
  intro h k hin
  rw [inside_container_iff] at hin
  rcases Nat.lt_or_ge h g.cells.size with hlt | hge
  · rw [hgrown.kept h hlt] at hin
    exact hg h k (inside_container_iff.mpr hin)
  · exact (hgrown.below h hge k hin).2

/-- **What a graph has grown by stands apart**, also when it grows on. -/
theorem Grown.apart (hg : g.Closed) (hgrown : g.Grown values g₁) (hrest : g₁.Grown values' g') :
    g'.Apart fun h => g.cells.size ≤ h ∧ h < g₁.cells.size := by
  intro h k hin
  rw [inside_container_iff] at hin
  constructor
  · rintro ⟨hge, hlt⟩
    rw [hrest.kept h hlt] at hin
    obtain ⟨hle, hkh⟩ := hgrown.below h hge k hin
    exact ⟨hle, Nat.lt_trans hkh hlt⟩
  · rintro ⟨hge, hlt⟩
    have hlow : ¬ h < g.cells.size := fun hh => by
      rw [hrest.kept h (Nat.lt_of_lt_of_le hh hgrown.size_le), hgrown.kept h hh] at hin
      exact Nat.not_lt_of_le hge (hg h _ hin)
    have hhigh : ¬ g₁.cells.size ≤ h := fun hh =>
      Nat.not_lt_of_le (hrest.below h hh k hin).1 hlt
    exact ⟨Nat.not_lt.mp hlow, Nat.not_le.mp hhigh⟩

theorem Closed.addArgument (hg : g.Closed) (argument : String) :
    g.Grown [(g.addArgument argument).1] (g.addArgument argument).2 := by
  unfold Graph.addArgument
  split
  · exact hg.addJson _
  · refine Grown.of_scalars hg fun v hv => ?_
    rw [List.mem_singleton.mp hv]
    rfl

theorem Closed.addArguments (hg : g.Closed) (arguments : List String) :
    g.Grown (g.addArguments arguments).1 (g.addArguments arguments).2 := by
  induction arguments generalizing g with
  | nil => exact Grown.of_scalars hg nofun
  | cons argument rest ih =>
    rw [Graph.addArguments]
    have hargument := hg.addArgument argument
    exact hargument.append (ih hargument.closed)

end Graph

/-! ## What a command does with its document -/

section
variable {engine : Engine} {request : Request} {path value : String} {arguments : List String}
  {document json : Json}

theorem Request.execute_eq_of_get (hcommand : request.command = .get path arguments)
    (hengine : request.engine = .ok engine) (hdocument : request.document = .ok document) :
    let root := Graph.addJson {} document
    let given := root.2.addArguments arguments
    request.execute = (engine.resolveAlone given.2 root.1 path none given.1).bind fun result =>
      result.2.respond result.1 := by
  unfold Request.execute
  simp only [hengine, hcommand, hdocument]
  rfl

theorem Request.execute_eq_of_set (hcommand : request.command = .set path value arguments)
    (hengine : request.engine = .ok engine) (hdocument : request.document = .ok document)
    (hjson : Json.read? value = some json) :
    let root := Graph.addJson {} document
    let new := root.2.addJson json
    let given := new.2.addArguments arguments
    request.execute = (engine.resolveAlone given.2 root.1 path (some new.1) given.1).bind
      fun result => result.2.respond root.1 := by
  unfold Request.execute
  simp only [hengine, hcommand, hdocument, hjson]
  rfl

/-- A search reports that nothing was found if and only if the engine finds nothing. -/
theorem Request.execute_eq_notFound_iff {all : Bool} (hcommand : request.command = .find value all)
    (hengine : request.engine = .ok engine) (hdocument : request.document = .ok document)
    (hjson : Json.read? value = some json) :
    let root := Graph.addJson {} document
    let target := root.2.addJson json
    request.execute = .error .notFound ↔
      engine.find? target.2 root.1 target.1 (if all then .many else .one) = none := by
  unfold Request.execute
  simp only [hengine, hcommand, hdocument, hjson, bind, Except.bind]
  split
  · rename_i paths hfound
    refine iff_of_false ?_ (by simp [hfound])
    rintro ⟨⟩
  · rename_i hfound
    exact iff_of_true rfl hfound

end

/-! ## Writes -/

section
variable {engine : Engine} {g g₁ g₂ g' : Graph} {root new w : Value} {arguments : List Value}
  {path : String}

theorem Engine.exists_of_resolveAlone_ok {new? : Option Value}
    (h : engine.resolveAlone g root path new? arguments = .ok (w, g')) :
    ∃ world, (engine.resolve Host.none root (.text path) new? arguments).1 ⟨g, ()⟩ = .ok w world ∧
      world.graph = g' := by
  unfold Engine.resolveAlone at h
  split at h
  · rename_i v world hresolve
    cases h
    exact ⟨world, hresolve, rfl⟩
  · cases h

/-- **A write with a new value leaves a graph without loops**, if no alternative behind the first
one goes into the value. -/
theorem Engine.resolveAlone_leaves (hg : g.Closed) (hlayered : g.Layered) (hroot : g.Holds root)
    (hnew : g.Grown [new] g₁) (harguments : g₁.Grown arguments g₂)
    (hwatch : engine.Watches Host.none (sparing Host.none (engine.setup arguments) new) root new
      (.text path) arguments ⟨g₂, ()⟩)
    (hrun : engine.resolveAlone g₂ root path (some new) arguments = .ok (w, g')) :
    g₂.Leaves [w] g' := by
  -- the containers that were made for the new value, after the document and before the arguments
  let zone (h : Handle) : Prop := g.cells.size ≤ h ∧ h < g₁.cells.size
  have htame : g₂.Tame zone := {
    closed := harguments.closed
    acyclic := (harguments.layered (hnew.layered hlayered)).acyclic
    zone_lt := fun h hh => Nat.lt_of_lt_of_le hh.2 harguments.size_le
    apart := Graph.Grown.apart hg hnew harguments }
  have hroot₂ : g₂.Outside zone root := by
    refine ⟨hroot.mono (Nat.le_trans hnew.size_le harguments.size_le), fun h hh hzone => ?_⟩
    subst hh
    exact Nat.not_lt_of_le hzone.1 hroot
  have harguments₂ : ∀ a ∈ arguments, g₂.Outside zone a := by
    refine fun a ha => ⟨harguments.holds a ha, fun h hh hzone => ?_⟩
    subst hh
    exact Nat.not_lt_of_le (harguments.fresh h ha) hzone.2
  have hready : g₂.Ready zone new false := by
    refine Or.inl fun h hh => ?_
    subst hh
    exact ⟨hnew.fresh h List.mem_cons_self, hnew.holds _ List.mem_cons_self⟩
  have hcov : (apartRegion zone).Covers (engine.setup arguments) ⟨root, []⟩ g₂ := by
    refine ⟨htame, harguments₂, fun a ha => Or.inl ?_⟩
    rw [List.mem_singleton.mp ha]
    exact hroot₂
  obtain ⟨⟨graph, ⟨⟩⟩, hresolve, rfl⟩ := Engine.exists_of_resolveAlone_ok hrun
  rw [Engine.resolve_fst] at hresolve
  cases hroute : (engine.route (.text path)).1 with
  | error e =>
    rw [hroute] at hresolve
    cases hresolve
  | ok route =>
    rw [hroute] at hresolve
    exact walkFrom_leaves _ hcov hready (hwatch route hroute)
      (Engine.walkFrom_of_follow hresolve)

/-- **A write that succeeds has a finite document to print**, if no alternative behind the first one
goes into the new value: the graph that it leaves is without loops. -/
theorem Request.execute_set {request : Request} {path value : String} {arguments : List String}
    {document json : Json} (hcommand : request.command = .set path value arguments)
    (hengine : request.engine = .ok engine) (hdocument : request.document = .ok document)
    (hjson : Json.read? value = some json) :
    let root := Graph.addJson {} document
    let new := root.2.addJson json
    let given := new.2.addArguments arguments
    engine.Watches Host.none (sparing Host.none (engine.setup given.1) new.1) root.1 new.1
        (.text path) given.1 ⟨given.2, ()⟩ →
      engine.resolveAlone given.2 root.1 path (some new.1) given.1 = .ok (w, g') →
      g'.Acyclic ∧ ∃ printed, g'.toJson? root.1 = some printed ∧
        request.execute = .ok (.json printed) := by
  intro root new given hwatch hrun
  have hroot := Graph.closed_empty.addJson document
  have hnew := hroot.closed.addJson json
  have hgiven := hnew.closed.addArguments arguments
  have hin : root.2.Holds root.1 := hroot.holds _ List.mem_cons_self
  have hleaves := Engine.resolveAlone_leaves hroot.closed (hroot.layered Graph.layered_empty) hin
    hnew hgiven hwatch hrun
  have hholds : g'.Holds root.1 :=
    hleaves.holds _ (hin.mono (Nat.le_trans hnew.size_le hgiven.size_le))
  obtain ⟨printed, hprinted⟩ := hleaves.tame.acyclic.exists_toJson? hleaves.tame.closed hholds
  refine ⟨hleaves.tame.acyclic, printed, hprinted, ?_⟩
  have hexecute : request.execute = g'.respond root.1 := by
    refine (Request.execute_eq_of_set hcommand hengine hdocument hjson).trans ?_
    rw [hrun]
    rfl
  rw [hexecute, Graph.respond, hprinted]
  rfl

end

/-- The path of a collection of two words, read under the grammar that engines begin with. -/
theorem Grammar.tokenize_two_words (maxDepth : Nat) :
    Grammar.default.tokenize maxDepth "a,b" = .ok [.collection [.word "a", .word "b"]] := by
  have hletter : Grammar.default.lexeme 'a' [',', 'b'] = (.letter 'a', [',', 'b']) := by rfl
  have hseparator : Grammar.default.lexeme ',' ['b'] = (.separator .collection, ['b']) := by rfl
  have hlast : Grammar.default.lexeme 'b' [] = (.letter 'b', []) := by rfl
  have hstrip : Grammar.default.stripChars "a,b".toList = ['a', ',', 'b'] := by rfl
  obtain ⟨d, hdraft, hfinish⟩ : ∃ d, (({} : Draft).push 'a').separate .collection = .ok d ∧
      (d.push 'b').finish = .ok [.collection [.word "a", .word "b"]] := ⟨_, rfl, by rfl⟩
  rw [tokenize_eq_scan, hstrip, scan_letter hletter, scan_separator hseparator, hdraft,
    atPosition_ok, Except.bind, scan_letter hlast, scan_nil, hfinish, atPosition_ok]

/-- A new map that stands under two keys is printed twice. -/
theorem Request.execute_set_shared :
    let request : Request := { command := .set "a,b" "\x7b\x7d" [], input? := some "\x7b\x7d" }
    let engine : Engine := {}
    let root := Graph.addJson {} (.object [])
    let new := root.2.addJson (.object [])
    request.engine = .ok engine ∧ request.document = .ok (.object []) ∧
      Json.read? "\x7b\x7d" = some (.object []) ∧
      engine.Watches Host.none (sparing Host.none (engine.setup []) new.1) root.1 new.1
        (.text "a,b") [] ⟨new.2, ()⟩ ∧
      ∃ w g', engine.resolveAlone new.2 root.1 "a,b" (some new.1) [] = .ok (w, g') ∧
        g'.Acyclic ∧ ∃ printed, g'.toJson? root.1 = some printed ∧
          request.execute = .ok (.json printed) := by
  intro request engine root new
  have hengine : request.engine = .ok engine := by rfl
  have hjson : Json.read? "\x7b\x7d" = some (.object []) := by with_unfolding_all rfl
  have hdocument : request.document = .ok (.object []) := by
    unfold Request.document
    simp only [request, hjson]
    rfl
  have hroute : (engine.route (.text "a,b")).1 =
      .ok (.tree [.collection [.word "a", .word "b"]]) := by
    have hrecalls : engine.Recalls "a,b" := Engine.recalls_of_empty rfl "a,b"
    have hneeds : engine.grammar.needsTokenizer "a,b" = true := by rfl
    unfold Engine.route
    dsimp only
    rw [if_pos hneeds, Engine.tokenize_fst hrecalls]
    exact congrArg (Except.map Route.tree) (Grammar.tokenize_two_words _)
  have hwatch : engine.Watches Host.none (sparing Host.none (engine.setup []) new.1) root.1 new.1
      (.text "a,b") [] ⟨new.2, ()⟩ := by
    intro route hr
    rw [hroute] at hr
    cases hr
    rw [Route.steps, Watch.Way, Watch.Last, Watch.Alternatives, Watch.Last]
    refine ⟨fun _ => ⟨by rintro ⟨⟩, fun result world₁ hmember => ?_⟩, fun hne => absurd rfl hne⟩
    cases hmember
    rw [Watch.Alternatives, Watch.Last]
    refine ⟨fun _ target key world₂ haddresses hpart => ?_, fun _ _ _ => trivial⟩
    cases haddresses
    cases hpart.2.eq_of_not_inside fun x hin => by
      cases Graph.inside_container_iff.mp hin
  have hresolve : ∃ w g', engine.resolveAlone new.2 root.1 "a,b" (some new.1) [] = .ok (w, g') := by
    unfold Engine.resolveAlone
    rw [Engine.resolve_fst, hroute]
    exact ⟨_, _, rfl⟩
  obtain ⟨w, g', hrun⟩ := hresolve
  exact ⟨hengine, hdocument, hjson, hwatch, w, g', hrun,
    Request.execute_set rfl hengine hdocument hjson hwatch hrun⟩

end GraphPath
