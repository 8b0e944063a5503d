import GraphPath.Proofs.Command
import GraphPath.Proofs.Locate.FoundPaths
import GraphPath.Proofs.Resolve.InPlace

/-! # Reading and writing a document by command

A command reads a document from its text, builds it in a graph, resolves a path there, and
prints what it has come to.  The graph does not show: **the document under a path is printed
as it is, and after a write the document is printed with the new one in its place**
(`Request.execute_get_set`).

The document and the new value are built one after the other, so they have no container
in common, and the arguments have none of either.
-/

namespace GraphPath

section
variable {engine : Engine} {g g' : Graph} {root w : Value} {arguments : List Value}
  {keys : List String} {d : Json}

/-- A path of keys is resolved by following the keys. -/
theorem Engine.resolveAlone_of_follow (hgrammar : engine.grammar.Valid)
    (hmodifier : engine.grammar.propertySeparator ∉ engine.grammar.modifiers.keys)
    (hcache : engine.cache.entries = []) (hne : keys ≠ []) (hkeys : "" ∉ keys)
    {new? : Option Value}
    (hfollow : Flat.follow (engine.setup arguments) new? root keys g = .ok w g') :
    engine.resolveAlone g root (engine.grammar.pathOfKeys keys) new? arguments = .ok (w, g') := by
  have hrun : (Flat.follow (engine.setup arguments) new? root keys).run
      (⟨g, ()⟩ : World Unit) = .ok w ⟨g', ()⟩ := Edit.run_of_ok hfollow
  have hsame := engine.resolve_row hgrammar hmodifier hcache hne hkeys Host.none root new?
    arguments ⟨g, ()⟩
  rw [hrun] at hsame
  rw [Engine.resolveAlone, hsame.eq_ok]

/-- The engine that commands use without options resolves a path of keys by following them. -/
theorem Engine.resolveAlone_default (hne : keys ≠ []) (hkeys : "" ∉ keys) {new? : Option Value}
    (hfollow : Flat.follow (({} : Engine).setup arguments) new? root keys g = .ok w g') :
    ({} : Engine).resolveAlone g root (Grammar.default.pathOfKeys keys) new? arguments =
      .ok (w, g') :=
  Engine.resolveAlone_of_follow Grammar.default_valid (by decide) rfl hne hkeys hfollow

/-- A document is read from the text of a request. -/
theorem Request.document_eq_ok {request : Request} {input : String}
    (hin : request.input? = some input) (hinput : Json.read? input = some d) :
    request.document = .ok d := by
  rw [Request.document, hin]
  simp only [hinput]
  rfl

theorem Graph.Stands.respond {s : List Handle} (h : g.Stands s w d) (hd : d.Finite)
    (hordered : d.Ordered) (hnodup : s.Nodup) (hown : ∀ h ∈ s, h < g.cells.size) :
    g.respond w = .ok (.json d) := by
  rw [Graph.respond, h.toJson? hd hordered hnodup hown]
  rfl

end

section
variable {request : Request} {input value : String} {d e sub : Json} {keys : List String}
  {arguments : List String}

/-- **The document at a location is printed.** -/
theorem Request.execute_get (hengine : request.engine = .ok {})
    (hcommand : request.command = .get (Grammar.default.pathOfKeys keys) arguments)
    (hin : request.input? = some input) (hinput : Json.read? input = some d) (hd : d.Finite)
    (hne : keys ≠ []) (hkeys : "" ∉ keys) (hsub : d.valueAt? keys = some sub) :
    request.execute = .ok (.json sub) := by
  have hordered : d.Ordered := (Json.wellRead_of_read? hinput).1
  obtain ⟨s, hroot, hs⟩ := Graph.closed_empty.stands_addJson d hordered
  let root := Graph.addJson {} d
  let given := root.2.addArguments arguments
  have hgiven : root.2.Grown given.1 given.2 :=
    (Graph.closed_empty.addJson d).closed.addArguments arguments
  have hstands : given.2.Stands s root.1 d := hroot.congr fun h hh => hgiven.kept h (hs.new h hh).2
  have hown : ∀ h ∈ s, h < given.2.cells.size := fun h hh =>
    Nat.lt_of_lt_of_le (hs.new h hh).2 hgiven.size_le
  obtain ⟨t, w, hvalue, hw, hpart⟩ := hstands.exists_valueAt? hsub
  have hrun : ({} : Engine).resolveAlone given.2 root.1 (Grammar.default.pathOfKeys keys) none
      given.1 = .ok (w, given.2) :=
    Engine.resolveAlone_default hne hkeys (Flat.follow_of_valueAt? hvalue _)
  have hexecute : request.execute = given.2.respond w := by
    refine (execute_eq_of_get hcommand hengine (document_eq_ok hin hinput)).trans ?_
    rw [hrun]
    rfl
  rw [hexecute]
  exact hw.respond (hd.valueAt? hsub) (hordered.valueAt? hsub) (hs.nodup.sublist hpart)
    fun h hh => hown h (hpart.subset hh)

/-- **After a write the document is printed with the new value in its place.** -/
theorem Request.execute_set_document (hengine : request.engine = .ok {})
    (hcommand : request.command = .set (Grammar.default.pathOfKeys keys) value arguments)
    (hin : request.input? = some input) (hinput : Json.read? input = some d) (hd : d.Finite)
    (hvalue : Json.read? value = some e) (he : e.Finite) (hne : keys ≠ []) (hkeys : "" ∉ keys)
    (hsub : d.valueAt? keys = some sub) :
    request.execute = .ok (.json (d.replaceAt keys e)) := by
  have hordered : d.Ordered := (Json.wellRead_of_read? hinput).1
  have hordered' : e.Ordered := (Json.wellRead_of_read? hvalue).1
  have hbuilt := Graph.closed_empty.addJson d
  obtain ⟨s, hroot, hs⟩ := Graph.closed_empty.stands_addJson d hordered
  let root := Graph.addJson {} d
  have hmade := hbuilt.closed.addJson e
  obtain ⟨t, hnew, ht⟩ := hbuilt.closed.stands_addJson e hordered'
  let new := root.2.addJson e
  have hgiven := hmade.closed.addArguments arguments
  let given := new.2.addArguments arguments
  -- nothing that is made later changes what was made before
  have hstands : given.2.Stands s root.1 d := hroot.congr fun h hh =>
    (hgiven.kept h (Nat.lt_of_lt_of_le (hs.new h hh).2 hmade.size_le)).trans
      (hmade.kept h (hs.new h hh).2)
  have hstands' : given.2.Stands t new.1 e := hnew.congr fun h hh => hgiven.kept h (ht.new h hh).2
  have hfresh : Graph.Fresh {} (s ++ t) new.2 := hs.append ht hbuilt.size_le hmade.size_le
  have hown : ∀ h ∈ s ++ t, h < given.2.cells.size := fun h hh =>
    Nat.lt_of_lt_of_le (hfresh.new h hh).2 hgiven.size_le
  obtain ⟨g', hfollow, hrewritten⟩ := hstands.follow_write hstands' hfresh.nodup
    (fun h hh => hown h (List.mem_append.mpr (Or.inl hh))) hne hsub (({} : Engine).setup given.1)
  obtain ⟨s', hs', hnodup, hsubset⟩ := hrewritten.stands
  have hrun : ({} : Engine).resolveAlone given.2 root.1 (Grammar.default.pathOfKeys keys)
      (some new.1) given.1 = .ok (new.1, g') := Engine.resolveAlone_default hne hkeys hfollow
  have hexecute : request.execute = g'.respond root.1 := by
    refine (execute_eq_of_set hcommand hengine (document_eq_ok hin hinput) hvalue).trans ?_
    rw [hrun]
    rfl
  rw [hexecute]
  refine hs'.respond (hd.replaceAt he) (hordered.replaceAt hordered') hnodup fun h hh => ?_
  rw [hrewritten.size_eq]
  exact hown h (List.mem_append.mpr (hsubset h hh))

/-- **Reading and writing by command is exact**: along the path of a location, the document there is
printed, and a write prints the whole document with the new one at the location. -/
theorem Request.execute_get_set (hinput : Json.read? input = some d) (hd : d.Finite)
    (hne : keys ≠ []) (hkeys : ∀ key ∈ keys, key ≠ "") (hsub : d.valueAt? keys = some sub)
    (arguments : List String) :
    let path := Grammar.default.pathOfKeys keys
    ({ command := .get path arguments, input? := some input } : Request).execute =
        .ok (.json sub) ∧
      ∀ value e, Json.read? value = some e → e.Finite →
        ({ command := .set path value arguments, input? := some input } : Request).execute =
          .ok (.json (d.replaceAt keys e)) := by
  have hempty : "" ∉ keys := fun h => hkeys "" h rfl
  intro path
  refine ⟨execute_get rfl rfl rfl hinput hd hne hempty hsub, fun value e hvalue he => ?_⟩
  exact execute_set_document rfl rfl rfl hinput hd hvalue he hne hempty hsub

/-- An item of an array under a key with a separator in it. -/
theorem Request.execute_get_set_item :
    let input := "\x7b\"a.b\":[true,null]\x7d"
    let d := Json.object [("a.b", .array [.bool true, .null])]
    let path := Grammar.default.pathOfKeys ["a.b", "1"]
    path = "a\\.b.1" ∧ Json.read? input = some d ∧ d.Finite ∧
      d.valueAt? ["a.b", "1"] = some .null ∧
      ({ command := .get path [], input? := some input } : Request).execute =
        .ok (.json .null) ∧
      Json.read? "[false]" = some (.array [.bool false]) ∧ (Json.array [.bool false]).Finite ∧
      ({ command := .set path "[false]" [], input? := some input } : Request).execute =
        .ok (.json (.object [("a.b", .array [.bool true, .array [.bool false]])])) := by
  intro input d path
  have hinput : Json.read? input = some d := by
    simp only [input, d]
    with_unfolding_all rfl
  have hvalue : Json.read? "[false]" = some (.array [.bool false]) := by with_unfolding_all rfl
  have hscalar : ∀ e : Json, e.values = [] → e.IsFinite → e.Finite := fun e he hfinite =>
    .intro hfinite (by simp [he])
  have hd : d.Finite := by
    refine .intro trivial fun e he => ?_
    obtain rfl := List.mem_singleton.mp he
    refine .intro trivial fun e he => ?_
    simp only [Json.values, List.mem_cons, List.not_mem_nil, or_false] at he
    rcases he with rfl | rfl <;> exact hscalar _ rfl trivial
  have he : (Json.array [.bool false]).Finite := by
    refine .intro trivial fun e he => ?_
    obtain rfl := List.mem_singleton.mp he
    exact hscalar _ rfl trivial
  have hsub : d.valueAt? ["a.b", "1"] = some .null := by rfl
  obtain ⟨hget, hset⟩ := execute_get_set hinput hd (by simp) (by decide) hsub []
  exact ⟨by decide, hinput, hd, hsub, hget, hvalue, he, hset "[false]" _ hvalue he⟩

end

end GraphPath
