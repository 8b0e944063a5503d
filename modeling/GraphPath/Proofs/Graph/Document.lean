import GraphPath.Proofs.Graph.Closed
import GraphPath.Proofs.Json.Reading
import Mathlib.Data.List.Perm.Subperm

/-! # Documents in graphs

A value of a graph stands for a document if it looks like it, all the way down
(`Graph.Stands`).  The relation also says which containers are made use of for that, in a
list in which a container that is used twice would occur twice: its **footprint**.  What is
outside of the footprint does not matter (`Stands.congr`), and if nothing in it occurs
twice, a change of one part leaves the others alone (`Stands.select`).

A document that is put into a graph is stood for by new containers, each used once
(`Closed.stands_addJson`), and a value that stands for a document is printed as this
document (`Stands.toJsonWithin?`).
-/

namespace GraphPath

/-- Giving a value to a key that is there, by its position. -/
theorem OrderedMap.put_eq_set {α : Type} {key : String} {members : List (String × α)} {i : Nat}
    (hnodup : (members.map Prod.fst).Nodup) (hi : (members.map Prod.fst)[i]? = some key) (a : α) :
    put key a members = members.set i (key, a) := by
  induction members generalizing i with
  | nil => cases hi
  | cons member rest ih =>
    obtain ⟨k, b⟩ := member
    obtain ⟨hk, hrest⟩ := List.nodup_cons.mp hnodup
    cases i with
    | zero =>
      obtain rfl : k = key := Option.some.inj hi
      exact if_pos rfl
    | succ i =>
      have hne : key ≠ k := by
        rintro rfl
        exact hk (List.mem_of_getElem? hi)
      rw [put, if_neg hne, ih hrest hi]
      rfl

/-- A map of pairs with different keys has just these pairs. -/
theorem OrderedMap.entries_ofList {α : Type} {members : List (String × α)}
    (hnodup : (members.map Prod.fst).Nodup) : (ofList members).entries = members := by
  have hfold : ∀ (members : List (String × α)) (m : OrderedMap String α),
      (m.keys ++ members.map Prod.fst).Nodup →
        (members.foldl (fun m member => m.insert member.1 member.2) m).entries =
          m.entries ++ members := by
    intro members
    induction members with
    | nil => exact fun m _ => (List.append_nil _).symm
    | cons member rest ih =>
      intro m hdistinct
      have hnew : member.1 ∉ m.keys := fun hin =>
        (List.nodup_append.mp hdistinct).2.2 _ hin _ List.mem_cons_self rfl
      have hput : (m.insert member.1 member.2).entries = m.entries ++ [member] :=
        put_of_not_mem hnew
      have hkeys : (m.insert member.1 member.2).keys = m.keys ++ [member.1] :=
        m.keys_insert_of_not_mem hnew member.2
      rw [List.foldl_cons, ih _ (by rw [hkeys]; simpa using hdistinct), hput]
      simp
  exact hfold members .empty hnodup

/-- Keys that ascend are different. -/
theorem Json.Ascending.nodup {α : Type} {members : List (String × α)}
    (h : Json.Ascending members) : (members.map Prod.fst).Nodup := by
  refine List.pairwise_map.mpr (h.imp fun {member other} hlt heq => ?_)
  have hsame : compare other.1 other.1 = .eq := Std.ReflCmp.compare_self
  rw [heq, hsame] at hlt
  cases hlt

/-! ## Positions of keys -/

namespace Cell
variable {cell : Cell} {d e sub : Json} {key : String} {i : Nat}

/-- **A container is of the kind of a document**, with the same keys. -/
def Mirrors : Cell → Json → Prop
  | .list _, .array _ => True
  | .map fields, .object members => fields.keys = members.map Prod.fst
  | _, _ => False

/-- A key names the entry at a position. -/
def Names : Cell → String → Nat → Prop
  | .list _, key, i => listIndex? key = some i
  | .map fields, key, i => fields.keys[i]? = some key

theorem get?_of_names (h : cell.Names key i) : cell.get? key = cell.values[i]? := by
  cases cell with
  | list items =>
    have hkey : listIndex? key = some i := h
    rw [get?, hkey]
    rfl
  | map fields =>
    have hkey : (fields.entries.map Prod.fst)[i]? = some key := h
    rw [List.getElem?_map] at hkey
    obtain ⟨⟨_, v⟩, hentry, rfl⟩ := Option.map_eq_some_iff.mp hkey
    have hvalue : fields.values[i]? = some v := by
      rw [OrderedMap.values, List.getElem?_map, hentry]
      rfl
    exact (fields.get?_eq_some_iff.mpr (List.mem_of_getElem? hentry)).trans hvalue.symm

/-- Giving a value to a key puts it at the position of the key. -/
theorem set_of_names (h : cell.Names key i) (hi : i < cell.values.length) (v : Value) :
    ∃ cell', cell.set key v = .ok cell' ∧ cell'.values = cell.values.set i v ∧
      ∀ d : Json, cell.Mirrors d → cell'.Mirrors d := by
  cases cell with
  | list items =>
    have hkey : listIndex? key = some i := h
    refine ⟨.list (items.set i v), ?_, rfl, fun d hd => ?_⟩
    · rw [set, hkey]
      exact if_pos hi
    · cases d <;> exact hd
  | map fields =>
    have hkey : fields.keys[i]? = some key := h
    have hput : (fields.insert key v).entries = fields.entries.set i (key, v) :=
      OrderedMap.put_eq_set fields.nodup hkey v
    have hkeys : (fields.insert key v).keys = fields.keys :=
      fields.keys_insert_of_mem (List.mem_of_getElem? hkey) v
    refine ⟨.map (fields.insert key v), rfl, ?_, fun d hd => ?_⟩
    · rw [values, OrderedMap.values, hput, List.map_set]
      rfl
    · cases d with
      | object members => exact hkeys.trans hd
      | _ => cases hd

/-- Giving a key the value that it has changes nothing. -/
theorem set_of_get? {v : Value} (h : cell.get? key = some v) : cell.set key v = .ok cell := by
  cases cell with
  | list items =>
    rw [get?] at h
    rw [set]
    split at h
    · rename_i i hi
      obtain ⟨hlt, rfl⟩ := List.getElem?_eq_some_iff.mp h
      rw [hi]
      dsimp only
      rw [if_pos hlt, List.set_getElem_self]
    · cases h
  | map fields =>
    obtain ⟨front, back, hentries, hput⟩ := OrderedMap.put_of_lookup (v := v) h
    have hsame : fields.insert key v = fields := by
      unfold OrderedMap.insert
      simp only [hput.trans hentries.symm]
    rw [set, hsame]

/-- A key of a document names the same position in every container of its kind. -/
theorem Mirrors.exists_names (h : cell.Mirrors d) (hkey : d.getKey? key = some e) :
    ∃ i, cell.Names key i ∧ d.values[i]? = some e := by
  cases d with
  | array items =>
    cases cell with
    | map _ => cases h
    | list values =>
      rw [Json.getKey?] at hkey
      split at hkey
      · rename_i i hi
        exact ⟨i, hi, hkey⟩
      · cases hkey
  | object members =>
    cases cell with
    | list _ => cases h
    | map fields =>
      have hkeys : fields.keys = members.map Prod.fst := h
      obtain ⟨i, hi⟩ : ∃ i, members[i]? = some (key, e) :=
        List.mem_iff_getElem?.mp (OrderedMap.mem_of_lookup hkey)
      refine ⟨i, ?_, ?_⟩
      · show fields.keys[i]? = some key
        rw [hkeys, List.getElem?_map, hi]
        rfl
      · show (members.map Prod.snd)[i]? = some e
        rw [List.getElem?_map, hi]
        rfl
  | _ => cases hkey

/-- A change under a key of a document is a change at the position. -/
theorem Mirrors.values_setKey (h : cell.Mirrors d) (hi : cell.Names key i) (e : Json) :
    (d.setKey key e).values = d.values.set i e := by
  cases cell with
  | list items =>
    cases d with
    | array docs =>
      have hindex : listIndex? key = some i := hi
      rw [Json.setKey, hindex]
      rfl
    | _ => cases h
  | map fields =>
    cases d with
    | object members =>
      have hkeys : fields.keys = members.map Prod.fst := h
      have hname : (members.map Prod.fst)[i]? = some key := hkeys ▸ hi
      have hput : OrderedMap.put key e members = members.set i (key, e) :=
        OrderedMap.put_eq_set (hkeys ▸ fields.keys_nodup) hname e
      show (OrderedMap.put key e members).map Prod.snd = (members.map Prod.snd).set i e
      rw [hput, List.map_set]
    | _ => cases h

/-- A change under a key of a document leaves its kind and its keys. -/
theorem Mirrors.setKey (h : cell.Mirrors d) (hkey : d.getKey? key = some sub) (e : Json) :
    cell.Mirrors (d.setKey key e) := by
  cases d with
  | array items =>
    rw [Json.setKey]
    split <;> cases cell <;> exact h
  | object members =>
    cases cell with
    | list _ => cases h
    | map fields =>
      have hin : key ∈ members.map Prod.fst :=
        List.mem_map_of_mem (OrderedMap.mem_of_lookup hkey)
      exact Eq.trans h (OrderedMap.keys_put_of_mem hin).symm
  | _ => exact h

end Cell

namespace Graph
variable {g g' : Graph} {s t : List Handle} {v w : Value} {vs : List Value} {d e : Json}
  {ds : List Json} {key : String} {i : Nat}

/-! ## Standing for a document -/

mutual

/-- **A value stands for a document**, in a footprint. -/
inductive Stands (g : Graph) : List Handle → Value → Json → Prop
  | null : Stands g [] .null .null
  | boolean (b : Bool) : Stands g [] (.boolean b) (.bool b)
  | integer (n : Int64) : Stands g [] (.integer n) (.integer n)
  | float (x : Float) : Stands g [] (.float x) (.float x)
  | string (text : String) : Stands g [] (.string text) (.string text)
  | container {h : Handle} {s : List Handle} {d : Json} (hmirrors : (g.read h).Mirrors d)
      (hvalues : StandAll g s (g.read h).values d.values) : Stands g (h :: s) (.container h) d

/-- Values stand for documents one by one, with their footprints side by side. -/
inductive StandAll (g : Graph) : List Handle → List Value → List Json → Prop
  | nil : StandAll g [] [] []
  | cons {s t : List Handle} {v : Value} {d : Json} {vs : List Value} {ds : List Json}
      (hv : Stands g s v d) (hvs : StandAll g t vs ds) : StandAll g (s ++ t) (v :: vs) (d :: ds)

end

mutual

/-- **Only the containers of the footprint matter.** -/
theorem Stands.congr {s : List Handle} {v : Value} {d : Json} (h : g.Stands s v d)
    (hsame : ∀ k ∈ s, g'.read k = g.read k) : g'.Stands s v d := by
  match h with
  | .null => exact .null
  | .boolean b => exact .boolean b
  | .integer n => exact .integer n
  | .float x => exact .float x
  | .string text => exact .string text
  | .container hmirrors hvalues =>
    have hread := hsame _ List.mem_cons_self
    have hinside := hvalues.congr fun k hk => hsame k (List.mem_cons_of_mem _ hk)
    rw [← hread] at hmirrors hinside
    exact .container hmirrors hinside

theorem StandAll.congr {s : List Handle} {vs : List Value} {ds : List Json}
    (h : g.StandAll s vs ds) (hsame : ∀ k ∈ s, g'.read k = g.read k) : g'.StandAll s vs ds := by
  match h with
  | .nil => exact .nil
  | .cons hv hvs =>
    exact .cons (hv.congr fun k hk => hsame k (List.mem_append.mpr (Or.inl hk)))
      (hvs.congr fun k hk => hsame k (List.mem_append.mpr (Or.inr hk)))

end

/-! ## One part of many -/

theorem StandAll.length_eq {s : List Handle} {vs : List Value} {ds : List Json}
    (h : g.StandAll s vs ds) : vs.length = ds.length := by
  match h with
  | .nil => rfl
  | .cons _ hvs => exact congrArg (· + 1) hvs.length_eq

/-- **What stands at one position**, and what becomes of the whole if another value is put there,
while the containers of the others stay as they are. -/
theorem StandAll.select {s : List Handle} {vs : List Value} {ds : List Json} {i : Nat}
    (h : g.StandAll s vs ds) (hi : ds[i]? = some e) :
    ∃ s₁ t s₂ w, s = s₁ ++ t ++ s₂ ∧ vs[i]? = some w ∧ g.Stands t w e ∧
      ∀ (g' : Graph) t' w' e', (∀ k ∈ s₁ ++ s₂, g'.read k = g.read k) → g'.Stands t' w' e' →
        g'.StandAll (s₁ ++ t' ++ s₂) (vs.set i w') (ds.set i e') := by
  match h, i with
  | .nil, i => cases hi
  | @StandAll.cons _ s t v d vs ds hv hvs, 0 =>
    cases hi
    refine ⟨[], s, t, v, rfl, rfl, hv, fun g' t' w' e' hsame hw' => ?_⟩
    exact .cons hw' (hvs.congr hsame)
  | @StandAll.cons _ s t v d vs ds hv hvs, i + 1 =>
    obtain ⟨s₁, u, s₂, w, rfl, hw, hstands, hput⟩ := hvs.select hi
    refine ⟨s ++ s₁, u, s₂, w, by simp, hw, hstands, fun g' t' w' e' hsame hw' => ?_⟩
    have hfirst : g'.Stands s v d := hv.congr fun k hk => hsame k (by simp [hk])
    have hrest := hput g' t' w' e' (fun k hk => hsame k (by simpa using Or.inr hk)) hw'
    have hall := StandAll.cons hfirst hrest
    rwa [← List.append_assoc, ← List.append_assoc] at hall

/-- **What stands under a key of a document**, and what becomes of the whole if another value is put
under the key, while the other containers stay as they are. -/
theorem Stands.select (h : g.Stands s v d) (hkey : d.getKey? key = some e) :
    ∃ k s₁ t s₂ w, v = .container k ∧ s = k :: (s₁ ++ t ++ s₂) ∧
      (g.read k).get? key = some w ∧ g.Stands t w e ∧
      ∀ w', ∃ cell, (g.read k).set key w' = .ok cell ∧
        ∀ (g' : Graph) t' e', g'.read k = cell → (∀ k ∈ s₁ ++ s₂, g'.read k = g.read k) →
          g'.Stands t' w' e' → g'.Stands (k :: (s₁ ++ t' ++ s₂)) v (d.setKey key e') := by
  cases h with
  | @container k s d hmirrors hvalues =>
    obtain ⟨i, hnames, hi⟩ := hmirrors.exists_names hkey
    obtain ⟨s₁, t, s₂, w, rfl, hw, hstands, hput⟩ := hvalues.select hi
    have hlt : i < (g.read k).values.length := (List.getElem?_eq_some_iff.mp hw).1
    refine ⟨k, s₁, t, s₂, w, rfl, rfl, (Cell.get?_of_names hnames).trans hw, hstands, fun w' => ?_⟩
    obtain ⟨cell, hset, hcell, hkeeps⟩ := Cell.set_of_names hnames hlt w'
    refine ⟨cell, hset, fun g' t' e' hread hsame hw' => ?_⟩
    have hall := hput g' t' w' e' hsame hw'
    rw [← hcell, ← hmirrors.values_setKey hnames e', ← hread] at hall
    exact .container (hread ▸ (hkeeps d hmirrors).setKey hkey e') hall
  | _ => cases hkey

/-! ## Documents in print -/

theorem mapM_fields {f : Value → Option Json} {fields : List (String × Value)}
    (h : (fields.map Prod.snd).mapM f = some ds) :
    fields.mapM (fun field => (f field.2).map (field.1, ·)) =
      some ((fields.map Prod.fst).zip ds) := by
  induction fields generalizing ds with
  | nil =>
    cases h
    rfl
  | cons field rest ih =>
    rw [List.map_cons, List.mapM_cons] at h
    obtain ⟨e, he, h⟩ := Option.bind_eq_some_iff.mp h
    obtain ⟨es, hes, h⟩ := Option.bind_eq_some_iff.mp h
    cases h
    rw [List.mapM_cons, he, ih hes]
    rfl

mutual

/-- **A value is printed as the document that it stands for.** -/
theorem Stands.toJsonWithin? {s : List Handle} {v : Value} {d : Json} {n : Nat}
    (h : g.Stands s v d) (hfinite : d.Finite) (hordered : d.Ordered) (hn : s.length ≤ n) :
    g.toJsonWithin? n v = some d := by
  match h with
  | .null | .boolean _ | .integer _ | .string _ => cases n <;> rfl
  | .float x =>
    have hx : x.isFinite = true := hfinite.here
    cases n <;> simp [Graph.toJsonWithin?, hx]
  | @Stands.container _ k s d hmirrors hvalues =>
    obtain ⟨n, rfl⟩ : ∃ m, n = m + 1 := Nat.exists_eq_add_one.mpr (Nat.lt_of_lt_of_le (by simp) hn)
    have hinside : (g.read k).values.mapM (g.toJsonWithin? n) = some d.values :=
      hvalues.toJsonWithin? (fun e he => hfinite.inside he) (fun e he => hordered.inside he)
        (Nat.le_of_succ_le_succ hn)
    rw [Graph.toJsonWithin?]
    cases hread : g.read k with
    | list items =>
      rw [hread] at hmirrors hinside
      cases d with
      | array docs => exact congrArg (Option.map Json.array) hinside
      | _ => cases hmirrors
    | map fields =>
      rw [hread] at hmirrors hinside
      cases d with
      | object members =>
        have hkeys : fields.entries.map Prod.fst = members.map Prod.fst := hmirrors
        dsimp only
        rw [mapM_fields hinside, hkeys]
        have hzip : (members.map Prod.fst).zip (Json.object members).values = members :=
          (List.zip_of_prod rfl rfl).symm
        rw [hzip, Option.map_some, Json.sortMembers_of_ascending hordered.here]
      | _ => cases hmirrors

theorem StandAll.toJsonWithin? {s : List Handle} {vs : List Value} {ds : List Json} {n : Nat}
    (h : g.StandAll s vs ds) (hfinite : ∀ d ∈ ds, d.Finite) (hordered : ∀ d ∈ ds, d.Ordered)
    (hn : s.length ≤ n) : vs.mapM (g.toJsonWithin? n) = some ds := by
  match h with
  | .nil => rfl
  | @StandAll.cons _ s t v d vs ds hv hvs =>
    rw [List.length_append] at hn
    rw [List.mapM_cons,
      hv.toJsonWithin? (hfinite d List.mem_cons_self) (hordered d List.mem_cons_self) (by omega),
      hvs.toJsonWithin? (fun e he => hfinite e (List.mem_cons_of_mem _ he))
        (fun e he => hordered e (List.mem_cons_of_mem _ he)) (by omega)]
    rfl

end

/-- A footprint of own containers is deep enough, if none of them is used twice. -/
theorem Stands.toJson? (h : g.Stands s v d) (hfinite : d.Finite) (hordered : d.Ordered)
    (hnodup : s.Nodup) (hown : ∀ h ∈ s, h < g.cells.size) : g.toJson? v = some d := by
  have hsub : s ⊆ List.range g.cells.size := fun h hh => List.mem_range.mpr (hown h hh)
  have hlength : s.length ≤ g.cells.size := by
    simpa only [List.length_range] using (hnodup.subperm hsub).length_le
  exact h.toJsonWithin? hfinite hordered hlength

/-! ## Documents that are put into a graph -/

/-- A footprint of new containers, each used once. -/
structure Fresh (g : Graph) (s : List Handle) (g' : Graph) : Prop where
  /-- No container is used twice. -/
  nodup : s.Nodup
  /-- All of them are new. -/
  new : ∀ h : Nat, h ∈ s → g.cells.size ≤ h ∧ h < g'.cells.size

theorem fresh_nil (g g' : Graph) : g.Fresh [] g' := ⟨List.nodup_nil, nofun⟩

/-- What is made later is different. -/
theorem Fresh.append {g₁ : Graph} (hs : g.Fresh s g₁) (ht : g₁.Fresh t g')
    (hfirst : g.cells.size ≤ g₁.cells.size) (hrest : g₁.cells.size ≤ g'.cells.size) :
    g.Fresh (s ++ t) g' where
  nodup := by
    refine List.nodup_append.mpr ⟨hs.nodup, ht.nodup, fun h hh k hk heq => ?_⟩
    subst heq
    have hlt := (hs.new h hh).2
    have hge := (ht.new h hk).1
    omega
  new := by
    intro h hh
    rcases List.mem_append.mp hh with hh | hh
    · have hnew := hs.new h hh
      omega
    · have hnew := ht.new h hh
      omega

theorem Fresh.alloc (hs : g.Fresh s g') (cell : Cell) (hle : g.cells.size ≤ g'.cells.size) :
    g.Fresh (g'.cells.size :: s) (g'.alloc cell).2 where
  nodup := by
    refine List.nodup_cons.mpr ⟨fun hin => ?_, hs.nodup⟩
    have hnew := hs.new _ hin
    omega
  new := by
    intro h hh
    rw [size_alloc]
    rcases List.mem_cons.mp hh with rfl | hh
    · omega
    · have hnew := hs.new h hh
      omega

/-- A new container with values that stand for documents inside. -/
theorem StandAll.alloc {cell : Cell} (hvalues : g'.StandAll s cell.values d.values)
    (hmirrors : cell.Mirrors d) (hfresh : g.Fresh s g') :
    (g'.alloc cell).2.Stands (g'.cells.size :: s) (.container g'.cells.size) d := by
  have hread := g'.read_alloc_self cell
  have hkept : ∀ h ∈ s, (g'.alloc cell).2.read h = g'.read h := fun h hh =>
    g'.read_alloc_of_lt (hfresh.new h hh).2 cell
  exact .container (hread.symm ▸ hmirrors) (hread.symm ▸ hvalues.congr hkept)

mutual

/-- **A document in a graph is stood for by new containers.** -/
theorem Closed.stands_addJson {g : Graph} (hg : g.Closed) (d : Json) (hd : d.Ordered) :
    ∃ s, (g.addJson d).2.Stands s (g.addJson d).1 d ∧ g.Fresh s (g.addJson d).2 := by
  match d with
  | .null => exact ⟨[], .null, fresh_nil _ _⟩
  | .bool b => exact ⟨[], .boolean b, fresh_nil _ _⟩
  | .integer n => exact ⟨[], .integer n, fresh_nil _ _⟩
  | .float x => exact ⟨[], .float x, fresh_nil _ _⟩
  | .string text => exact ⟨[], .string text, fresh_nil _ _⟩
  | .array items =>
    obtain ⟨s, hitems, hfresh⟩ := hg.stands_addItems items fun e he => hd.inside he
    rw [Graph.addJson]
    exact ⟨_, hitems.alloc trivial hfresh, hfresh.alloc _ (hg.addItems items).size_le⟩
  | .object members =>
    obtain ⟨s, hkeys, hmembers, hfresh⟩ := hg.stands_addMembers members fun member hmember =>
      hd.inside (List.mem_map_of_mem hmember)
    have hentries : (OrderedMap.ofList (g.addMembers members).1).entries =
        (g.addMembers members).1 := by
      apply OrderedMap.entries_ofList
      rw [hkeys]
      exact hd.here.nodup
    rw [← hentries] at hkeys hmembers
    rw [Graph.addJson]
    exact ⟨_, StandAll.alloc hmembers hkeys hfresh, hfresh.alloc _ (hg.addMembers members).size_le⟩

theorem Closed.stands_addItems {g : Graph} (hg : g.Closed) (items : List Json)
    (hitems : ∀ d ∈ items, d.Ordered) :
    ∃ s, (g.addItems items).2.StandAll s (g.addItems items).1 items ∧
      g.Fresh s (g.addItems items).2 := by
  match items with
  | [] => exact ⟨[], .nil, fresh_nil _ _⟩
  | item :: rest =>
    obtain ⟨s, hitem, hs⟩ := hg.stands_addJson item (hitems item List.mem_cons_self)
    have hfirst := hg.addJson item
    obtain ⟨t, hrest, ht⟩ := hfirst.closed.stands_addItems rest fun d hd =>
      hitems d (List.mem_cons_of_mem _ hd)
    have hgrown := hfirst.closed.addItems rest
    refine ⟨s ++ t, ?_, hs.append ht hfirst.size_le hgrown.size_le⟩
    exact .cons (hitem.congr fun h hh => hgrown.kept h (hs.new h hh).2) hrest

theorem Closed.stands_addMembers {g : Graph} (hg : g.Closed) (members : List (String × Json))
    (hmembers : ∀ member ∈ members, member.2.Ordered) :
    ∃ s, (g.addMembers members).1.map Prod.fst = members.map Prod.fst ∧
      (g.addMembers members).2.StandAll s ((g.addMembers members).1.map Prod.snd)
        (members.map Prod.snd) ∧ g.Fresh s (g.addMembers members).2 := by
  match members with
  | [] => exact ⟨[], rfl, .nil, fresh_nil _ _⟩
  | (key, d) :: rest =>
    obtain ⟨s, hmember, hs⟩ := hg.stands_addJson d (hmembers (key, d) List.mem_cons_self)
    have hfirst := hg.addJson d
    obtain ⟨t, hkeys, hrest, ht⟩ := hfirst.closed.stands_addMembers rest fun member hmember =>
      hmembers member (List.mem_cons_of_mem _ hmember)
    have hgrown := hfirst.closed.addMembers rest
    refine ⟨s ++ t, ?_, ?_, hs.append ht hfirst.size_le hgrown.size_le⟩
    · exact congrArg (key :: ·) hkeys
    · exact .cons (hmember.congr fun h hh => hgrown.kept h (hs.new h hh).2) hrest

end

end Graph

end GraphPath
