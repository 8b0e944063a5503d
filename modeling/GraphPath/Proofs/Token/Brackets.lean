import GraphPath.Proofs.Token.DepthLimit
import GraphPath.Proofs.Token.Spelling

/-! # A path in brackets

Brackets around a path change nothing in what is read, if the path arrives in them whole.  The
interior of a container is captured as raw text, by counting brackets and nothing else; whether a
bracket stands in quotes is not asked.  So **a path that is read can be put in brackets if and only
if the brackets in it are balanced** (`tokenize_in_brackets`), escaped ones apart, and then it takes
one level more.

Outside quotes the brackets of a path that is read are always balanced: each one opens or closes a
container of its own (`Brackets.balanced`).  A path that brackets cannot be put around has the
brackets that spoil it in a quoted text.
-/

namespace GraphPath.Grammar
variable {g : Grammar} {maxDepth level : Nat} {d : Draft} {c opener closer : Char}
  {ahead interior rest front text quoted : List Char} {role : ContainerRole} {joins : Bool}
  {lexemes : List Lexeme} {tree tree' : TokenTree}

/-! ## One level further down -/

/-- **A text is read one level further down** if one level more is allowed. -/
theorem toOption_succ (maxDepth : Nat) :
    (∀ level text, (g.tokenizeAt (maxDepth + 1) (level + 1) text).toOption =
        (g.tokenizeAt maxDepth level text).toOption) ∧
      ∀ level size d text, (g.scan (maxDepth + 1) (level + 1) size d text).toOption =
        (g.scan maxDepth level size d text).toOption := by
  refine tokenizeAt.mutual_induct g maxDepth _ _ ?deep ?text ?finish ?quote ?property ?container
    ?openEnd ?step
  case deep =>
    intro level text hlevel
    rw [tokenizeAt, tokenizeAt, if_pos hlevel, if_pos (Nat.succ_lt_succ hlevel)]
    rfl
  case text =>
    intro level text hlevel ih
    rw [tokenizeAt, tokenizeAt, if_neg hlevel, if_neg (fun h => hlevel (Nat.lt_of_succ_lt_succ h))]
    exact ih
  case finish =>
    intro level size d
    rw [scan_nil, scan_nil]
  case quote =>
    intro level size d c ahead interior joins rest hlexeme ih
    rw [scan_quote hlexeme, scan_quote hlexeme]
    exact toOption_bind rfl ih
  case property =>
    intro level size d c ahead interior joins rest hlexeme ihtree ih
    rw [scan_property hlexeme, scan_property hlexeme]
    exact toOption_bind rfl fun d => toOption_bind ihtree (ih d)
  case container =>
    intro level size d c ahead role interior joins rest hquote hproperty hlexeme ihtree ih
    rw [scan_container hquote hproperty hlexeme, scan_container hquote hproperty hlexeme]
    exact toOption_bind rfl fun d => toOption_bind ihtree (ih d)
  case openEnd =>
    intro level size d c ahead offset fault rest hlexeme
    rw [scan_openEnd hlexeme, scan_openEnd hlexeme]
  case step =>
    intro level size d c ahead lexeme rest _ _ hcontainer hopen hlexeme ih
    rw [scan_step hcontainer hopen hlexeme, scan_step hcontainer hopen hlexeme]
    exact toOption_bind rfl ih

theorem tokenizeAt_succ_eq_ok_iff :
    g.tokenizeAt (maxDepth + 1) (level + 1) text = .ok tree ↔
      g.tokenizeAt maxDepth level text = .ok tree :=
  eq_ok_iff_of_toOption ((toOption_succ maxDepth).1 level text)

/-! ## Brackets -/

/-- **Brackets**: the opener and the closer of a property container, two characters that play no
other role. -/
structure Brackets (g : Grammar) (opener closer : Char) : Prop where
  /-- They belong together. -/
  encloses : g.enclosure? opener = some ⟨closer, .property⟩
  /-- The opener is read as one. -/
  opens : g.modifier? opener = none ∧ g.separator? opener = none ∧ g.isCloser opener = false
  /-- The closer is read as nothing else. -/
  closes : g.modifier? closer = none ∧ g.separator? closer = none ∧ g.enclosure? closer = none
  /-- The closer closes no other container. -/
  own : ∀ c enclosure, g.enclosure? c = some enclosure → enclosure.closer = closer → c = opener

/-- **A text that stands in quotes**, in a text or in a container in it. -/
inductive Quoted (g : Grammar) : List Char → List Char → Prop
  /-- The text is the interior of a quote. -/
  | here {front ahead interior rest : List Char} {lexemes : List Lexeme} {c : Char} {joins : Bool}
      (hfront : g.Spells front lexemes)
      (hlexeme : g.lexeme c ahead = (.container .quote interior joins, rest)) :
      Quoted g (front ++ c :: ahead) interior
  /-- It stands in quotes within another container. -/
  | inside {front ahead interior rest quoted : List Char} {lexemes : List Lexeme} {c : Char}
      {role : ContainerRole} {joins : Bool} (hfront : g.Spells front lexemes)
      (hlexeme : g.lexeme c ahead = (.container role interior joins, rest))
      (hrole : role ≠ .quote) (hinner : Quoted g interior quoted) :
      Quoted g (front ++ c :: ahead) quoted

theorem Quoted.behind (h : g.Quoted text quoted) (hfront : g.Spells front lexemes) :
    g.Quoted (front ++ text) quoted := by
  cases h with
  | here hmore hlexeme =>
    rw [← List.append_assoc]
    exact .here (hfront.append hmore) hlexeme
  | inside hmore hlexeme hrole hinner =>
    rw [← List.append_assoc]
    exact .inside (hfront.append hmore) hlexeme hrole hinner

/-- The interior of a container that is read has been read, or is quoted. -/
theorem exists_scans_of_filing {filed : Token × List Token} (hg : g.Valid)
    (h : g.filing maxDepth level role interior = .ok filed) :
    role = .quote ∨ ∃ tree, g.Scans maxDepth (level + 1) {} interior tree := by
  have hread {f : TokenTree → Token × List Token}
      (h : (g.tokenizeAt maxDepth (level + 1) interior).map f = .ok filed) :
      ∃ tree, g.Scans maxDepth (level + 1) {} interior tree := by
    cases htree : g.tokenizeAt maxDepth (level + 1) interior with
    | error e =>
      rw [htree] at h
      cases h
    | ok tree => exact ⟨tree, (hg.tokenizeAt_eq_ok_iff.mp htree).2⟩
  cases role with
  | quote => exact Or.inl rfl
  | property | call | evalProperty => exact Or.inr (hread h)

namespace Brackets

/-- What an opener is read as: a container, if there is one. -/
theorem lexeme_opener (hg : g.Valid) (hb : g.Brackets opener closer) (ahead : List Char) :
    g.lexeme opener ahead = g.containerLexeme opener ⟨closer, .property⟩ ahead := by
  have hescape : opener ≠ escapeChar :=
    hg.ne_escapeChar (mem_roleChars_of_enclosure? hb.encloses).1
  simp only [lexeme, if_neg hescape, hb.opens.1, hb.opens.2.1, hb.encloses]

/-- A closer that is not taken by its container is out of place. -/
theorem lexeme_closer (hg : g.Valid) (hb : g.Brackets opener closer) (ahead : List Char) :
    g.lexeme closer ahead = (.fault (.strayCloser closer), ahead) := by
  have hescape : closer ≠ escapeChar :=
    hg.ne_escapeChar (mem_roleChars_of_enclosure? hb.encloses).2
  have hcloser : g.isCloser closer = true :=
    isCloser_iff_enclosure?.mpr ⟨opener, _, hb.encloses, rfl⟩
  simp only [lexeme, if_neg hescape, hb.closes.1, hb.closes.2.1, hb.closes.2.2, hcloser, if_true]

/-- No scan begins with a closer. -/
theorem not_scans_closer (hg : g.Valid) (hb : g.Brackets opener closer) :
    ¬ g.Scans maxDepth level d (closer :: ahead) tree := by
  intro h
  have hfault := hb.lexeme_closer hg ahead
  cases h with
  | step hlexeme _ _ hstep =>
    obtain ⟨rfl, -⟩ := Prod.mk.inj (hfault.symm.trans hlexeme)
    cases hstep
  | container hlexeme =>
    obtain ⟨hne, -⟩ := Prod.mk.inj (hfault.symm.trans hlexeme)
    cases hne

/-- A character that is no container, nor out of place, is no bracket. -/
theorem depthAfter?_of_step (hg : g.Valid) (hb : g.Brackets opener closer) {lexeme : Lexeme}
    {d' : Draft} {depth : Nat} (hlexeme : g.lexeme c ahead = (lexeme, rest))
    (hcontainer : ∀ role interior joins, lexeme ≠ .container role interior joins)
    (hopen : ∀ offset fault, lexeme ≠ .openEnd offset fault) (hstep : d.step lexeme = .ok d') :
    depthAfter? opener closer depth (c :: ahead) = depthAfter? opener closer depth rest := by
  obtain ⟨x, rfl, rfl, -⟩ | ⟨hescape, rfl, -⟩ | ⟨_, _, -, -, -, rfl⟩ :=
    lexeme_cases (Lexeme.isWhole_of_step hopen hstep) hlexeme
  · exact depthAfter?_escape_cons x rest
  · refine depthAfter?_cons_other hescape ?_ ?_ rest
    · rintro rfl
      rw [hb.lexeme_opener hg] at hlexeme
      exact containerLexeme_ne hcontainer hopen hlexeme
    · rintro rfl
      rw [hb.lexeme_closer hg] at hlexeme
      cases hlexeme
      cases hstep
  · exact absurd rfl (hcontainer _ _ _)

/-- A container with a balanced interior does not count. -/
theorem depthAfter?_of_container (hb : g.Brackets opener closer) {depth : Nat}
    (hlexeme : g.lexeme c ahead = (.container role interior joins, rest))
    (hinterior : c ≠ opener → Balanced opener closer interior) :
    depthAfter? opener closer depth (c :: ahead) = depthAfter? opener closer depth rest := by
  obtain ⟨hescape, last, henclosure, hlast, rfl, hcaptured⟩ := exists_enclosure_of_lexeme hlexeme
  have hcloser : c ≠ closer := by
    rintro rfl
    exact Option.some_ne_none _ (henclosure.symm.trans hb.closes.2.2)
  by_cases hc : c = opener
  · -- brackets of their own: one opens, the other closes, and between them they are balanced
    subst hc
    obtain ⟨rfl, rfl⟩ := by simpa using henclosure.symm.trans hb.encloses
    rw [depthAfter?_cons_of_ne hescape, if_neg hcloser, if_pos rfl, hcaptured.depthAfter?_append,
      depthAfter?_cons_of_ne hlast, if_pos rfl]
  · have hlast_closer : last ≠ closer := fun h => hc (hb.own c _ henclosure h)
    have hlast_opener : last ≠ opener := by
      rintro rfl
      have hisCloser := isCloser_iff_enclosure?.mpr ⟨c, _, henclosure, rfl⟩
      exact Bool.noConfusion (hisCloser.symm.trans hb.opens.2.2)
    rw [depthAfter?_cons_other hescape hc hcloser, (hinterior hc).depthAfter?_append,
      depthAfter?_cons_other hlast hlast_opener hlast_closer]

/-- **The brackets in a text that is read are balanced if those in its quotes are.**  The recursion
is on the text, lexeme by lexeme and into the containers. -/
theorem balanced (hg : g.Valid) (hb : g.Brackets opener closer) {level : Nat} {d : Draft}
    {text : List Char} {tree : TokenTree} (h : g.Scans maxDepth level d text tree)
    (hquoted : ∀ quoted, g.Quoted text quoted → Balanced opener closer quoted) :
    Balanced opener closer text := by
  have hbehind {c : Char} {ahead rest : List Char} {lexeme : Lexeme}
      (hwhole : lexeme.isWhole = true) (hlexeme : g.lexeme c ahead = (lexeme, rest))
      {quoted : List Char} (h : g.Quoted rest quoted) : g.Quoted (c :: ahead) quoted := by
    obtain ⟨used, rfl, hfirst⟩ := exists_spells_of_lexeme hwhole hlexeme
    exact h.behind hfirst
  match text with
  | [] => rfl
  | c :: ahead =>
    cases h with
    | @step _ d' _ _ rest lexeme _ hlexeme hcontainer hopen hstep hrest =>
      have hwhole := Lexeme.isWhole_of_step hopen hstep
      have hshorter : rest.length < (c :: ahead).length := by
        simpa only [hlexeme] using g.lexeme_rest_lt c ahead
      rw [Balanced, hb.depthAfter?_of_step hg hlexeme hcontainer hopen hstep]
      exact balanced hg hb hrest fun quoted h => hquoted quoted (hbehind hwhole hlexeme h)
    | @container _ d' _ _ interior rest role joins filed _ hlexeme hword hfiling hrest =>
      have hshorter : rest.length < (c :: ahead).length := by
        simpa only [hlexeme] using g.lexeme_rest_lt c ahead
      have hinner : interior.length < (c :: ahead).length := by
        have hlength := (length_of_container hlexeme).1
        omega
      have hinterior : Balanced opener closer interior := by
        by_cases hrole : role = .quote
        · subst hrole
          exact hquoted _ (.here .nil hlexeme)
        · obtain ⟨tree, hread⟩ := (exists_scans_of_filing hg hfiling).resolve_left hrole
          exact balanced hg hb hread fun quoted h => hquoted quoted (.inside .nil hlexeme hrole h)
      rw [Balanced, hb.depthAfter?_of_container hlexeme fun _ => hinterior]
      exact balanced hg hb hrest fun quoted h => hquoted quoted (hbehind rfl hlexeme h)
termination_by text.length
decreasing_by
  · exact hshorter
  · exact hinner
  · exact hshorter

/-! ## A path between brackets -/

/-- A balanced text between brackets is the interior of a container. -/
theorem lexeme_of_balanced (hg : g.Valid) (hb : g.Brackets opener closer)
    (hbalanced : Balanced opener closer text) :
    g.lexeme opener (text ++ [closer]) = (.container .property text false, []) := by
  have hescape : closer ≠ escapeChar :=
    hg.ne_escapeChar (mem_roleChars_of_enclosure? hb.encloses).2
  rw [hb.lexeme_opener hg, containerLexeme, capture_eq_closed_iff.mpr ⟨hescape, rfl, hbalanced⟩]
  rfl

/-- **A text that is read between brackets as well as on its own is balanced.**  A bracket in it
that ended the container too soon would stand behind a text that is read, and the scan of the whole
text would have met it there. -/
theorem balanced_of_container (hg : g.Valid) (hb : g.Brackets opener closer)
    (hread : g.Scans maxDepth level d text tree)
    (hlexeme : g.lexeme opener (text ++ [closer]) = (.container role interior joins, rest))
    {maxDepth' level' : Nat} {filed : Token × List Token}
    (hfiling : g.filing maxDepth' level' role interior = .ok filed) :
    Balanced opener closer text := by
  obtain ⟨-, last, henclosure, -, htext, hbalanced⟩ := exists_enclosure_of_lexeme hlexeme
  obtain ⟨rfl, rfl⟩ := by simpa using henclosure.symm.trans hb.encloses
  -- either the closer at the end is the one that ends the container, or one in the text is
  rcases List.eq_nil_or_concat rest with rfl | ⟨behind, last', rfl⟩
  · obtain ⟨rfl, -⟩ := List.append_inj' htext rfl
    exact hbalanced
  · have hsplit : text = interior ++ last :: behind := by
      have hlast : text ++ [last] = (interior ++ last :: behind) ++ [last'] := by simpa using htext
      exact (List.append_inj' hlast rfl).1
    obtain ⟨tree', hinterior⟩ := (exists_scans_of_filing hg hfiling).resolve_left (by simp)
    obtain ⟨lexemes, hspelled⟩ := hinterior.spelled
    subst hsplit
    obtain ⟨d', hbehind, -⟩ := hread.behind_spelled hspelled
    exact absurd hbehind (hb.not_scans_closer hg)

/-- **What is read in brackets**: the tokens of the text, if its brackets are balanced. -/
theorem scans_iff (hg : g.Valid) (hb : g.Brackets opener closer)
    (hread : g.tokenizeAt maxDepth level text = .ok tree) :
    g.Scans (maxDepth + 1) level {} (opener :: (text ++ [closer])) tree' ↔
      Balanced opener closer text ∧ tree' = tree := by
  have hfiled : g.filing (maxDepth + 1) level .property text =
      .ok (.container .property tree, tree) := by
    rw [filing, tokenizeAt_succ_eq_ok_iff.mpr hread]
    rfl
  constructor
  · intro h
    cases h with
    | step hlexeme hcontainer hopen _ _ =>
      rw [hb.lexeme_opener hg] at hlexeme
      exact absurd hlexeme (containerLexeme_ne hcontainer hopen)
    | container hlexeme hword hfiling hrest =>
      have hbalanced : Balanced opener closer text :=
        hb.balanced_of_container hg (hg.tokenizeAt_eq_ok_iff.mp hread).2 hlexeme hfiling
      rw [hb.lexeme_of_balanced hg hbalanced] at hlexeme
      cases hlexeme
      rw [hfiled] at hfiling
      cases hfiling
      cases hword
      cases hrest with
      | done hfinish => exact ⟨hbalanced, (Except.ok.inj hfinish).symm⟩
  · rintro ⟨hbalanced, rfl⟩
    exact scans_of_container (hb.lexeme_of_balanced hg hbalanced) hfiled

end Brackets

/-! ## Paths in square brackets -/

theorem default_brackets : default.Brackets '[' ']' where
  encloses := by decide
  opens := by decide
  closes := by decide
  own c enclosure h hcloser := by
    have hall : ∀ entry ∈ default.enclosures.entries, entry.2.closer = ']' → entry.1 = '[' := by
      decide
    exact hall _ (default.enclosures.get?_eq_some_iff.mp h) hcloser

/-- **A path that is read can be put in brackets, with one level more, if and only if the brackets
in it are balanced, escaped ones apart**; the tokens are the same then.  And they are balanced if
those in its quoted texts are. -/
theorem tokenize_in_brackets {path : String} (h : default.tokenize maxDepth path = .ok tree) :
    (∀ tree', default.tokenize (maxDepth + 1) ("[" ++ path ++ "]") = .ok tree' ↔
        Balanced '[' ']' path.toList ∧ tree' = tree) ∧
      ((∀ quoted, default.Quoted path.toList quoted → Balanced '[' ']' quoted) →
        Balanced '[' ']' path.toList) := by
  refine ⟨fun tree' => ?_, fun hquoted => ?_⟩
  · have htext : ("[" ++ path ++ "]").toList = '[' :: (path.toList ++ [']']) := by simp
    rw [tokenize, htext, default_valid.tokenizeAt_eq_ok_iff, default_brackets.scans_iff
      default_valid h]
    exact and_iff_right (Nat.zero_le _)
  · have hread := (default_valid.tokenizeAt_eq_ok_iff.mp h).2
    exact default_brackets.balanced default_valid hread hquoted

/-- Brackets escaped, quoted and of a container, a collection and a call, between brackets. -/
theorem tokenize_in_brackets_mixed :
    let path := "~a\\],'b.[c]'.f(x,[y])"
    let tree := [Token.collection [.modified "a]" { root := 1 }, .word "b.[c]"], .word "f",
      .container .call [.collection [.word "x", .container .property [.word "y"]]]]
    default.tokenize 2 path = .ok tree ∧ Balanced '[' ']' path.toList ∧
      default.tokenize 3 ("[" ++ path ++ "]") = .ok tree := by
  intro path tree
  have hread : default.tokenize 2 path = .ok tree := by cbv
  have hbalanced : Balanced '[' ']' path.toList := by
    rw [Balanced]
    cbv
  exact ⟨hread, hbalanced, ((tokenize_in_brackets hread).1 tree).mpr ⟨hbalanced, rfl⟩⟩

/-- A quoted bracket ends the brackets around it too soon. -/
theorem quoted_bracket_in_brackets :
    default.tokenize 0 "']'" = .ok [.word "]"] ∧
      default.tokenize 1 "[']']" = .error (.malformed 0 (.unclosed '\'' '\'')) :=
  ⟨by cbv, by cbv⟩

end GraphPath.Grammar
