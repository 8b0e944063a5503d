import GraphPath.Proofs.Grammar.Coherent
import GraphPath.Proofs.Token.Capture

/-! # Calls with texts as arguments

A call is written as a key with a container behind it, and in the container the arguments
with collection separators between them.  What the container is read as depends on how
many there are (`argumentTokens`): nothing, one word, or one collection of words.

**A call with escaped texts is read as a call with these texts**
(`Grammar.Valid.tokenize_call`).  The interior is captured whole, since nothing in an
escaped text closes the container, and is then read by itself.
-/

namespace GraphPath

/-- What the interior of a call is read as, if texts stand in it. -/
def argumentTokens : List String → List Token
  | [] => []
  | [text] => [.word text]
  | texts => [.collection (texts.map .word)]

/-! ## Drafts of collections -/

/-- A draft with some members of a collection, and a plain word at hand. -/
def Draft.listing (members : List Token) (word : List Char) (separated : Bool) : Draft :=
  { members, word, filled := !word.isEmpty, separated }

namespace Draft
variable {members : List Token} {word : List Char} {separated : Bool}

theorem pushAll_listing (hword : word ≠ []) :
    (listing members [] separated).pushAll word = listing members word separated := by
  rw [pushAll_eq hword]
  simp [listing, hword]

theorem takeWord_listing (hword : word ≠ []) :
    (listing members word separated).takeWord =
      .ok (some (.word (String.ofList word)),
        { listing members [] separated with filled := true }) := by
  rw [takeWord_of_plain hword rfl rfl]
  simp [listing, hword]

theorem separate_listing (hword : word ≠ []) :
    (listing members word separated).separate .collection =
      .ok (listing (members ++ [.word (String.ofList word)]) [] true) := by
  rw [separate, takeWord_listing hword]
  rfl

theorem finish_listing (hmembers : members ≠ []) (hword : word ≠ []) :
    (listing members word separated).finish =
      .ok [.collection (members ++ [.word (String.ofList word)])] := by
  rw [finish, takeWord_listing hword]
  simp [file, closeCollection, listing, hmembers]

end Draft

namespace Grammar
variable {g : Grammar} {maxDepth level size : Nat} {opener closer separator : Char}

/-! ## The interior -/

/-- A collection separator behind a word makes it a member. -/
theorem Valid.scan_collectionSeparator (hg : g.Valid) (hmodifier : g.modifier? separator = none)
    (hseparator : g.separator? separator = some .collection) {members : List Token}
    {word : List Char} {separated : Bool} (hword : word ≠ []) (rest : List Char) :
    g.scan maxDepth level size (.listing members word separated) (separator :: rest) =
      g.scan maxDepth level size (.listing (members ++ [.word (String.ofList word)]) [] true)
        rest := by
  have hescape : separator ≠ escapeChar := hg.ne_escapeChar (mem_roleChars_of_separator? hseparator)
  rw [scan_separator (lexeme_of_separator? hescape hmodifier hseparator rest),
    Draft.separate_listing hword]
  rfl

/-- Behind a member, all texts become members, and the end of the text closes the collection. -/
theorem Valid.scan_members (hg : g.Valid) (hmodifier : g.modifier? separator = none)
    (hseparator : g.separator? separator = some .collection) :
    ∀ (texts : List (List Char)) (members : List Token), texts ≠ [] → members ≠ [] →
      (∀ text ∈ texts, text ≠ []) →
      g.scan maxDepth level size (.listing members [] true) (g.listed separator texts) =
        .ok [.collection (members ++ texts.map fun text => .word (String.ofList text))]
  | [], _, hne, _, _ => absurd rfl hne
  | [text], members, _, hmembers, htexts => by
    have htext : text ≠ [] := htexts text List.mem_cons_self
    rw [listed_singleton, ← List.append_nil (g.escapeChars text), hg.scan_escapeChars,
      Draft.pushAll_listing htext, scan_nil, Draft.finish_listing hmembers htext]
    rfl
  | text :: next :: others, members, _, _, htexts => by
    have htext : text ≠ [] := htexts text List.mem_cons_self
    rw [listed_cons_cons, hg.scan_escapeChars, Draft.pushAll_listing htext,
      hg.scan_collectionSeparator hmodifier hseparator htext,
      hg.scan_members hmodifier hseparator (next :: others) _ (List.cons_ne_nil _ _)
        (List.append_ne_nil_of_right_ne_nil _ (List.cons_ne_nil _ _))
        (fun t ht => htexts t (List.mem_cons_of_mem _ ht)),
      List.append_assoc]
    rfl

/-- **The interior of a call**: nothing, one word, or one collection of words. -/
theorem Valid.scan_arguments (hg : g.Valid) (hmodifier : g.modifier? separator = none)
    (hseparator : g.separator? separator = some .collection) {texts : List (List Char)}
    (htexts : ∀ text ∈ texts, text ≠ []) :
    g.scan maxDepth level size {} (g.listed separator texts) =
      .ok (argumentTokens (texts.map String.ofList)) := by
  match texts, htexts with
  | [], _ => exact scan_nil
  | [text], htexts =>
    have htext : text ≠ [] := htexts text List.mem_cons_self
    rw [listed_singleton, ← List.append_nil (g.escapeChars text)]
    exact (hg.scan_escapeChars_append text []).trans (scan_atWord_nil htext)
  | text :: next :: others, htexts =>
    have htext : text ≠ [] := htexts text List.mem_cons_self
    have hdraft : Draft.pushAll {} text = .listing [] text false := Draft.pushAll_listing htext
    rw [listed_cons_cons, hg.scan_escapeChars, hdraft,
      hg.scan_collectionSeparator hmodifier hseparator htext, List.nil_append,
      hg.scan_members hmodifier hseparator (next :: others) _ (List.cons_ne_nil _ _)
        (List.cons_ne_nil _ _) (fun t ht => htexts t (List.mem_cons_of_mem _ ht))]
    simp [argumentTokens, Function.comp_def]

/-! ## The call -/

/-- **A call with escaped texts is read as a call with these texts**, whatever characters they are
made of. -/
theorem Valid.tokenize_call (hg : g.Valid) (hopener : g.enclosure? opener = some ⟨closer, .call⟩)
    (hplain : g.modifier? opener = none ∧ g.separator? opener = none)
    (hmodifier : g.modifier? separator = none)
    (hseparator : g.separator? separator = some .collection)
    (hseparates : separator ≠ opener ∧ separator ≠ closer) {path key : String}
    {texts : List String} (hkey : key ≠ "") (htexts : ∀ text ∈ texts, text ≠ "")
    (hpath : path.toList = g.escapeChars key.toList ++
      opener :: (g.listed separator (texts.map String.toList) ++ [closer]))
    {maxDepth : Nat} (hdepth : 1 ≤ maxDepth) :
    g.tokenize maxDepth path = .ok [.word key, .container .call (argumentTokens texts)] := by
  obtain ⟨hopenerRole, hcloserRole⟩ := mem_roleChars_of_enclosure? hopener
  have hopenerEscape : opener ≠ escapeChar := hg.ne_escapeChar hopenerRole
  have hcloserEscape : closer ≠ escapeChar := hg.ne_escapeChar hcloserRole
  have hseparatorEscape : separator ≠ escapeChar :=
    hg.ne_escapeChar (mem_roleChars_of_separator? hseparator)
  let interior := g.listed separator (texts.map String.toList)
  have hstrip : g.stripChars path.toList = path.toList := by
    rw [hpath, hg.stripChars_escapeChars_append, stripChars_cons_of_ne hopenerEscape,
      hg.stripChars_listed_append hseparatorEscape, stripChars_cons_of_ne hcloserEscape,
      stripChars_nil]
  have hlexeme : g.lexeme opener (interior ++ [closer]) = (.container .call interior false, []) :=
    lexeme_of_capture hopenerEscape hplain.1 hplain.2 hopener
      (hg.capture_listed (isSpecial_of_mem_roleChars hopenerRole)
        (isSpecial_of_mem_roleChars hcloserRole) hcloserEscape
        ⟨hseparatorEscape, hseparates.1, hseparates.2⟩ [] _)
  have hwords : ∀ text ∈ texts.map String.toList, text ≠ [] := by
    intro word hword
    obtain ⟨text, htext, rfl⟩ := List.mem_map.mp hword
    exact mt String.toList_eq_nil_iff.mp (htexts text htext)
  have hinterior : g.tokenizeAt maxDepth 1 interior = .ok (argumentTokens texts) := by
    rw [tokenizeAt, if_neg (Nat.not_lt.mpr hdepth), hg.stripChars_listed hseparatorEscape,
      hg.scan_arguments hmodifier hseparator hwords]
    simp [Function.comp_def]
  have hword : key.toList ≠ [] := mt String.toList_eq_nil_iff.mp hkey
  have hfile : (Draft.atWord [] key.toList false).fileWord =
      .ok { tokens := [.word key], filled := true } := by
    rw [Draft.fileWord, Draft.takeWord_atWord hword, String.ofList_toList]
    rfl
  rw [tokenize_eq_scan, hstrip, hpath]
  refine (hg.scan_escapeChars_append key.toList _).trans ?_
  rw [List.nil_append, scan_container (by simp) (by simp) hlexeme, hfile, atPosition_ok]
  show (g.tokenizeAt maxDepth 1 interior).bind _ = _
  rw [hinterior]
  exact scan_nil

end Grammar

end GraphPath
