import GraphPath.Proofs.Token.Stripped

/-! # Escaped texts inside containers

What is escaped for a path can be put into any container of it, and still means the text it was made
from (`tokenize_escape_enclosed`).  On its way there the text is stripped as part of the path,
captured between opener and closer, and then read in its turn: stripped and scanned once more, or
unescaped where it is quoted.  None of these sees anything but letters in it, not even where the
closer is the opener or has a role of its own.
-/

namespace GraphPath

/-- The tokens of a literal text: a word, if there is anything to it. -/
def literalTokens (text : String) : List Token := if text = "" then [] else [.word text]

/-- **The tokens of a container that holds a literal text**: quoted text is a word even if it is
empty, the interior of a path in brackets stands for itself, and the other containers are kept. -/
def ContainerRole.holding (text : String) : ContainerRole → List Token
  | .quote => [.word text]
  | .property => literalTokens text
  | .call => [.container .call (literalTokens text)]
  | .evalProperty => [.container .evalProperty (literalTokens text)]

namespace Grammar
variable {g : Grammar} {maxDepth level : Nat} {opener closer : Char} {role : ContainerRole}

/-- An escaped text is read as the text, wherever it stands. -/
theorem Valid.tokenizeAt_escapeChars (hg : g.Valid) (hlevel : level ≤ maxDepth) (text : String) :
    g.tokenizeAt maxDepth level (g.escapeChars text.toList) = .ok (literalTokens text) := by
  have hscan : g.scan maxDepth level 0 {} (g.escapeChars text.toList) =
      .ok (literalTokens text) := by
    rw [← List.append_nil (g.escapeChars text.toList)]
    refine (hg.scan_escapeChars_append text.toList []).trans ?_
    by_cases htext : text = ""
    · subst htext
      exact scan_nil
    · rw [literalTokens, if_neg htext, List.nil_append,
        scan_atWord_nil (mt String.toList_eq_nil_iff.mp htext), String.ofList_toList]
      rfl
  exact hg.tokenizeAt_eq_ok_iff.mpr ⟨hlevel, scan_eq_ok_iff.mp hscan⟩

/-- An escaped text is filed as the text, in a container of any role. -/
theorem Valid.filing_escapeChars (hg : g.Valid) (hlevel : level + 1 ≤ maxDepth)
    (role : ContainerRole) (text : String) :
    ∃ member, g.filing maxDepth level role (g.escapeChars text.toList) =
      .ok (member, role.holding text) := by
  have hinterior := hg.tokenizeAt_escapeChars hlevel text
  cases role with
  | quote =>
    refine ⟨.word text, ?_⟩
    rw [filing, hg.unescape_escapeChars, String.ofList_toList]
    rfl
  | property | call | evalProperty =>
    rw [filing, hinterior]
    exact ⟨_, rfl⟩

/-- Between an opener and its closer an escaped text is captured as it stands. -/
theorem Valid.lexeme_escape_enclosed (hg : g.Valid)
    (hopener : g.enclosure? opener = some ⟨closer, role⟩)
    (hplain : g.modifier? opener = none ∧ g.separator? opener = none) (text : List Char) :
    g.lexeme opener (g.escapeChars text ++ [closer]) =
      (.container role (g.escapeChars text) false, []) := by
  obtain ⟨hopenerRole, hcloserRole⟩ := mem_roleChars_of_enclosure? hopener
  have hcapture : capture opener closer 0 (g.escapeChars text ++ [closer]) =
      .closed (g.escapeChars text) [] :=
    hg.capture_escapeChars_closer (isSpecial_of_mem_roleChars hopenerRole)
      (isSpecial_of_mem_roleChars hcloserRole) (hg.ne_escapeChar hcloserRole) text []
  exact lexeme_of_capture (hg.ne_escapeChar hopenerRole) hplain.1 hplain.2 hopener hcapture

/-- **An escaped text means the text inside every container**, if its opener is not taken for a
modifier or a separator. -/
theorem tokenize_escape_enclosed (hg : g.Reachable)
    (hopener : g.enclosure? opener = some ⟨closer, role⟩)
    (hplain : g.modifier? opener = none ∧ g.separator? opener = none) (text : String)
    (hdepth : 1 ≤ maxDepth) :
    g.tokenize maxDepth (opener.toString ++ g.escape text ++ closer.toString) =
      .ok (role.holding text) := by
  have hpath : (opener.toString ++ g.escape text ++ closer.toString).toList =
      opener :: (g.escapeChars text.toList ++ [closer]) := by
    simp [Char.toString, escape]
  obtain ⟨member, hfiling⟩ := hg.valid.filing_escapeChars hdepth role text
  rw [tokenize, hpath, hg.valid.tokenizeAt_eq_ok_iff]
  exact ⟨Nat.zero_le _,
    scans_of_container (hg.valid.lexeme_escape_enclosed hopener hplain text.toList) hfiling⟩

/-- A call between equal characters, and a computed key whose closer separates properties. -/
theorem tokenize_escape_enclosed_reconfigured :
    let g := default.attempt
      { enclosures := .ofList [('|', some ⟨'|', .call⟩), ('#', some ⟨'.', .evalProperty⟩)] }
    let text := "|#.*\\a"
    (g.enclosure? '|' = some ⟨'|', .call⟩ ∧ (g.modifier? '|' = none ∧ g.separator? '|' = none) ∧
      g.tokenize 1 ("|" ++ g.escape text ++ "|") = .ok [.container .call [.word text]]) ∧
    (g.enclosure? '#' = some ⟨'.', .evalProperty⟩ ∧
      (g.modifier? '#' = none ∧ g.separator? '#' = none) ∧
      g.tokenize 1 ("#" ++ g.escape text ++ ".") = .ok [.container .evalProperty [.word text]]) := by
  intro g text
  have hg : g.Reachable := .change .initial _
  have hpipe : g.enclosure? '|' = some ⟨'|', .call⟩ := by decide
  have hhash : g.enclosure? '#' = some ⟨'.', .evalProperty⟩ := by decide
  have hpipePlain : g.modifier? '|' = none ∧ g.separator? '|' = none := by decide
  have hhashPlain : g.modifier? '#' = none ∧ g.separator? '#' = none := by decide
  exact ⟨⟨hpipe, hpipePlain, tokenize_escape_enclosed hg hpipe hpipePlain text (Nat.le_refl 1)⟩,
    ⟨hhash, hhashPlain, tokenize_escape_enclosed hg hhash hhashPlain text (Nat.le_refl 1)⟩⟩

end Grammar

end GraphPath
