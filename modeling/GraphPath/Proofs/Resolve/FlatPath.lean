import GraphPath.Proofs.Resolve.Words
import GraphPath.Proofs.Token.Words

/-! # Flat paths need no tokens

A path without special characters other than its property separator is resolved by
splitting its text (`resolveFlat`).  The other way, by tokens (`resolveByTokens`),
is open to every path.  **On a flat path the two ways agree**
(`resolveFlat_sameOutcome`), whatever grammar is in force: they succeed on the same
inputs with the same value, leave the same world behind, and report errors of the
same kind at the same position.  The one difference is the empty path, which has
an empty segment for the one and no steps for the other.

The scanner is followed through the text with `Flat.segmentsFrom`, the segments of
a text in front of which a part of the first one has been read already.  In the
first empty segment, if there is one, both ways come to an end: the scanner at the
separator behind it, or at the end of the text (`Valid.scan_flat`).
-/

namespace GraphPath

/-! ## Outcomes -/

/-- The position in the path text that an error points at, if it points at one. -/
def PathError.position? : PathError → Option Nat
  | .malformed position _ => some position
  | _ => none

/-- **The same outcome of two resolutions**: the same value and the same world, or two errors
and the same world.  The errors have the same kind and position if they are `compared`. -/
inductive SameOutcome {ε α : Type} (compared : Prop) :
    EStateM.Result PathError (World ε) α → EStateM.Result PathError (World ε) α → Prop
  | ok (a : α) (world : World ε) : SameOutcome compared (.ok a world) (.ok a world)
  | error {e e' : PathError} (world : World ε)
      (h : compared → e.kind = e'.kind ∧ e.position? = e'.position?) :
      SameOutcome compared (.error e world) (.error e' world)

theorem SameOutcome.refl {ε α : Type} (compared : Prop)
    (r : EStateM.Result PathError (World ε) α) : SameOutcome compared r r := by
  cases r with
  | ok a world => exact .ok a world
  | error e world => exact .error world fun _ => ⟨rfl, rfl⟩

/-- Errors that agree need not be compared. -/
theorem SameOutcome.weaken {ε α : Type} {compared : Prop}
    {r r' : EStateM.Result PathError (World ε) α} (h : SameOutcome True r r') :
    SameOutcome compared r r' := by
  cases h with
  | ok a world => exact .ok a world
  | error world h => exact .error world fun _ => h trivial

/-- Only a success has the same outcome as a success. -/
theorem SameOutcome.eq_ok {ε α : Type} {compared : Prop}
    {r : EStateM.Result PathError (World ε) α} {a : α} {world : World ε}
    (h : SameOutcome compared r (.ok a world)) : r = .ok a world := by
  cases h
  rfl

/-- Only an error has the same outcome as an error. -/
theorem SameOutcome.eq_error {ε α : Type} {r : EStateM.Result PathError (World ε) α}
    {e : PathError} {world : World ε} (h : SameOutcome True r (.error e world)) :
    ∃ e', r = .error e' world ∧ e'.kind = e.kind := by
  cases h with
  | error _ h => exact ⟨_, rfl, (h trivial).1⟩

/-- Resolve a path text by its tokens, flat or not. -/
def resolveByTokens {ε : Type} (host : Host ε) (g : Grammar) (setup : Setup) (root : Value)
    (path : String) (new? : Option Value) : Resolve ε Value :=
  match g.tokenize setup.maxDepth path with
  | .error e => throw e
  | .ok tokens => resolveTokens host setup root tokens new?

theorem resolveByTokens_of_ok {ε : Type} {g : Grammar} {setup : Setup} {path : String}
    {tokens : TokenTree} (htokens : g.tokenize setup.maxDepth path = .ok tokens) (host : Host ε)
    (root : Value) (new? : Option Value) :
    resolveByTokens host g setup root path new? = resolveTokens host setup root tokens new? := by
  rw [resolveByTokens, htokens]

theorem resolveByTokens_of_error {ε : Type} {g : Grammar} {setup : Setup} {path : String}
    {e : PathError} (htokens : g.tokenize setup.maxDepth path = .error e) (host : Host ε)
    (root : Value) (new? : Option Value) (world : World ε) :
    resolveByTokens host g setup root path new? world = .error e world := by
  rw [resolveByTokens, htokens]
  rfl

/-! ## Segments of a text half read -/

namespace Flat

/-- The segments of a text in front of which `word` has been read already. -/
def segmentsFrom (word : List Char) (separator : Char) (text : List Char) : List (List Char) :=
  match segments separator text with
  | [] => [word]
  | segment :: others => (word ++ segment) :: others

variable {word : List Char} {separator c : Char} {text : List Char}

theorem segmentsFrom_nil_left : segmentsFrom [] separator text = segments separator text := by
  unfold segmentsFrom
  split
  · rename_i h
    exact absurd h (segments_ne_nil separator text)
  · rename_i h
    rw [h, List.nil_append]

theorem segmentsFrom_nil : segmentsFrom word separator [] = [word] := by
  simp [segmentsFrom, segments]

theorem segmentsFrom_separator :
    segmentsFrom word separator (separator :: text) = word :: segmentsFrom [] separator text := by
  rw [segmentsFrom_nil_left]
  simp [segmentsFrom, segments]

theorem segmentsFrom_cons (hc : c ≠ separator) :
    segmentsFrom word separator (c :: text) = segmentsFrom (word ++ [c]) separator text := by
  unfold segmentsFrom
  rw [segments, if_neg hc]
  cases segments separator text with
  | nil => rfl
  | cons segment others => simp

end Flat

/-! ## Scanning a flat path -/

namespace Grammar
variable {g : Grammar}

/-- What the scanner makes of segments that begin at `position`, in a text of `size`
characters: one word each, up to the first empty one. -/
def readSegments (size : Nat) (tokens : List Token) (position : Nat)
    (segments : List (List Char)) : Except PathError TokenTree :=
  match Flat.emptyAt? position segments with
  | none => .ok (tokens ++ segments.map fun segment => .word (String.ofList segment))
  | some p =>
    .error (.malformed p (if p = size then .trailingSeparator else .emptySegment))

theorem readSegments_nil_cons {size position : Nat} (hsize : position < size)
    (tokens : List Token) (others : List (List Char)) :
    readSegments size tokens position ([] :: others) =
      .error (.malformed position .emptySegment) := by
  simp [readSegments, Flat.emptyAt?, Nat.ne_of_lt hsize]

theorem readSegments_cons {size position : Nat} {word : List Char} (hword : word ≠ [])
    (tokens : List Token) (others : List (List Char)) :
    readSegments size tokens position (word :: others) =
      readSegments size (tokens ++ [.word (String.ofList word)]) (position + word.length + 1)
        others := by
  have hempty : word.isEmpty = false := List.isEmpty_eq_false_iff.mpr hword
  simp [readSegments, Flat.emptyAt?, hempty]

/-- **The scanner splits a flat path into its segments.**  The word at hand is the part of the
current segment already read, so the segment begins that much before the text ahead.  An empty
text at the very beginning is left out: it has no segment for the scanner. -/
theorem Valid.scan_flat (hg : g.Valid) {maxDepth level size : Nat} {text : List Char}
    (hplain : ∀ c ∈ text, c ≠ g.propertySeparator → g.isSpecial c = false)
    (hmodifier : g.propertySeparator ∈ text → g.propertySeparator ∉ g.modifiers.keys)
    (tokens : List Token) (word : List Char) (separated : Bool) (position : Nat)
    (hsize : position + word.length + text.length = size)
    (hbegun : text ≠ [] ∨ word ≠ [] ∨ separated = true) :
    g.scan maxDepth level size (.atWord tokens word separated) text =
      readSegments size tokens position (Flat.segmentsFrom word g.propertySeparator text) := by
  -- a letter lengthens the word at hand and leaves the segment where it begins; a separator ends it
  induction text generalizing tokens word separated position with
  | nil =>
    rw [Flat.segmentsFrom_nil]
    by_cases hword : word = []
    · subst word
      obtain rfl : separated = true := by simpa using hbegun
      obtain rfl : position = size := by simpa using hsize
      rw [scan_nil, Draft.finish_atWord_nil]
      simp [readSegments, Flat.emptyAt?]
    · rw [scan_atWord_nil hword, readSegments_cons hword]
      simp [readSegments, Flat.emptyAt?]
  | cons c rest ih =>
    have hrest : ∀ x ∈ rest, x ≠ g.propertySeparator → g.isSpecial x = false :=
      fun x hx => hplain x (List.mem_cons_of_mem _ hx)
    have hmodifier' : g.propertySeparator ∈ rest → g.propertySeparator ∉ g.modifiers.keys :=
      fun hx => hmodifier (List.mem_cons_of_mem _ hx)
    rw [List.length_cons] at hsize
    by_cases hc : c = g.propertySeparator
    · subst c
      have hnot : g.propertySeparator ∉ g.modifiers.keys := hmodifier List.mem_cons_self
      rw [Flat.segmentsFrom_separator]
      by_cases hword : word = []
      · -- the separator stands where the segment would begin
        subst word
        rw [List.length_nil] at hsize
        have hat : size - (g.propertySeparator :: rest).length = position := by
          rw [List.length_cons]
          omega
        rw [scan_separator (hg.lexeme_propertySeparator hnot rest), Draft.separate_atWord_nil,
          readSegments_nil_cons (by omega), hat]
        rfl
      · rw [hg.scan_propertySeparator hnot hword, readSegments_cons hword]
        exact ih hrest hmodifier' _ [] true _ (by rw [List.length_nil]; omega)
          (Or.inr (Or.inr rfl))
    · have hletter : g.isSpecial c = false := hplain c List.mem_cons_self hc
      rw [scan_letter (lexeme_of_not_isSpecial hletter rest), Draft.push_atWord,
        Flat.segmentsFrom_cons hc]
      refine ih hrest hmodifier' tokens _ separated position ?_ (Or.inr (Or.inl (by simp)))
      rw [List.length_append, List.length_singleton]
      omega

/-- **The tokens of a flat path** are its segments, if none is empty. -/
theorem Valid.tokenize_flat (hg : g.Valid) {path : String}
    (hflat : g.needsTokenizer path = false) (hne : path ≠ "") (maxDepth : Nat) :
    g.tokenize maxDepth path =
      readSegments path.toList.length [] 0 (Flat.segments g.propertySeparator path.toList) := by
  have hplain : ∀ c ∈ path.toList, c ≠ g.propertySeparator → g.isSpecial c = false :=
    fun c hc hsep => hg.not_isSpecial_of_flat hflat hc hsep
  have hescape : escapeChar ∉ path.toList := fun h => by
    have hordinary := hplain _ h hg.propertySeparator_ne_escapeChar.symm
    exact ne_escapeChar_of_not_isSpecial hordinary rfl
  rw [tokenize_eq_scan, stripChars_of_not_mem hescape,
    ← Flat.segmentsFrom_nil_left]
  exact hg.scan_flat hplain (hg.propertySeparator_not_mem_modifiers_of_flat hflat) [] [] false 0
    (by simp) (Or.inl (fun h => hne (String.toList_eq_nil_iff.mp h)))

end Grammar

/-! ## The two ways -/

section
variable {ε : Type} (host : Host ε) {g : Grammar} (setup : Setup) (root : Value)
  (new? : Option Value) (world : World ε)

/-- The empty path fails in both ways, before anything is done. -/
theorem resolveFlat_empty :
    SameOutcome ("" ≠ "") (resolveFlat setup g.propertySeparator root "" new? world)
      (resolveByTokens host g setup root "" new? world) := by
  have htokens : g.tokenize setup.maxDepth "" = .ok [] := by
    rw [Grammar.tokenize_eq_scan, String.toList_empty, Grammar.stripChars_nil, Grammar.scan_nil]
    rfl
  rw [resolveByTokens_of_ok htokens]
  exact .error world fun h => absurd rfl h

/-- Any other flat path has the same outcome in both, errors compared. -/
theorem resolveFlat_of_ne_empty (hg : g.Valid) {path : String}
    (hflat : g.needsTokenizer path = false) (hne : path ≠ "") :
    SameOutcome True (resolveFlat setup g.propertySeparator root path new? world)
      (resolveByTokens host g setup root path new? world) := by
  rw [resolveFlat, resolveByTokens, hg.tokenize_flat hflat hne, Grammar.readSegments]
  cases Flat.emptyAt? 0 (Flat.segments g.propertySeparator path.toList) with
  | some position => exact .error world fun _ => ⟨rfl, rfl⟩
  | none =>
    have hwords : (Flat.segments g.propertySeparator path.toList).map
        (fun segment => Token.word (String.ofList segment)) =
        ((Flat.segments g.propertySeparator path.toList).map String.ofList).map .word := by
      rw [List.map_map]
      rfl
    have hsegments := Flat.segments_ne_nil g.propertySeparator path.toList
    simp only [List.nil_append, hwords]
    rw [resolveTokens_words host setup (by simpa using hsegments)]
    exact .refl _ _

/-- **A flat path is resolved by splitting it exactly as it would be by its tokens.** -/
theorem resolveFlat_sameOutcome (hg : g.Reachable) {path : String}
    (hflat : g.needsTokenizer path = false) :
    SameOutcome (path ≠ "") (resolveFlat setup g.propertySeparator root path new? world)
      (resolveByTokens host g setup root path new? world) := by
  by_cases hne : path = ""
  · subst path
    exact resolveFlat_empty host setup root new? world
  · exact (resolveFlat_of_ne_empty host setup root new? world hg.valid hflat hne).weaken

end

/-- A path with an empty segment, under a grammar with another property separator. -/
theorem resolveFlat_sameOutcome_slash :
    let g := Grammar.default.attempt { separators := .ofList [('/', some .property)] }
    g.Reachable ∧ g.needsTokenizer "a.b//c" = false ∧
      SameOutcome (ε := Unit) ("a.b//c" ≠ "")
        (resolveFlat { maxDepth := 1 } g.propertySeparator .null "a.b//c" none ⟨{}, ()⟩)
        (resolveByTokens Host.none g { maxDepth := 1 } .null "a.b//c" none ⟨{}, ()⟩) :=
  ⟨.change .initial _, by decide +kernel,
    resolveFlat_sameOutcome Host.none _ _ _ _ (.change .initial _) (by decide +kernel)⟩

end GraphPath
