import GraphPath.Proofs.Token.Words

/-! # Paths without containers, by splitting

A path without escapes and containers can be read by splitting it twice: at property
separators into **segments**, and each segment at collection separators into
**pieces** (`Grammar.rows`).  A character that is also a modifier separates nothing.
What is left in a piece are modifiers, which are counted, and letters, which make up a
word (`Grammar.pieceToken`); the pieces of one segment make up one token
(`Grammar.segmentToken`).

**The scanner reads such a path as if it were split** (`tokenize_containerFree`), and
rejects it exactly if some piece is without letters.  It reads a character at a time, so
the argument goes through texts that are partly read: some pieces of the current
segment are finished, and a part of the next one has been read (`Draft.reading`,
`Grammar.rowsFrom`).  Nothing is asked of the order of modifiers and letters in a piece.
-/

namespace GraphPath

namespace Grammar
variable (g : Grammar)

/-! ## Splitting -/

/-- Whether a character ends a segment. -/
def cutsSegment (c : Char) : Bool := (g.modifier? c).isNone && g.separator? c == some .property

/-- Whether a character ends a piece of a segment. -/
def cutsPiece (c : Char) : Bool := (g.modifier? c).isNone && g.separator? c == some .collection

/-- The pieces of a segment. -/
def pieces (segment : List Char) : List (List Char) := segment.splitOnP g.cutsPiece

/-- **A text, split twice**: a row of pieces for each segment. -/
def rows (text : List Char) : List (List (List Char)) :=
  (text.splitOnP g.cutsSegment).map g.pieces

/-- The characters of a piece that are no modifiers. -/
def letters (piece : List Char) : List Char := piece.filter fun c => (g.modifier? c).isNone

/-- How often each modifier stands in a piece. -/
def modifiersIn (piece : List Char) : Modifiers where
  parent := piece.countP (g.modifier? · == some .parent)
  root := piece.countP (g.modifier? · == some .root)
  placeholder := piece.countP (g.modifier? · == some .placeholder)
  context := piece.countP (g.modifier? · == some .context)

/-- **The token of a piece**: a word if there is neither a modifier nor a wildcard in it. -/
def pieceToken (piece : List Char) : Token :=
  if piece.all fun c => (g.modifier? c).isNone && c != wildcardChar then
    .word (String.ofList (g.letters piece))
  else .modified (String.ofList (g.letters piece)) (g.modifiersIn piece)

/-- **The token of a segment**: that of its piece, or a collection of those of its pieces. -/
def segmentToken : List (List Char) → Token
  | [piece] => g.pieceToken piece
  | pieces => .collection (pieces.map g.pieceToken)

/-- Whether a character would open or close a container where the scanner comes across it. -/
def Encloses (c : Char) : Prop :=
  g.modifier? c = none ∧ g.separator? c = none ∧
    ((g.enclosure? c).isSome = true ∨ g.isCloser c = true)

instance : DecidablePred g.Encloses := fun _ => inferInstanceAs (Decidable (_ ∧ _ ∧ (_ ∨ _)))

end Grammar

/-! ## Texts partly read -/

namespace Grammar
variable {g : Grammar} {front : List (List Char)} {piece text : List Char} {c : Char}

/-- The rows of a text in front of which the pieces `front` and a part of the next `piece` have
been read. -/
def rowsFrom (g : Grammar) (front : List (List Char)) (piece text : List Char) :
    List (List (List Char)) :=
  match text.splitOnP g.cutsSegment with
  | [] => []
  | segment :: others => (front ++ (g.pieces segment).modifyHead (piece ++ ·)) :: others.map g.pieces

theorem rowsFrom_nil_nil : g.rowsFrom [] [] text = g.rows text := by
  unfold rowsFrom rows
  cases text.splitOnP g.cutsSegment with
  | nil => rfl
  | cons segment others => cases hpieces : g.pieces segment <;> simp [hpieces]

theorem rowsFrom_nil : g.rowsFrom front piece [] = [front ++ [piece]] := by
  simp [rowsFrom, pieces]

/-- The end of a segment is the end of a row. -/
theorem rowsFrom_segment (hc : g.cutsSegment c = true) :
    g.rowsFrom front piece (c :: text) = (front ++ [piece]) :: g.rowsFrom [] [] text := by
  rw [rowsFrom_nil_nil, rowsFrom, List.splitOnP_cons_eq_if_modifyHead, if_pos hc]
  simp [pieces, rows]

/-- The end of a piece, with the next one still to be read. -/
theorem rowsFrom_piece (hsegment : g.cutsSegment c = false) (hc : g.cutsPiece c = true) :
    g.rowsFrom front piece (c :: text) = g.rowsFrom (front ++ [piece]) [] text := by
  unfold rowsFrom
  rw [List.splitOnP_cons_eq_if_modifyHead, hsegment]
  cases text.splitOnP g.cutsSegment with
  | nil => rfl
  | cons segment others =>
    have hpieces : g.pieces (c :: segment) = [] :: g.pieces segment := by
      rw [pieces, List.splitOnP_cons_eq_if_modifyHead, if_pos hc, pieces]
    cases h : g.pieces segment <;> simp [hpieces, h]

/-- Any other character lengthens the piece. -/
theorem rowsFrom_cons (hsegment : g.cutsSegment c = false) (hc : g.cutsPiece c = false) :
    g.rowsFrom front piece (c :: text) = g.rowsFrom front (piece ++ [c]) text := by
  unfold rowsFrom
  rw [List.splitOnP_cons_eq_if_modifyHead, hsegment]
  cases text.splitOnP g.cutsSegment with
  | nil => rfl
  | cons segment others =>
    have hpieces : g.pieces (c :: segment) = (g.pieces segment).modifyHead (c :: ·) := by
      rw [pieces, List.splitOnP_cons_eq_if_modifyHead, hc, pieces]
      rfl
    cases h : g.pieces segment <;> simp [hpieces, h]

/-! ## Pieces partly read -/

theorem letters_concat_letter (hc : g.modifier? c = none) :
    g.letters (piece ++ [c]) = g.letters piece ++ [c] := by
  simp [letters, hc]

theorem letters_concat_modifier {modifier : Modifier} (hc : g.modifier? c = some modifier) :
    g.letters (piece ++ [c]) = g.letters piece := by
  simp [letters, hc]

theorem modifiersIn_concat_letter (hc : g.modifier? c = none) :
    g.modifiersIn (piece ++ [c]) = g.modifiersIn piece := by
  simp [modifiersIn, hc]

theorem modifiersIn_concat_modifier {modifier : Modifier} (hc : g.modifier? c = some modifier) :
    g.modifiersIn (piece ++ [c]) = (g.modifiersIn piece).add modifier := by
  cases modifier <;> simp [modifiersIn, hc, Modifiers.add]

/-- Nothing is counted in a piece without modifiers. -/
theorem modifiersIn_isEmpty_iff :
    (g.modifiersIn piece).isEmpty = true ↔ ∀ c ∈ piece, g.modifier? c = none := by
  rw [Modifiers.isEmpty, beq_iff_eq, Modifiers.ext_iff]
  simp only [modifiersIn, List.countP_eq_zero, beq_iff_eq]
  constructor
  · rintro ⟨hparent, hroot, hplaceholder, hcontext⟩ c hc
    cases hmodifier : g.modifier? c with
    | none => rfl
    | some modifier =>
      cases modifier
      · exact absurd hmodifier (hparent c hc)
      · exact absurd hmodifier (hroot c hc)
      · exact absurd hmodifier (hplaceholder c hc)
      · exact absurd hmodifier (hcontext c hc)
  · intro h
    refine ⟨?_, ?_, ?_, ?_⟩ <;> intro c hc <;> simp [h c hc]

end Grammar

/-! ## Drafts of pieces -/

/-- A draft with some tokens finished, some members of a collection, and a piece at hand. -/
def Draft.reading (g : Grammar) (tokens : List Token) (front : List (List Char))
    (piece : List Char) (separated : Bool) : Draft where
  tokens := tokens
  members := front.map g.pieceToken
  word := g.letters piece
  modifiers := g.modifiersIn piece
  patterned := piece.contains wildcardChar
  filled := !(g.letters piece).isEmpty
  separated := separated

namespace Draft
variable {g : Grammar} {tokens : List Token} {front : List (List Char)} {piece : List Char}
  {separated : Bool} {c : Char}

theorem reading_nil : reading g [] [] [] false = {} := rfl

theorem step_reading_letter (hc : g.modifier? c = none) (hwildcard : c ≠ wildcardChar) :
    (reading g tokens front piece separated).step (.letter c) =
      .ok (reading g tokens front (piece ++ [c]) separated) := by
  simp [step, push, reading, Grammar.letters_concat_letter hc,
    Grammar.modifiersIn_concat_letter hc, Ne.symm hwildcard]

theorem step_reading_wildcard (hc : g.modifier? wildcardChar = none) :
    (reading g tokens front piece separated).step .wildcard =
      .ok (reading g tokens front (piece ++ [wildcardChar]) separated) := by
  simp [step, push, reading, Grammar.letters_concat_letter hc,
    Grammar.modifiersIn_concat_letter hc]

theorem step_reading_modifier {modifier : Modifier} (hc : g.modifier? c = some modifier)
    (hwildcard : c ≠ wildcardChar) :
    (reading g tokens front piece separated).step (.modifier modifier) =
      .ok (reading g tokens front (piece ++ [c]) separated) := by
  simp [step, reading, Grammar.letters_concat_modifier hc,
    Grammar.modifiersIn_concat_modifier hc, Ne.symm hwildcard]

/-- The word at hand is the token of the piece. -/
theorem wordToken_reading :
    (reading g tokens front piece separated).wordToken = g.pieceToken piece := by
  have hplain : ((g.modifiersIn piece).isEmpty && !piece.contains wildcardChar) =
      piece.all fun c => (g.modifier? c).isNone && c != wildcardChar := by
    rw [Bool.eq_iff_iff, Bool.and_eq_true_iff, Grammar.modifiersIn_isEmpty_iff, List.all_eq_true]
    simp only [Bool.not_eq_true', List.contains_eq_mem, decide_eq_false_iff_not,
      Bool.and_eq_true_iff, Option.isNone_iff_eq_none, bne_iff_ne]
    grind
  rw [wordToken, Grammar.pieceToken, ← hplain]
  rfl

theorem takeWord_reading (hpiece : g.letters piece ≠ []) :
    (reading g tokens front piece separated).takeWord =
      .ok (some (g.pieceToken piece),
        { reading g tokens front [] separated with filled := true }) := by
  have hempty : (g.letters piece).isEmpty = false := List.isEmpty_eq_false_iff.mpr hpiece
  rw [takeWord, wordToken_reading]
  simp only [reading, hempty, Bool.false_eq_true, if_false]
  rfl

/-- A piece without letters is no word, and an error if there are modifiers in it. -/
theorem takeWord_reading_nil (hpiece : g.letters piece = []) :
    (reading g tokens front piece separated).takeWord =
      if (g.modifiersIn piece).isEmpty then .ok (none, reading g tokens front piece separated)
      else .error .bareModifier := by
  simp [takeWord, reading, hpiece]

/-- Whether a token goes into a collection depends on what was read before it. -/
theorem closeCollection_file_reading :
    (({ reading g tokens front [] separated with filled := true }).file
      (g.pieceToken piece)).closeCollection =
      { reading g (tokens ++ [g.segmentToken (front ++ [piece])]) [] [] separated with
        filled := true } := by
  cases front with
  | nil => rfl
  | cons first rest =>
    have hsegment : g.segmentToken (first :: rest ++ [piece]) =
        .collection ((first :: rest ++ [piece]).map g.pieceToken) := by
      cases rest <;> rfl
    rw [hsegment]
    simp [file, closeCollection, reading]

theorem separate_reading_collection (hpiece : g.letters piece ≠ []) :
    (reading g tokens front piece separated).separate .collection =
      .ok (reading g tokens (front ++ [piece]) [] true) := by
  rw [separate, takeWord_reading hpiece]
  simp [reading, Grammar.letters]

theorem separate_reading_property (hpiece : g.letters piece ≠ []) :
    (reading g tokens front piece separated).separate .property =
      .ok (reading g (tokens ++ [g.segmentToken (front ++ [piece])]) [] [] true) := by
  rw [separate, takeWord_reading hpiece]
  dsimp only
  rw [closeCollection_file_reading]
  rfl

theorem separate_reading_nil (hpiece : g.letters piece = []) (role : SeparatorRole) :
    ∃ fault, (reading g tokens front piece separated).separate role = .error fault := by
  rw [separate, takeWord_reading_nil hpiece]
  cases (g.modifiersIn piece).isEmpty with
  | false => exact ⟨.bareModifier, rfl⟩
  | true =>
    refine ⟨.emptySegment, ?_⟩
    simp [reading, hpiece]

theorem finish_reading (hpiece : g.letters piece ≠ []) :
    (reading g tokens front piece separated).finish =
      .ok (tokens ++ [g.segmentToken (front ++ [piece])]) := by
  rw [finish, takeWord_reading hpiece]
  dsimp only
  rw [closeCollection_file_reading]
  rfl

theorem finish_reading_nil (hpiece : g.letters piece = []) (hbegun : piece ≠ [] ∨ separated = true) :
    ∃ fault, (reading g tokens front piece separated).finish = .error fault := by
  rw [finish, takeWord_reading_nil hpiece]
  cases hempty : (g.modifiersIn piece).isEmpty with
  | false => exact ⟨.bareModifier, rfl⟩
  | true =>
    -- with neither letters nor modifiers there is nothing in the piece
    have hnil : piece = [] := by
      rw [← hpiece, Grammar.letters, eq_comm, List.filter_eq_self]
      intro c hc
      rw [Grammar.modifiersIn_isEmpty_iff.mp hempty c hc]
      rfl
    obtain rfl : separated = true := hbegun.resolve_left (fun h => h hnil)
    refine ⟨.trailingSeparator, ?_⟩
    simp [reading, hpiece]

end Draft

/-! ## Scanning -/

namespace Grammar
variable {g : Grammar} {maxDepth level size : Nat} {c : Char} {text : List Char}
  {tokens : List Token} {front : List (List Char)} {piece : List Char} {separated : Bool}

/-- A character without a role that the scanner would see is part of a word. -/
theorem lexeme_of_not_encloses (hescape : c ≠ escapeChar) (hmodifier : g.modifier? c = none)
    (hseparator : g.separator? c = none) (hc : ¬ g.Encloses c) (rest : List Char) :
    g.lexeme c rest = (if c = wildcardChar then .wildcard else .letter c, rest) := by
  have hnone : ¬ ((g.enclosure? c).isSome = true ∨ g.isCloser c = true) :=
    fun h => hc ⟨hmodifier, hseparator, h⟩
  rw [not_or, Bool.not_eq_true, Bool.not_eq_true, Option.isSome_eq_false_iff,
    Option.isNone_iff_eq_none] at hnone
  simp only [lexeme, if_neg hescape, hmodifier, hseparator, hnone.1, hnone.2, Bool.false_eq_true,
    if_false]
  split <;> rfl

theorem Valid.modifier?_wildcardChar (hg : g.Valid) : g.modifier? wildcardChar = none := by
  rw [modifier?_eq_none_iff]
  intro h
  have hreserved := hg.unreserved wildcardChar (by simp [roleChars, h])
  exact absurd hreserved (by decide)

/-- **What reading rows of pieces comes to**, with some tokens finished before: a token for each
row if no piece is without letters, and a syntax error if one is. -/
structure Reads (g : Grammar) (tokens : List Token) (rows : List (List (List Char)))
    (result : Except PathError TokenTree) : Prop where
  /-- With letters in every piece there are tokens. -/
  accepted : (∀ row ∈ rows, ∀ piece ∈ row, g.letters piece ≠ []) →
    result = .ok (tokens ++ rows.map g.segmentToken)
  /-- A piece without letters is an error. -/
  rejected : ∀ row ∈ rows, ∀ piece ∈ row, g.letters piece = [] →
    ∃ position fault, result = .error (.malformed position fault)

theorem Reads.of_error {rows : List (List (List Char))} {row : List (List Char)}
    (hrow : row ∈ rows) (hpiece : piece ∈ row) (hempty : g.letters piece = []) (position : Nat)
    (fault : SyntaxFault) : g.Reads tokens rows (.error (.malformed position fault)) where
  accepted h := absurd hempty (h row hrow piece hpiece)
  rejected _ _ _ _ _ := ⟨position, fault, rfl⟩

/-- A row with letters in every piece is read before the others. -/
theorem Reads.cons {rows : List (List (List Char))} {row : List (List Char)}
    {result : Except PathError TokenTree}
    (hreads : g.Reads (tokens ++ [g.segmentToken row]) rows result)
    (hrow : ∀ piece ∈ row, g.letters piece ≠ []) : g.Reads tokens (row :: rows) result where
  accepted h := by
    rw [hreads.accepted fun row hr => h row (List.mem_cons_of_mem _ hr), List.append_assoc]
    rfl
  rejected r hr piece hpiece hempty := by
    rcases List.mem_cons.mp hr with rfl | hr
    · exact absurd hempty (hrow piece hpiece)
    · exact hreads.rejected r hr piece hpiece hempty

/-- A piece that a separator ends is in the first row. -/
theorem exists_mem_rowsFrom (hmodifier : g.modifier? c = none) {role : SeparatorRole}
    (hseparator : g.separator? c = some role) :
    ∃ row ∈ g.rowsFrom front piece (c :: text), piece ∈ row := by
  cases role with
  | property =>
    rw [rowsFrom_segment (by simp [cutsSegment, hmodifier, hseparator])]
    exact ⟨_, List.mem_cons_self, by simp⟩
  | collection =>
    rw [rowsFrom_piece (by simp [cutsSegment, hseparator])
      (by simp [cutsPiece, hmodifier, hseparator]), rowsFrom]
    cases h : text.splitOnP g.cutsSegment with
    | nil => exact absurd h (List.splitOnP_ne_nil _ _)
    | cons segment others => exact ⟨_, List.mem_cons_self, by simp⟩

theorem letters_ne_nil_of_mem_concat (hfront : ∀ p ∈ front, g.letters p ≠ [])
    (hpiece : g.letters piece ≠ []) : ∀ p ∈ front ++ [piece], g.letters p ≠ [] := by
  intro p hp
  rcases List.mem_append.mp hp with hp | hp
  · exact hfront p hp
  · rwa [List.mem_singleton.mp hp]

/-- A modifier or a letter lengthens the piece at hand. -/
theorem Valid.scan_reading_cons (hg : g.Valid) (hescape : c ≠ escapeChar)
    (hencloses : ¬ g.Encloses c) (hc : g.modifier? c ≠ none ∨ g.separator? c = none) :
    g.scan maxDepth level size (.reading g tokens front piece separated) (c :: text) =
      g.scan maxDepth level size (.reading g tokens front (piece ++ [c]) separated) text := by
  cases hmodifier : g.modifier? c with
  | some modifier =>
    have hwildcard : c ≠ wildcardChar := by
      rintro rfl
      rw [hg.modifier?_wildcardChar] at hmodifier
      cases hmodifier
    rw [scan_step (by simp) (by simp) (lexeme_of_modifier? hescape hmodifier text),
      Draft.step_reading_modifier hmodifier hwildcard]
    rfl
  | none =>
    have hseparator : g.separator? c = none := hc.resolve_left fun h => h hmodifier
    have hlexeme := lexeme_of_not_encloses hescape hmodifier hseparator hencloses text
    by_cases hwildcard : c = wildcardChar
    · subst hwildcard
      rw [if_pos rfl] at hlexeme
      rw [scan_step (by simp) (by simp) hlexeme, Draft.step_reading_wildcard hmodifier]
      rfl
    · rw [if_neg hwildcard] at hlexeme
      rw [scan_step (by simp) (by simp) hlexeme, Draft.step_reading_letter hmodifier hwildcard]
      rfl

/-- **The scanner reads rows of pieces.**  A modifier or a letter lengthens the piece at hand, a
separator finishes it, or its segment. -/
theorem Valid.scan_reading (hg : g.Valid) (htext : ∀ c ∈ text, c ≠ escapeChar ∧ ¬ g.Encloses c)
    (hfront : ∀ p ∈ front, g.letters p ≠ [])
    (hbegun : text ≠ [] ∨ piece ≠ [] ∨ separated = true) :
    g.Reads tokens (g.rowsFrom front piece text)
      (g.scan maxDepth level size (.reading g tokens front piece separated) text) := by
  induction text generalizing tokens front piece separated with
  | nil =>
    rw [rowsFrom_nil, scan_nil]
    by_cases hpiece : g.letters piece = []
    · have hbegun : piece ≠ [] ∨ separated = true := hbegun.resolve_left (fun h => h rfl)
      obtain ⟨fault, hfinish⟩ : ∃ fault,
          (Draft.reading g tokens front piece separated).finish = .error fault :=
        Draft.finish_reading_nil hpiece hbegun
      rw [hfinish]
      exact .of_error List.mem_cons_self (by simp) hpiece size fault
    · rw [Draft.finish_reading hpiece]
      exact Reads.cons ⟨fun _ => by simp, nofun⟩ (letters_ne_nil_of_mem_concat hfront hpiece)
  | cons c text ih =>
    obtain ⟨hescape, hencloses⟩ := htext c List.mem_cons_self
    have hrest : ∀ c ∈ text, c ≠ escapeChar ∧ ¬ g.Encloses c :=
      fun x hx => htext x (List.mem_cons_of_mem _ hx)
    by_cases hc : g.modifier? c ≠ none ∨ g.separator? c = none
    · rw [rowsFrom_cons (by rcases hc with hc | hc <;> simp [cutsSegment, hc])
        (by rcases hc with hc | hc <;> simp [cutsPiece, hc]),
        hg.scan_reading_cons hescape hencloses hc]
      exact ih hrest hfront (Or.inr (Or.inl (by simp)))
    · rw [not_or, ne_eq, Classical.not_not] at hc
      obtain ⟨hmodifier, hseparator⟩ := hc
      obtain ⟨role, hseparator⟩ := Option.ne_none_iff_exists'.mp hseparator
      rw [scan_separator (lexeme_of_separator? hescape hmodifier hseparator text)]
      by_cases hpiece : g.letters piece = []
      · -- the separator ends a piece without letters
        obtain ⟨fault, hfault⟩ : ∃ fault,
            (Draft.reading g tokens front piece separated).separate role = .error fault :=
          Draft.separate_reading_nil hpiece role
        obtain ⟨row, hrow, hin⟩ := exists_mem_rowsFrom hmodifier hseparator
        rw [hfault]
        exact .of_error hrow hin hpiece _ fault
      · have hfront' := letters_ne_nil_of_mem_concat hfront hpiece
        cases role with
        | property =>
          rw [rowsFrom_segment (by simp [cutsSegment, hmodifier, hseparator]),
            Draft.separate_reading_property hpiece]
          have hnone : ∀ p ∈ ([] : List (List Char)), g.letters p ≠ [] := nofun
          exact (ih hrest hnone (Or.inr (Or.inr rfl))).cons hfront'
        | collection =>
          rw [rowsFrom_piece (by simp [cutsSegment, hseparator])
            (by simp [cutsPiece, hmodifier, hseparator]),
            Draft.separate_reading_collection hpiece]
          exact ih hrest hfront' (Or.inr (Or.inr rfl))

/-- **A path without containers is read by splitting it.**  It is accepted exactly if every piece
has a letter in it, then as one token for each segment, and rejected as malformed otherwise. -/
theorem tokenize_containerFree (hg : g.Reachable) {path : String} (hne : path ≠ "")
    (hescape : escapeChar ∉ path.toList) (hcontainer : ∀ c ∈ path.toList, ¬ g.Encloses c)
    (maxDepth : Nat) :
    ((∃ tree, g.tokenize maxDepth path = .ok tree) ↔
        ∀ row ∈ g.rows path.toList, ∀ piece ∈ row, ∃ c ∈ piece, g.modifier? c = none) ∧
      (∀ tree, g.tokenize maxDepth path = .ok tree →
        tree = (g.rows path.toList).map g.segmentToken) ∧
      ∀ e, g.tokenize maxDepth path = .error e → e.kind = .syntaxInvalid := by
  have hletters (piece : List Char) :
      (∃ c ∈ piece, g.modifier? c = none) ↔ g.letters piece ≠ [] := by
    simp [letters]
  have hreads : g.Reads [] (g.rows path.toList) (g.tokenize maxDepth path) := by
    rw [tokenize_eq_scan, stripChars_of_not_mem hescape, ← rowsFrom_nil_nil, ← Draft.reading_nil]
    refine hg.valid.scan_reading (fun c hc => ⟨fun h => hescape (h ▸ hc), hcontainer c hc⟩) nofun ?_
    exact Or.inl fun h => hne (String.toList_eq_nil_iff.mp h)
  simp only [hletters]
  by_cases hempty : ∃ row ∈ g.rows path.toList, ∃ piece ∈ row, g.letters piece = []
  · obtain ⟨row, hrow, piece, hpiece, hnone⟩ := hempty
    obtain ⟨position, fault, herror⟩ := hreads.rejected row hrow piece hpiece hnone
    rw [herror]
    refine ⟨⟨nofun, fun h => absurd hnone (h row hrow piece hpiece)⟩, nofun, ?_⟩
    rintro _ ⟨⟩
    rfl
  · have hall : ∀ row ∈ g.rows path.toList, ∀ piece ∈ row, g.letters piece ≠ [] :=
      fun row hrow piece hpiece hnone => hempty ⟨row, hrow, piece, hpiece, hnone⟩
    rw [hreads.accepted hall]
    exact ⟨⟨fun _ => hall, fun _ => ⟨_, rfl⟩⟩, fun _ h => (Except.ok.inj h).symm, nofun⟩

/-- A path with modifiers, a wildcard and a collection is read as three tokens, under a grammar
with another property separator. -/
theorem tokenize_containerFree_slash :
    let g := default.attempt { separators := .ofList [('/', some .property)] }
    let path := "<<a.b/~x,*/c"
    g.Reachable ∧ path ≠ "" ∧ escapeChar ∉ path.toList ∧ (∀ c ∈ path.toList, ¬ g.Encloses c) ∧
      g.tokenize 1 path = .ok [.modified "a.b" { parent := 2 },
        .collection [.modified "x" { root := 1 }, .modified "*" {}], .word "c"] := by
  intro g path
  have hg : g.Reachable := .change .initial _
  have hne : path ≠ "" := by decide
  have hescape : escapeChar ∉ path.toList := by decide
  -- over all characters there would be too much to decide
  have hplain : (path.toList.all fun c => ¬ g.Encloses c) = true := by decide
  have hcontainer : ∀ c ∈ path.toList, ¬ g.Encloses c := by simpa using hplain
  have hrows : g.rows path.toList =
      [[['<', '<', 'a', '.', 'b']], [['~', 'x'], ['*']], [['c']]] := by decide
  have hletters : (g.rows path.toList).all (·.all (·.any fun c => g.modifier? c = none)) = true := by
    decide
  obtain ⟨haccepted, htree, -⟩ := tokenize_containerFree hg hne hescape hcontainer 1
  obtain ⟨tree, htokens⟩ := haccepted.mpr (by simpa using hletters)
  refine ⟨hg, hne, hescape, hcontainer, htokens.trans ?_⟩
  rw [htree tree htokens, hrows]
  rfl

end Grammar

end GraphPath
