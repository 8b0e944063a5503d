import GraphPath.Locate
import GraphPath.Proofs.Grammar.Escape
import GraphPath.Proofs.Token.Scan

/-! # Rows of words

While a text of words and property separators is scanned, only four fields of
the draft are in use: the finished words, the word at hand, whether anything
stands in the segment (which is whether the word at hand is non-empty), and
whether a separator has been read.  `Draft.atWord` is such a draft, and the
lemmas on it say what a letter, a property separator and the end of the text do.

Scanning an escaped key adds the key itself to the word at hand, whatever else is in the
draft (`Valid.scan_escapeChars`), so that scanning a row of escaped keys gives
the row of keys (`Valid.scan_rowChars`), unless one of them is empty
(`Valid.scan_rowChars_of_empty`).  In terms of texts: **a path of keys is read as
these keys** (`tokenize_pathOfKeys`).
-/

namespace GraphPath

/-! ## Drafts of words -/

/-- A draft with more characters in its word. -/
def Draft.pushAll (d : Draft) (cs : List Char) : Draft := cs.foldl Draft.push d

/-- A draft with some tokens finished and a plain word at hand. -/
def Draft.atWord (tokens : List Token) (word : List Char) (separated : Bool) : Draft :=
  { tokens, word, filled := !word.isEmpty, separated }

namespace Draft
variable {d : Draft} {tokens : List Token} {word cs : List Char} {separated : Bool}

theorem pushAll_cons (c : Char) : d.pushAll (c :: cs) = (d.push c).pushAll cs := rfl

theorem pushAll_eq (hcs : cs ≠ []) :
    d.pushAll cs = { d with word := d.word ++ cs, filled := true } := by
  induction cs generalizing d with
  | nil => exact absurd rfl hcs
  | cons c rest ih =>
    rw [pushAll_cons]
    by_cases hrest : rest = []
    · subst hrest
      rfl
    · rw [ih hrest, push, List.append_assoc]
      rfl

@[simp] theorem push_atWord (c : Char) :
    (atWord tokens word separated).push c = atWord tokens (word ++ [c]) separated := by
  simp [push, atWord]

theorem pushAll_atWord :
    (atWord tokens word separated).pushAll cs = atWord tokens (word ++ cs) separated := by
  induction cs generalizing word with
  | nil => rw [List.append_nil]; rfl
  | cons c rest ih => rw [pushAll_cons, push_atWord, ih, List.append_assoc]; rfl

/-- A word without modifiers and wildcards is taken as a plain one. -/
theorem takeWord_of_plain (hword : d.word ≠ []) (hmodifiers : d.modifiers = {})
    (hpatterned : d.patterned = false) :
    d.takeWord = .ok (some (.word (String.ofList d.word)), { d with word := [] }) := by
  have hempty : d.word.isEmpty = false := List.isEmpty_eq_false_iff.mpr hword
  simp [takeWord, wordToken, Modifiers.isEmpty, hempty, hmodifiers, hpatterned]

theorem takeWord_atWord (hword : word ≠ []) :
    (atWord tokens word separated).takeWord =
      .ok (some (.word (String.ofList word)),
        { atWord tokens [] separated with filled := true }) := by
  rw [takeWord_of_plain hword rfl rfl]
  simp [atWord, hword]

theorem separate_atWord_nil :
    (atWord tokens [] separated).separate .property = .error .emptySegment := rfl

theorem separate_atWord (hword : word ≠ []) :
    (atWord tokens word separated).separate .property =
      .ok (atWord (tokens ++ [.word (String.ofList word)]) [] true) := by
  rw [separate, takeWord_atWord hword]
  rfl

theorem finish_atWord_nil :
    (atWord tokens [] separated).finish =
      if separated then .error .trailingSeparator else .ok tokens := by
  cases separated <;> rfl

theorem finish_atWord (hword : word ≠ []) :
    (atWord tokens word separated).finish = .ok (tokens ++ [.word (String.ofList word)]) := by
  rw [finish, takeWord_atWord hword]
  rfl

end Draft

namespace Grammar
variable {g : Grammar} {maxDepth level size : Nat}
  {tokens : List Token} {word : List Char} {separated : Bool}

/-! ## Scanning words -/

/-- A property separator behind a word finishes the word. -/
theorem Valid.scan_propertySeparator (hg : g.Valid)
    (hmodifier : g.propertySeparator ∉ g.modifiers.keys) (hword : word ≠ []) (rest : List Char) :
    g.scan maxDepth level size (.atWord tokens word separated) (g.propertySeparator :: rest) =
      g.scan maxDepth level size (.atWord (tokens ++ [.word (String.ofList word)]) [] true)
        rest := by
  rw [scan_separator (hg.lexeme_propertySeparator hmodifier rest), Draft.separate_atWord hword]
  rfl

/-- The end of the text finishes the word, too. -/
theorem scan_atWord_nil (hword : word ≠ []) :
    g.scan maxDepth level size (.atWord tokens word separated) [] =
      .ok (tokens ++ [.word (String.ofList word)]) := by
  rw [scan_nil, Draft.finish_atWord hword]
  rfl

/-- **An escaped key is read as the key itself**, whatever was read before it. -/
theorem Valid.scan_escapeChars (hg : g.Valid) (d : Draft) (key rest : List Char) :
    g.scan maxDepth level size d (g.escapeChars key ++ rest) =
      g.scan maxDepth level size (d.pushAll key) rest := by
  induction key generalizing d with
  | nil => rfl
  | cons c key ih =>
    rw [escapeChars_cons hg, Draft.pushAll_cons]
    cases hc : g.isSpecial c with
    | true =>
      show g.scan _ _ _ _ (escapeChar :: c :: (g.escapeChars key ++ rest)) = _
      rw [scan_letter (lexeme_escapeChar c _), ih]
    | false =>
      show g.scan _ _ _ _ (c :: (g.escapeChars key ++ rest)) = _
      rw [scan_letter (lexeme_of_not_isSpecial hc _), ih]

theorem Valid.scan_escapeChars_append (hg : g.Valid) (key rest : List Char) :
    g.scan maxDepth level size (.atWord tokens word separated) (g.escapeChars key ++ rest) =
      g.scan maxDepth level size (.atWord tokens (word ++ key) separated) rest := by
  rw [hg.scan_escapeChars, Draft.pushAll_atWord]

/-! ## Escaped texts with a character between them -/

/-- The characters of escaped texts with a separator between them. -/
def listed (g : Grammar) (separator : Char) (texts : List (List Char)) : List Char :=
  [separator].intercalate (texts.map g.escapeChars)

section
variable {separator : Char}

@[simp] theorem listed_nil : g.listed separator [] = [] := rfl

theorem listed_singleton (text : List Char) : g.listed separator [text] = g.escapeChars text :=
  List.intercalate_singleton

theorem listed_cons_cons (text next : List Char) (others : List (List Char)) :
    g.listed separator (text :: next :: others) =
      g.escapeChars text ++ separator :: g.listed separator (next :: others) := by
  simp [listed]

/-- Escaped texts have no needless escapes between them either. -/
theorem Valid.stripChars_listed_append (hg : g.Valid) (hseparator : separator ≠ escapeChar)
    (rest : List Char) :
    ∀ texts : List (List Char),
      g.stripChars (g.listed separator texts ++ rest) = g.listed separator texts ++ g.stripChars rest
  | [] => rfl
  | [text] => by rw [listed_singleton, hg.stripChars_escapeChars_append]
  | text :: next :: others => by
    rw [listed_cons_cons, List.append_assoc, hg.stripChars_escapeChars_append, List.cons_append,
      stripChars_cons_of_ne hseparator,
      hg.stripChars_listed_append hseparator rest (next :: others), List.append_assoc,
      List.cons_append]

theorem Valid.stripChars_listed (hg : g.Valid) (hseparator : separator ≠ escapeChar)
    (texts : List (List Char)) : g.stripChars (g.listed separator texts) = g.listed separator texts := by
  have hlisted := hg.stripChars_listed_append hseparator [] texts
  rwa [List.append_nil, stripChars_nil, List.append_nil] at hlisted

end

/-! ## Scanning rows of escaped keys -/

/-- The characters of a row of keys as a flat path. -/
def rowChars (g : Grammar) (keys : List (List Char)) : List Char :=
  [g.propertySeparator].intercalate (keys.map g.escapeChars)

theorem rowChars_singleton (key : List Char) : g.rowChars [key] = g.escapeChars key :=
  listed_singleton key

theorem rowChars_cons_cons (key next : List Char) (others : List (List Char)) :
    g.rowChars (key :: next :: others) =
      g.escapeChars key ++ g.propertySeparator :: g.rowChars (next :: others) :=
  listed_cons_cons key next others

theorem toList_pathOfKeys (keys : List String) :
    (g.pathOfKeys keys).toList = g.rowChars (keys.map String.toList) := by
  simp [pathOfKeys, rowChars, escape, Function.comp_def]

theorem escapeChars_eq_nil_iff {key : List Char} : g.escapeChars key = [] ↔ key = [] := by
  cases key with
  | nil => exact ⟨fun _ => rfl, fun _ => rfl⟩
  | cons c key =>
    rw [escapeChars, List.flatMap_cons]
    split <;> simp

/-- A row has no characters at all only if it has no key, or one key with no characters. -/
theorem rowChars_eq_nil_iff {keys : List (List Char)} :
    g.rowChars keys = [] ↔ keys = [] ∨ keys = [[]] := by
  match keys with
  | [] => exact ⟨fun _ => Or.inl rfl, fun _ => rfl⟩
  | [key] => simp [rowChars_singleton, escapeChars_eq_nil_iff]
  | key :: next :: others => simp [rowChars_cons_cons]

/-- A row of escaped keys has no needless escapes. -/
theorem Valid.stripChars_rowChars (hg : g.Valid) (keys : List (List Char)) :
    g.stripChars (g.rowChars keys) = g.rowChars keys :=
  hg.stripChars_listed hg.propertySeparator_ne_escapeChar keys

/-- The scan of a row, by recursion on the row: each key but the last is finished by the
separator behind it, the last one by the end of the text. -/
theorem Valid.scan_rowChars (hg : g.Valid)
    (hmodifier : g.propertySeparator ∉ g.modifiers.keys) :
    ∀ (keys : List (List Char)) (tokens : List Token) (separated : Bool),
      keys ≠ [] → (∀ key ∈ keys, key ≠ []) →
      g.scan maxDepth level size (.atWord tokens [] separated) (g.rowChars keys) =
        .ok (tokens ++ keys.map fun key => .word (String.ofList key))
  | [], _, _, hne, _ => absurd rfl hne
  | [key], tokens, separated, _, hkeys => by
    have hkey : key ≠ [] := hkeys key List.mem_cons_self
    rw [rowChars_singleton, ← List.append_nil (g.escapeChars key), hg.scan_escapeChars_append,
      List.nil_append, scan_atWord_nil hkey]
    rfl
  | key :: next :: others, tokens, separated, _, hkeys => by
    have hkey : key ≠ [] := hkeys key List.mem_cons_self
    rw [rowChars_cons_cons, hg.scan_escapeChars_append, List.nil_append,
      hg.scan_propertySeparator hmodifier hkey,
      hg.scan_rowChars hmodifier (next :: others) _ true (List.cons_ne_nil _ _)
        (fun k hk => hkeys k (List.mem_cons_of_mem _ hk)),
      List.append_assoc]
    rfl

/-- **A row with an empty key among others is malformed**: its segment is empty. -/
theorem Valid.scan_rowChars_of_empty (hg : g.Valid)
    (hmodifier : g.propertySeparator ∉ g.modifiers.keys) :
    ∀ (keys : List (List Char)) (tokens : List Token) (separated : Bool),
      [] ∈ keys → (keys ≠ [[]] ∨ separated = true) →
      ∃ position fault, g.scan maxDepth level size (.atWord tokens [] separated)
        (g.rowChars keys) = .error (.malformed position fault)
  | [], _, _, hempty, _ => absurd hempty List.not_mem_nil
  | [key], tokens, separated, hempty, hrow => by
    obtain rfl : [] = key := List.mem_singleton.mp hempty
    obtain rfl : separated = true := by simpa using hrow
    refine ⟨size, .trailingSeparator, ?_⟩
    rw [rowChars_singleton]
    exact scan_nil
  | key :: next :: others, tokens, separated, hempty, _ => by
    rw [rowChars_cons_cons, hg.scan_escapeChars_append, List.nil_append]
    by_cases hkey : key = []
    · subst key
      rw [scan_separator (hg.lexeme_propertySeparator hmodifier _), Draft.separate_atWord_nil]
      exact ⟨_, .emptySegment, rfl⟩
    · have hrest : [] ∈ next :: others := (List.mem_cons.mp hempty).resolve_left (Ne.symm hkey)
      rw [hg.scan_propertySeparator hmodifier hkey]
      exact hg.scan_rowChars_of_empty hmodifier (next :: others) _ true hrest (Or.inr rfl)

/-! ## Paths of keys -/

section
variable {keys : List String}

theorem nil_mem_map_toList : [] ∈ keys.map String.toList ↔ "" ∈ keys := by
  rw [List.mem_map]
  constructor
  · rintro ⟨key, hkey, hnil⟩
    rwa [String.toList_eq_nil_iff.mp hnil] at hkey
  · exact fun h => ⟨"", h, rfl⟩

theorem map_toList_eq_singleton_nil_iff : keys.map String.toList = [[]] ↔ keys = [""] := by
  constructor
  · intro h
    obtain ⟨key, rfl, hkey⟩ := List.map_eq_singleton_iff.mp h
    rw [String.toList_eq_nil_iff.mp hkey]
  · rintro rfl
    rfl

theorem pathOfKeys_eq_empty_iff : g.pathOfKeys keys = "" ↔ keys = [] ∨ keys = [""] := by
  rw [← String.toList_eq_nil_iff, toList_pathOfKeys, rowChars_eq_nil_iff, List.map_eq_nil_iff,
    map_toList_eq_singleton_nil_iff]

/-- Reading a text is scanning what is left of it without its needless escapes. -/
theorem tokenize_eq_scan (maxDepth : Nat) (path : String) :
    g.tokenize maxDepth path =
      g.scan maxDepth 0 (g.stripChars path.toList).length {} (g.stripChars path.toList) := by
  rw [tokenize, tokenizeAt, if_neg (Nat.not_lt_zero maxDepth)]

/-- A path of keys has no needless escapes. -/
theorem Valid.tokenize_pathOfKeys_eq_scan (hg : g.Valid) (maxDepth : Nat) (keys : List String) :
    g.tokenize maxDepth (g.pathOfKeys keys) =
      g.scan maxDepth 0 (g.rowChars (keys.map String.toList)).length {}
        (g.rowChars (keys.map String.toList)) := by
  rw [tokenize_eq_scan, toList_pathOfKeys, hg.stripChars_rowChars]

theorem Valid.tokenize_row (hg : g.Valid) (hmodifier : g.propertySeparator ∉ g.modifiers.keys)
    (hne : keys ≠ []) (hkeys : "" ∉ keys) (maxDepth : Nat) :
    g.tokenize maxDepth (g.pathOfKeys keys) = .ok (keys.map .word) := by
  have hrow : ∀ key ∈ keys.map String.toList, key ≠ [] := by
    rintro key hkey rfl
    exact hkeys (nil_mem_map_toList.mp hkey)
  have hne' : keys.map String.toList ≠ [] := by simpa using hne
  rw [hg.tokenize_pathOfKeys_eq_scan]
  refine (hg.scan_rowChars hmodifier _ [] false hne' hrow).trans ?_
  simp [Function.comp_def]

/-- **A path with an empty key is malformed**, if it has any character at all. -/
theorem Valid.tokenize_row_of_empty (hg : g.Valid)
    (hmodifier : g.propertySeparator ∉ g.modifiers.keys) (hempty : "" ∈ keys)
    (hpath : g.pathOfKeys keys ≠ "") (maxDepth : Nat) :
    ∃ position fault, g.tokenize maxDepth (g.pathOfKeys keys) =
      .error (.malformed position fault) := by
  have hrow : keys.map String.toList ≠ [[]] := by
    rw [ne_eq, map_toList_eq_singleton_nil_iff]
    exact fun h => hpath (pathOfKeys_eq_empty_iff.mpr (Or.inr h))
  rw [hg.tokenize_pathOfKeys_eq_scan]
  exact hg.scan_rowChars_of_empty hmodifier _ [] false (nil_mem_map_toList.mpr hempty)
    (Or.inl hrow)

end

/-- **A path of keys is read as these keys**, whatever characters they are made of. -/
theorem tokenize_pathOfKeys (hg : g.Reachable) (hsep : g.modifier? g.propertySeparator = none)
    {keys : List String} (hne : keys ≠ []) (hkeys : ∀ key ∈ keys, key ≠ "") (maxDepth : Nat) :
    g.tokenize maxDepth (g.pathOfKeys keys) = .ok (keys.map .word) := by
  have hmodifier : g.propertySeparator ∉ g.modifiers.keys := modifier?_eq_none_iff.mp hsep
  have hempty : "" ∉ keys := fun h => hkeys "" h rfl
  exact hg.valid.tokenize_row hmodifier hne hempty maxDepth

/-- Keys of special characters only, under a grammar with another property separator. -/
theorem tokenize_pathOfKeys_slash :
    let g := default.attempt { separators := .ofList [('/', some .property)] }
    g.modifier? g.propertySeparator = none ∧
      g.tokenize 0 (g.pathOfKeys ["/*", "\\\\", "'"]) =
        .ok [.word "/*", .word "\\\\", .word "'"] :=
  ⟨by decide, tokenize_pathOfKeys (.change .initial _) (by decide) (by decide) (by decide) 0⟩

end Grammar

end GraphPath
