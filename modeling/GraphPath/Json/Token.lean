/-!
# JSON text as tokens

The first half of reading JSON: a text is cut into brackets, commas, colons, words,
numbers and strings.  Numbers and strings are kept as they are written, so that what
they stand for, and whether they stand for anything, is decided only where they are
used.

`JsonToken.tokens?` fails exactly where no token can be cut off.  Every token leaves a
shorter text (`length_token?`), so it ends.
-/

namespace GraphPath

/-- A number as it is written: `-12.5e+3` has the sign, `12`, `5`, and the exponent `+3`. -/
structure NumberText where
  /-- Whether a minus sign stands in front. -/
  negative : Bool
  /-- The digits before the point. -/
  whole : List Char
  /-- The digits behind the point, if there is one. -/
  fraction? : Option (List Char)
  /-- The exponent, if there is one: whether it is negative, and its digits. -/
  exponent? : Option (Bool × List Char)
  deriving DecidableEq, Repr

/-- A part of a string as it is written. -/
inductive StringPart where
  /-- A character, written as itself or by a short escape. -/
  | char (c : Char)
  /-- Sixteen bits, written by four hexadecimal digits. -/
  | unit (n : Nat)
  deriving DecidableEq, Repr

/-- A token of JSON. -/
inductive JsonToken where
  | openArray
  | closeArray
  | openObject
  | closeObject
  | comma
  | colon
  | null
  | bool (b : Bool)
  | number (text : NumberText)
  | string (parts : List StringPart)
  deriving DecidableEq, Repr

namespace JsonToken

/-- White space between tokens. -/
def isBlank (c : Char) : Bool := c == ' ' || c == '\n' || c == '\t' || c == '\r'

/-- The digits at the front of a text, of which there must be one, and the text behind them. -/
def digits? (text : List Char) : Option (List Char × List Char) :=
  if (text.takeWhile Char.isDigit).isEmpty then none
  else some (text.takeWhile Char.isDigit, text.dropWhile Char.isDigit)

/-- The fraction at the front of a text, if it begins with a point. -/
def fraction? : List Char → Option (Option (List Char) × List Char)
  | '.' :: text => (digits? text).map fun (digits, rest) => (some digits, rest)
  | text => some (none, text)

/-- The exponent at the front of a text, if it begins with its mark. -/
def exponent? : List Char → Option (Option (Bool × List Char) × List Char)
  | c :: text =>
    if c = 'e' || c = 'E' then
      let (negative, text) :=
        match text with
        | '-' :: text => (true, text)
        | '+' :: text => (false, text)
        | text => (false, text)
      (digits? text).map fun (digits, rest) => (some (negative, digits), rest)
    else some (none, c :: text)
  | [] => some (none, [])

/-- The number at the front of a text behind its sign.  Its first digit is no zero unless it is
the only one before the point. -/
def number? (negative : Bool) (text : List Char) : Option (JsonToken × List Char) := do
  let (whole, text) ← digits? text
  if whole.head? = some '0' && 1 < whole.length then none
  else do
    let (fraction?, text) ← fraction? text
    let (exponent?, text) ← exponent? text
    some (.number { negative, whole, fraction?, exponent? }, text)

/-- The value of a hexadecimal digit. -/
def hexDigit? (c : Char) : Option Nat :=
  if c.isDigit then some (c.toNat - '0'.toNat)
  else if 'a' ≤ c && c ≤ 'f' then some (c.toNat - 'a'.toNat + 10)
  else if 'A' ≤ c && c ≤ 'F' then some (c.toNat - 'A'.toNat + 10)
  else none

/-- The character a short escape stands for. -/
def shortEscape? : Char → Option Char
  | '"' => some '"'
  | '\\' => some '\\'
  | '/' => some '/'
  | 'b' => some '\x08'
  | 'f' => some '\x0c'
  | 'n' => some '\n'
  | 'r' => some '\r'
  | 't' => some '\t'
  | _ => none

/-- The parts of a string up to its closing quotation mark, and the text behind it. -/
def parts? : List Char → Option (List StringPart × List Char)
  | [] => none
  | '"' :: text => some ([], text)
  | '\\' :: 'u' :: a :: b :: c :: d :: text =>
    match hexDigit? a, hexDigit? b, hexDigit? c, hexDigit? d with
    | some a, some b, some c, some d =>
      (parts? text).map fun (parts, rest) =>
        (.unit (((a * 16 + b) * 16 + c) * 16 + d) :: parts, rest)
    | _, _, _, _ => none
  | '\\' :: e :: text =>
    match shortEscape? e with
    | some c => (parts? text).map fun (parts, rest) => (.char c :: parts, rest)
    | none => none
  | c :: text =>
    if c = '\\' || c.toNat < 0x20 then none
    else (parts? text).map fun (parts, rest) => (.char c :: parts, rest)

/-- The first token of a text that does not begin with white space, and the text behind it. -/
def token? (c : Char) (text : List Char) : Option (JsonToken × List Char) :=
  match c with
  | '[' => some (.openArray, text)
  | ']' => some (.closeArray, text)
  | '\x7b' => some (.openObject, text)
  | '\x7d' => some (.closeObject, text)
  | ',' => some (.comma, text)
  | ':' => some (.colon, text)
  | '"' => (parts? text).map fun (parts, rest) => (.string parts, rest)
  | '-' => number? true text
  | 'n' => if ['u', 'l', 'l'].isPrefixOf text then some (.null, text.drop 3) else none
  | 't' => if ['r', 'u', 'e'].isPrefixOf text then some (.bool true, text.drop 3) else none
  | 'f' => if ['a', 'l', 's', 'e'].isPrefixOf text then some (.bool false, text.drop 4) else none
  | c => number? false (c :: text)

/-! ## Every token leaves a shorter text -/

theorem length_digits? {text digits rest} (h : digits? text = some (digits, rest)) :
    rest.length < text.length := by
  unfold digits? at h
  split at h
  · cases h
  · rename_i hd
    cases h
    have happ := congrArg List.length (List.takeWhile_append_dropWhile (p := Char.isDigit) (l := text))
    have hpos : 0 < (text.takeWhile Char.isDigit).length := by
      rw [List.length_pos_iff]; simpa using hd
    rw [List.length_append] at happ
    omega

theorem length_fraction? {text fraction rest} (h : fraction? text = some (fraction, rest)) :
    rest.length ≤ text.length := by
  unfold fraction? at h
  split at h
  · obtain ⟨⟨d, r⟩, hd, he⟩ := Option.map_eq_some_iff.1 h
    cases he
    have := length_digits? hd
    simp only [List.length_cons]
    omega
  · cases h; exact Nat.le_refl _

theorem length_exponent? {text exponent rest} (h : exponent? text = some (exponent, rest)) :
    rest.length ≤ text.length := by
  unfold exponent? at h
  split at h
  · split at h
    · obtain ⟨⟨d, r⟩, hd, he⟩ := Option.map_eq_some_iff.1 h
      cases he
      have := length_digits? hd
      split at this <;> simp only [List.length_cons] at this ⊢ <;> omega
    · cases h; exact Nat.le_refl _
  · cases h; exact Nat.le_refl _

theorem length_number? {negative text token rest}
    (h : number? negative text = some (token, rest)) : rest.length < text.length := by
  unfold number? at h
  obtain ⟨⟨whole, t₁⟩, h₁, h⟩ := Option.bind_eq_some_iff.1 h
  dsimp only at h
  split at h
  · cases h
  · obtain ⟨⟨f, t₂⟩, h₂, h⟩ := Option.bind_eq_some_iff.1 h
    obtain ⟨⟨e, t₃⟩, h₃, h⟩ := Option.bind_eq_some_iff.1 h
    cases h
    have := length_digits? h₁
    have := length_fraction? h₂
    have := length_exponent? h₃
    dsimp only at *
    omega

theorem length_parts? {text parts rest} (h : parts? text = some (parts, rest)) :
    rest.length < text.length := by
  fun_induction parts? text generalizing parts with
  | case1 => cases h
  | case2 => cases h; simp
  | case3 a b c d text _ _ _ _ _ _ _ _ ih =>
    obtain ⟨⟨p, r⟩, hp, he⟩ := Option.map_eq_some_iff.1 h
    cases he
    have := ih hp
    simp only [List.length_cons]
    omega
  | case4 => cases h
  | case5 _ _ _ _ _ ih =>
    obtain ⟨⟨p, r⟩, hp, he⟩ := Option.map_eq_some_iff.1 h
    cases he
    have := ih hp
    simp only [List.length_cons]
    omega
  | case6 => cases h
  | case7 => cases h
  | case8 _ _ _ _ _ _ ih =>
    obtain ⟨⟨p, r⟩, hp, he⟩ := Option.map_eq_some_iff.1 h
    cases he
    have := ih hp
    simp only [List.length_cons]
    omega

theorem length_token? {c text token rest} (h : token? c text = some (token, rest)) :
    rest.length < (c :: text).length := by
  unfold token? at h
  split at h
  case h_7 =>
    obtain ⟨⟨p, r⟩, hp, he⟩ := Option.map_eq_some_iff.1 h
    cases he
    have := length_parts? hp
    simp only [List.length_cons]
    omega
  case h_8 =>
    have := length_number? h
    simp only [List.length_cons]
    omega
  case h_12 => exact length_number? h
  all_goals first
    | (cases h; simp)
    | (split at h
       · cases h; simp only [List.length_drop, List.length_cons]; omega
       · cases h)

/-- **The tokens of a text**, white space left out. -/
def tokens? (text : List Char) : Option (List JsonToken) :=
  match text with
  | [] => some []
  | c :: rest =>
    if isBlank c then tokens? rest
    else
      match _h : token? c rest with
      | none => none
      | some (token, rest') => (tokens? rest').map (token :: ·)
termination_by text.length
decreasing_by
  · simp
  · exact length_token? _h

end JsonToken

end GraphPath
