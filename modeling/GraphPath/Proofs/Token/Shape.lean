import GraphPath.Pattern
import GraphPath.Proofs.Token.Joined

/-! # The shape of token trees

Not every tree of tokens comes out of a text.  A row of steps has no container in it that
could be spliced or is a mere word, so that only calls and computed keys are left; a
collection has at least two members, none of which is a collection itself; a modified word is
a word, and has a modifier or a wildcard (`Token.isStep`, `Token.isMember`).  And no container
stands inside more than the limit allows (`Token.depth`).

**Every text that is read gives a tree of this shape** (`tokenize_shape`), under any grammar.
The tokens reach the tree by way of a draft, whose tokens and members have it at any time
(`Draft.Sound`).  That a collection is never closed with a single member is the one thing for
which the text matters: where there is only one, something is awaited that will bring another
(`Draft.Awaits`), and a collection separator that follows may be what does so.
-/

namespace GraphPath

/-! ## Shapes -/

/-- Whether a word may be called modified: it is one, and has a modifier or a wildcard. -/
def Token.isModified (text : String) (modifiers : Modifiers) : Bool :=
  text != "" && (!modifiers.isEmpty || Pattern.isPattern text)

mutual

/-- Whether a token is a step of a path, and so are the tokens inside it. -/
def Token.isStep : Token → Bool
  | .word _ => true
  | .modified text modifiers => Token.isModified text modifiers
  | .container .call tree | .container .evalProperty tree => Token.areSteps tree
  | .container .property _ | .container .quote _ => false
  | .collection members => decide (2 ≤ members.length) && Token.areMembers members

/-- Whether a token is a member of a collection, and the tokens inside it are steps. -/
def Token.isMember : Token → Bool
  | .word _ => true
  | .modified text modifiers => Token.isModified text modifiers
  | .container .quote _ => false
  | .container .call tree | .container .evalProperty tree | .container .property tree =>
    Token.areSteps tree
  | .collection _ => false

/-- Whether all tokens of a row are steps. -/
def Token.areSteps : List Token → Bool
  | [] => true
  | token :: rest => token.isStep && Token.areSteps rest

/-- Whether all tokens of a row are members. -/
def Token.areMembers : List Token → Bool
  | [] => true
  | token :: rest => token.isMember && Token.areMembers rest

end

mutual

/-- How deep containers nest in a token. -/
def Token.depth : Token → Nat
  | .word _ | .modified _ _ => 0
  | .container _ tree => Token.depths tree + 1
  | .collection members => Token.depths members

/-- How deep containers nest in a row of tokens. -/
def Token.depths : List Token → Nat
  | [] => 0
  | token :: rest => max token.depth (Token.depths rest)

end

namespace Token
variable {tokens : List Token} {limit : Nat}

theorem areSteps_iff : areSteps tokens = true ↔ ∀ token ∈ tokens, token.isStep = true := by
  induction tokens with
  | nil => simp [areSteps]
  | cons token rest ih => simp [areSteps, ih]

theorem areMembers_iff : areMembers tokens = true ↔ ∀ token ∈ tokens, token.isMember = true := by
  induction tokens with
  | nil => simp [areMembers]
  | cons token rest ih => simp [areMembers, ih]

theorem depths_le_iff : depths tokens ≤ limit ↔ ∀ token ∈ tokens, token.depth ≤ limit := by
  induction tokens with
  | nil => simp [depths]
  | cons token rest ih => rw [depths, Nat.max_le, List.forall_mem_cons, ih]

/-- **A step with containers only so deep.** -/
def StepWithin (limit : Nat) (token : Token) : Prop := token.isStep = true ∧ token.depth ≤ limit

/-- **A member with containers only so deep.** -/
def MemberWithin (limit : Nat) (token : Token) : Prop :=
  token.isMember = true ∧ token.depth ≤ limit

theorem areSteps_and_depths_le_iff :
    (areSteps tokens = true ∧ depths tokens ≤ limit) ↔
      ∀ token ∈ tokens, token.StepWithin limit := by
  rw [areSteps_iff, depths_le_iff]
  exact ⟨fun h token htoken => ⟨h.1 token htoken, h.2 token htoken⟩,
    fun h => ⟨fun token htoken => (h token htoken).1, fun token htoken => (h token htoken).2⟩⟩

/-- Two members or more make a collection. -/
theorem stepWithin_collection (hlength : 2 ≤ tokens.length)
    (hmembers : ∀ token ∈ tokens, token.MemberWithin limit) :
    (collection tokens).StepWithin limit := by
  refine ⟨?_, ?_⟩
  · rw [isStep, Bool.and_eq_true, decide_eq_true_iff, areMembers_iff]
    exact ⟨hlength, fun token htoken => (hmembers token htoken).1⟩
  · rw [depth, depths_le_iff]
    exact fun token htoken => (hmembers token htoken).2

theorem StepWithin.mono {token : Token} {limit' : Nat} (h : token.StepWithin limit)
    (hle : limit ≤ limit') : token.StepWithin limit' := ⟨h.1, Nat.le_trans h.2 hle⟩

/-- Steps in a container make a member, but in quotes, which hold a word. -/
theorem memberWithin_container {role : ContainerRole} (hquote : role ≠ .quote)
    (htree : ∀ token ∈ tokens, token.StepWithin limit) :
    (container role tokens).MemberWithin (limit + 1) := by
  obtain ⟨hsteps, hdepths⟩ := areSteps_and_depths_le_iff.mpr htree
  refine ⟨?_, Nat.succ_le_succ hdepths⟩
  cases role with
  | quote => exact absurd rfl hquote
  | property | call | evalProperty => exact hsteps

/-- They make a step, if they are the arguments of a call or compute a key. -/
theorem stepWithin_container {role : ContainerRole} (hquote : role ≠ .quote)
    (hproperty : role ≠ .property) (htree : ∀ token ∈ tokens, token.StepWithin limit) :
    (container role tokens).StepWithin (limit + 1) := by
  obtain ⟨hsteps, hdepths⟩ := areSteps_and_depths_le_iff.mpr htree
  refine ⟨?_, Nat.succ_le_succ hdepths⟩
  cases role with
  | quote => exact absurd rfl hquote
  | property => exact absurd rfl hproperty
  | call | evalProperty => exact hsteps

end Token

/-! ## Drafts -/

namespace Draft
variable {d d' : Draft} {limit : Nat} {token : Token} {tree : TokenTree} {lexeme : Lexeme}

/-- **A draft in shape**: so are its tokens and its members, and the word has the wildcard that it
is known for. -/
structure Sound (limit : Nat) (d : Draft) : Prop where
  /-- Finished tokens are steps. -/
  tokens : ∀ token ∈ d.tokens, token.StepWithin limit
  /-- Members are members. -/
  members : ∀ token ∈ d.members, token.MemberWithin limit
  /-- The wildcard is in the word. -/
  patterned : d.patterned = true → wildcardChar ∈ d.word

/-- **A single member awaits another one**: a word has been begun, or has to follow, or a
separator does. -/
def Awaits (joins : Bool) (d : Draft) : Prop :=
  d.members.length = 1 →
    d.word ≠ [] ∨ d.modifiers.isEmpty = false ∨ (d.separated = true ∧ d.filled = false) ∨
      joins = true

theorem sound_empty (limit : Nat) : Sound limit {} := ⟨nofun, nofun, nofun⟩

theorem awaits_empty (joins : Bool) : Awaits joins {} := nofun

/-- The word at hand is a step and a member. -/
theorem Sound.wordToken (hd : d.Sound limit) (hword : d.word ≠ []) :
    d.wordToken.StepWithin limit ∧ d.wordToken.MemberWithin limit := by
  unfold Draft.wordToken
  split
  · exact ⟨⟨rfl, Nat.zero_le _⟩, rfl, Nat.zero_le _⟩
  · rename_i hmodified
    have htext : String.ofList d.word ≠ "" := fun h => hword (String.ofList_eq_empty_iff.mp h)
    have hshape : Token.isModified (String.ofList d.word) d.modifiers = true := by
      rw [Token.isModified, Bool.and_eq_true, bne_iff_ne, Bool.or_eq_true, Pattern.isPattern,
        String.toList_ofList, List.contains_iff_mem]
      refine ⟨htext, ?_⟩
      cases hmodifiers : d.modifiers.isEmpty with
      | false => exact Or.inl rfl
      | true =>
        refine Or.inr (hd.patterned ?_)
        simpa [hmodifiers] using hmodified
    exact ⟨⟨hshape, Nat.zero_le _⟩, hshape, Nat.zero_le _⟩

theorem Sound.taken (hd : d.Sound limit) : d.taken.Sound limit := ⟨hd.tokens, hd.members, nofun⟩

theorem Sound.file (hd : d.Sound limit) (hstep : token.StepWithin limit)
    (hmember : token.MemberWithin limit) : (d.file token).Sound limit := by
  unfold Draft.file
  split
  · exact { hd with tokens := by simpa using fun t ht => ht.elim (hd.tokens t) (· ▸ hstep) }
  · exact { hd with members := by simpa using fun t ht => ht.elim (hd.members t) (· ▸ hmember) }

/-- A collection is closed well unless it has a single member. -/
theorem Sound.closeCollection (hd : d.Sound limit) (hmembers : d.members.length ≠ 1) :
    d.closeCollection.Sound limit := by
  unfold Draft.closeCollection
  split
  · exact hd
  · rename_i hopen
    have hlength : 2 ≤ d.members.length := by
      have hne : d.members.length ≠ 0 := fun h => hopen (List.isEmpty_iff_length_eq_zero.mpr h)
      omega
    have hcollection := Token.stepWithin_collection hlength hd.members
    refine { hd with tokens := ?_, members := nofun }
    simpa using fun t ht => ht.elim (hd.tokens t) (· ▸ hcollection)

/-- A member is added to those that there are. -/
theorem Sound.concat (hd : d.Sound limit) (hmember : token.MemberWithin limit) :
    ({ d with members := d.members ++ [token] } : Draft).Sound limit :=
  { hd with members := by simpa using fun t ht => ht.elim (hd.members t) (· ▸ hmember) }

theorem Sound.fileWord (hd : d.Sound limit) (h : d.fileWord = .ok d') : d'.Sound limit := by
  unfold Draft.fileWord at h
  split at h
  · cases h
  · rename_i htake
    obtain ⟨-, -, -, rfl⟩ | ⟨-, hnone, -⟩ := takeWord_cases htake
    · cases h
      exact hd
    · cases hnone
  · rename_i htake
    obtain ⟨-, -, hnone, -⟩ | ⟨hword, hsome, rfl⟩ := takeWord_cases htake
    · cases hnone
    · cases hsome
      cases h
      obtain ⟨hstep, hmember⟩ := hd.wordToken hword
      exact hd.taken.file hstep hmember

/-- A collection that another member is filed into has two of them. -/
theorem length_members_file (hopen : d.members ≠ []) : (d.file token).members.length ≠ 1 := by
  unfold Draft.file
  rw [if_neg (by simpa using hopen)]
  have hpos : 0 < d.members.length := List.length_pos_iff.mpr hopen
  simp only [List.length_append, List.length_singleton]
  omega

theorem members_file (hclosed : d.members = []) : (d.file token).members = [] := by
  unfold Draft.file
  rw [if_pos (by simpa using hclosed)]
  exact hclosed

/-- **A container keeps a draft in shape**, if what is filed for it is. -/
theorem Sound.enclose {member : Token} {alone : List Token} (hd : d.Sound limit)
    (hmember : member.MemberWithin limit) (halone : ∀ token ∈ alone, token.StepWithin limit)
    (joins : Bool) :
    (d.enclose member alone joins).Sound limit ∧ (d.enclose member alone joins).Awaits joins := by
  unfold Draft.enclose
  have hadded := hd.concat hmember
  cases joins with
  | true =>
    exact ⟨⟨hadded.tokens, hadded.members, hadded.patterned⟩, fun _ => Or.inr (Or.inr (Or.inr rfl))⟩
  | false =>
    rw [if_neg Bool.false_ne_true]
    by_cases hopen : d.members = []
    · rw [if_pos (by simpa using hopen)]
      refine ⟨⟨?_, hd.members, hd.patterned⟩, fun hone => ?_⟩
      · exact fun t ht => (List.mem_append.mp ht).elim (hd.tokens t) (halone t)
      · rw [hopen] at hone
        cases hone
    · -- there was a member already, and the container is another one
      rw [if_neg (by simpa using hopen)]
      have hlength : (d.members ++ [member]).length ≠ 1 := by
        have hpos : 0 < d.members.length := List.length_pos_iff.mpr hopen
        rw [List.length_append, List.length_singleton]
        omega
      have hclosed := hadded.closeCollection hlength
      refine ⟨⟨hclosed.tokens, hclosed.members, hclosed.patterned⟩, fun hone => ?_⟩
      unfold Draft.closeCollection at hone
      simp at hone

/-- A word that is filed leaves a collection that can be closed. -/
theorem Sound.file_wordToken (hd : d.Sound limit) (hword : d.word ≠ []) :
    (d.taken.file d.wordToken).closeCollection.Sound limit := by
  obtain ⟨hstep, hmember⟩ := hd.wordToken hword
  refine (hd.taken.file hstep hmember).closeCollection ?_
  by_cases hopen : d.taken.members = []
  · rw [members_file hopen]
    exact Nat.zero_ne_one
  · exact length_members_file hopen

/-- Where nothing is awaited any more, there is not a single member. -/
theorem Awaits.length_ne_one {joins : Bool} (hawaits : d.Awaits joins) (hword : d.word = [])
    (hmodifiers : d.modifiers.isEmpty = true) (hsegment : d.separated = true → d.filled = true)
    (hjoins : joins ≠ true) : d.members.length ≠ 1 := by
  intro hone
  obtain hne | hmodified | ⟨hseparated, hempty⟩ | hjoin := hawaits hone
  · exact hne hword
  · rw [hmodifiers] at hmodified
    cases hmodified
  · rw [hsegment hseparated] at hempty
    cases hempty
  · exact hjoins hjoin

/-- **A separator keeps a draft in shape.**  If a single member awaited it, it is a collection
separator, and another member has to follow. -/
theorem Sound.separate {role : SeparatorRole} {joins : Bool} (hd : d.Sound limit)
    (hawaits : d.Awaits joins) (hrole : joins = true → role = .collection)
    (h : d.separate role = .ok d') (joins' : Bool) : d'.Sound limit ∧ d'.Awaits joins' := by
  unfold Draft.separate at h
  split at h
  · cases h
  rename_i word? taken htake
  obtain ⟨hword, hmodifiers, rfl, rfl⟩ | ⟨hword, rfl, rfl⟩ := takeWord_cases htake
  · -- no word: the segment is a container, which nothing but the separator can have followed
    split at h
    · cases h
    rename_i hsegment
    cases h
    refine ⟨?_, fun _ => Or.inr (Or.inr (Or.inl ⟨rfl, rfl⟩))⟩
    cases role with
    | collection => exact ⟨hd.tokens, hd.members, hd.patterned⟩
    | property =>
      have hfilled : taken.filled = true := by simpa using hsegment
      have hclosed := hd.closeCollection
        (hawaits.length_ne_one hword hmodifiers (fun _ => hfilled) fun hjoins => nomatch hrole hjoins)
      exact ⟨hclosed.tokens, hclosed.members, hclosed.patterned⟩
  · -- a word: it becomes a step, or one more member
    rw [if_neg (by simp)] at h
    cases h
    refine ⟨?_, fun _ => Or.inr (Or.inr (Or.inl ⟨rfl, rfl⟩))⟩
    cases role with
    | collection =>
      have hadded := hd.taken.concat (hd.wordToken hword).2
      exact ⟨hadded.tokens, hadded.members, hadded.patterned⟩
    | property =>
      have hfiled := hd.file_wordToken hword
      exact ⟨hfiled.tokens, hfiled.members, hfiled.patterned⟩

/-- **A lexeme other than a container keeps a draft in shape.** -/
theorem Sound.step {joins : Bool} (hd : d.Sound limit) (hawaits : d.Awaits joins)
    (hcontainer : ∀ role interior joins, lexeme ≠ .container role interior joins)
    (hopen : ∀ offset fault, lexeme ≠ .openEnd offset fault)
    (hrole : ∀ role, lexeme = .separator role → joins = true → role = .collection)
    (h : d.step lexeme = .ok d') (joins' : Bool) : d'.Sound limit ∧ d'.Awaits joins' := by
  cases lexeme with
  | letter c =>
    cases h
    refine ⟨⟨hd.tokens, hd.members, fun hpatterned => ?_⟩, fun _ => Or.inl (by simp [push])⟩
    exact List.mem_append_left _ (hd.patterned hpatterned)
  | wildcard =>
    cases h
    refine ⟨⟨hd.tokens, hd.members, fun _ => ?_⟩, fun _ => Or.inl (by simp [push])⟩
    exact List.mem_append_right _ (List.mem_singleton_self _)
  | modifier modifier =>
    cases h
    exact ⟨⟨hd.tokens, hd.members, hd.patterned⟩, fun _ =>
      Or.inr (Or.inl (Modifiers.isEmpty_add _ _))⟩
  | separator role => exact hd.separate hawaits (hrole role rfl) h joins'
  | container role interior joins => exact absurd rfl (hcontainer role interior joins)
  | openEnd offset fault => exact absurd rfl (hopen offset fault)
  | fault fault => cases h

/-- **What is left at the end of a text has the shape of steps.** -/
theorem Sound.finish (hd : d.Sound limit) (hawaits : d.Awaits false) (h : d.finish = .ok tree) :
    ∀ token ∈ tree, token.StepWithin limit := by
  unfold Draft.finish at h
  split at h
  · cases h
  · rename_i htake
    obtain ⟨-, -, hnone, -⟩ | ⟨hword, hsome, rfl⟩ := takeWord_cases htake
    · cases hnone
    · cases hsome
      cases h
      exact (hd.file_wordToken hword).tokens
  · rename_i kept htake
    obtain ⟨hword, hmodifiers, -, rfl⟩ | ⟨-, hnone, -⟩ := takeWord_cases htake
    · split at h
      · cases h
      · rename_i htrailing
        cases h
        have hsegment : kept.separated = true → kept.filled = true := by simpa using htrailing
        exact (hd.closeCollection
          (hawaits.length_ne_one hword hmodifiers hsegment Bool.false_ne_true)).tokens
    · cases hnone

end Draft

/-! ## Texts -/

namespace Grammar
variable {g : Grammar} {maxDepth level : Nat} {c : Char} {ahead interior rest text : List Char}
  {joins : Bool} {tree : TokenTree}

/-- Only a separator is read as one. -/
theorem separator?_of_lexeme {role : SeparatorRole}
    (h : g.lexeme c ahead = (.separator role, rest)) : g.separator? c = some role := by
  unfold lexeme at h
  repeat' split at h
  all_goals first
    | exact absurd h (containerLexeme_ne (by simp) (by simp))
    | cases h <;> assumption

/-- **The tokens of a text inside `level` containers**: steps, with no more containers in them than
the limit leaves. -/
def StepsAt (maxDepth level : Nat) (tree : TokenTree) : Prop :=
  level ≤ maxDepth ∧ ∀ token ∈ tree, token.StepWithin (maxDepth - level)

/-- What is filed for a container has the shape if its interior has. -/
theorem within_of_filing {role : ContainerRole} {filed : Token × List Token}
    (hinterior : ∀ tree, g.tokenizeAt maxDepth (level + 1) interior = .ok tree →
      StepsAt maxDepth (level + 1) tree)
    (h : g.filing maxDepth level role interior = .ok filed) :
    filed.1.MemberWithin (maxDepth - level) ∧
      ∀ token ∈ filed.2, token.StepWithin (maxDepth - level) := by
  have hread {file : TokenTree → Token × List Token}
      (h : (g.tokenizeAt maxDepth (level + 1) interior).map file = .ok filed) :
      ∃ tree, file tree = filed ∧ StepsAt maxDepth (level + 1) tree := by
    cases htree : g.tokenizeAt maxDepth (level + 1) interior with
    | error e =>
      rw [htree] at h
      cases h
    | ok tree =>
      rw [htree] at h
      exact ⟨tree, Except.ok.inj h, hinterior tree htree⟩
  unfold filing at h
  cases role with
  | quote =>
    cases h
    have hword : ∀ text, (Token.word text).StepWithin (maxDepth - level) :=
      fun _ => ⟨rfl, Nat.zero_le _⟩
    exact ⟨⟨rfl, Nat.zero_le _⟩, fun token htoken => List.mem_singleton.mp htoken ▸ hword _⟩
  | property =>
    obtain ⟨tree, rfl, hlevel, hsteps⟩ := hread h
    have hlimit : maxDepth - (level + 1) + 1 = maxDepth - level := by omega
    refine ⟨hlimit ▸ Token.memberWithin_container nofun hsteps, fun token htoken => ?_⟩
    exact (hsteps token htoken).mono (by omega)
  | call | evalProperty =>
    obtain ⟨tree, rfl, hlevel, hsteps⟩ := hread h
    have hlimit : maxDepth - (level + 1) + 1 = maxDepth - level := by omega
    refine ⟨hlimit ▸ Token.memberWithin_container nofun hsteps, fun token htoken => ?_⟩
    rw [List.mem_singleton.mp htoken]
    exact hlimit ▸ Token.stepWithin_container nofun nofun hsteps

/-- **What is read from a draft in shape has the shape**, if the interiors of containers have. -/
theorem Scans.shape {d : Draft}
    (hinterior : ∀ interior tree, g.tokenizeAt maxDepth (level + 1) interior = .ok tree →
      StepsAt maxDepth (level + 1) tree)
    (h : g.Scans maxDepth level d text tree) (hd : d.Sound (maxDepth - level))
    (hawaits : d.Awaits (g.joins text)) : ∀ token ∈ tree, token.StepWithin (maxDepth - level) := by
  induction h with
  | done hfinish => exact hd.finish hawaits hfinish
  | @step d d' c ahead rest lexeme tree hlexeme hcontainer hopen hstep _ ih =>
    have hrole : ∀ role, lexeme = .separator role → g.joins (c :: ahead) = true →
        role = .collection := by
      rintro role rfl hjoins
      simpa [joins, separator?_of_lexeme hlexeme] using hjoins
    obtain ⟨hd', hawaits'⟩ := hd.step hawaits hcontainer hopen hrole hstep _
    exact ih hd' hawaits'
  | container hlexeme hword hfiling _ ih =>
    obtain ⟨hmember, halone⟩ := within_of_filing (hinterior _) hfiling
    obtain ⟨hd', hawaits'⟩ := (hd.fileWord hword).enclose hmember halone _
    -- whether the container joins another member is seen from the text behind it
    obtain ⟨closer, -, rfl⟩ := exists_capture_of_lexeme hlexeme
    exact ih hd' hawaits'

/-- The recursion goes down the levels, of which only so many are left. -/
theorem stepsAt_of_tokenizeAt (h : g.tokenizeAt maxDepth level text = .ok tree) :
    StepsAt maxDepth level tree := by
  induction hleft : maxDepth + 1 - level generalizing level text tree with
  | zero =>
    rw [tokenizeAt, if_pos (by omega)] at h
    cases h
  | succ left ih =>
    have hlevel : ¬ maxDepth < level := by omega
    rw [tokenizeAt, if_neg hlevel, scan_eq_ok_iff] at h
    have hinterior (interior : List Char) (tree : TokenTree)
        (hread : g.tokenizeAt maxDepth (level + 1) interior = .ok tree) :
        StepsAt maxDepth (level + 1) tree := ih hread (by omega)
    exact ⟨Nat.le_of_not_lt hlevel, h.shape hinterior (Draft.sound_empty _) (Draft.awaits_empty _)⟩

/-- **The shape of every tree that is read**, under any grammar: at every depth there are only
words, modified words, calls, computed keys and collections; a collection has at least two members,
none of them a collection or in quotes; a modified word is a word, with a modifier or a wildcard;
and containers nest no deeper than allowed. -/
theorem tokenize_shape {path : String} (h : g.tokenize maxDepth path = .ok tree) :
    Token.areSteps tree = true ∧ Token.depths tree ≤ maxDepth :=
  Token.areSteps_and_depths_le_iff.mpr (stepsAt_of_tokenizeAt h).2

/-- A path that is as deep as allowed: arguments in a call, one of them a path of its own, behind
brackets that are not there any more, and a computed key in quotes. -/
theorem tokenize_shape_nested :
    let tree := [Token.word "f", .container .call [.collection [.modified "x" { root := 1 },
        .container .property [.word "y", .modified "*" {}]]], .container .evalProperty [.word "a b"]]
    default.tokenize 2 "[f](~x,[y.*])\x7b'a b'\x7d" = .ok tree ∧
      Token.areSteps tree = true ∧ Token.depths tree ≤ 2 := by
  intro tree
  have hread : default.tokenize 2 "[f](~x,[y.*])\x7b'a b'\x7d" = .ok tree := by cbv
  exact ⟨hread, tokenize_shape hread⟩

end Grammar

end GraphPath
