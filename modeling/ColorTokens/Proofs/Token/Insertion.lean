import ColorTokens.Proofs.Token.Reading
import ColorTokens.Token.Insertion

/-! Minted tokens are read back from the sheet they were inserted into. What is written keeps the
block's braces where they were, ends the block's last declaration before it begins another, and
leaves every earlier declaration in its place. -/

set_option autoImplicit false

namespace ColorTokens

open ColorTokens.Text
open ColorTokens.Source

/-- A token that a reader finds on a line of its own: the colour is its own canonical form and
nothing in it ends a value. -/
structure Legible (identifier color : String) : Prop where
  token : IsCustomProperty identifier.toList
  fixed : Color.normalize? color = some color
  values : ∀ c ∈ color.toList, isValueChar c = true

/-- A token that can be written on a line of its own: the colour is its own canonical form and
holds nothing that would end a value or a block, or open a quoted text. -/
structure Writable (identifier color : String) : Prop where
  token : IsCustomProperty identifier.toList
  fixed : Color.normalize? color = some color
  bare : ∀ c ∈ color.toList, c ∉ [';', '{', '}', '\'', '"', '\x60']

section Tokens

variable {identifier color : String}

theorem Legible.canonical (legible : Legible identifier color) :
    Color.canonical? color.toList = some color.toList := by
  obtain ⟨text, made, same⟩ := Option.map_eq_some_iff.mp legible.fixed
  rw [made, ← same, String.toList_ofList]

theorem Legible.colorOf? (legible : Legible identifier color) :
    ColorIndex.colorOf? ⟨identifier, color⟩ = some color := by
  have shape := Color.isCanonical_of_canonical? legible.canonical
  rw [ColorIndex.colorOf?, Color.not_holds_marker shape, Color.normalizeValue?,
    Color.canonicalValue?_of_fixed legible.canonical]
  simp

theorem Writable.legible (writable : Writable identifier color) : Legible identifier color where
  token := writable.token
  fixed := writable.fixed
  values := by
    intro c member
    have bare := writable.bare c member
    simp only [List.mem_cons, List.not_mem_nil, or_false, not_or] at bare
    simp [isValueChar, bare]

theorem Writable.walk_color (writable : Writable identifier color) {depth : Nat} :
    walk (depth, .code) color.toList = some (depth, .code) := by
  have shape := Color.isCanonical_of_canonical? writable.legible.canonical
  refine Color.walk_canonical shape fun c member => ?_
  have bare := writable.bare c member
  simp only [List.mem_cons, List.not_mem_nil, or_false, not_or] at bare
  simp [isQuote, bare]

end Tokens

namespace MintedTokens

section Lines

theorem toList_line (identifier color : String) :
    (line identifier color).toList = ' ' :: ' ' ::
      (identifier.toList ++ ':' :: ' ' :: (color.toList ++ [';', '\n'])) := by
  simp [line]

def linesOf (entries : List (String × String)) : List Char :=
  entries.flatMap fun entry => (line entry.1 entry.2).toList

theorem toList_lines (minted : MintedTokens) : minted.lines.toList = linesOf minted.toList := by
  simp [lines, linesOf, List.flatMap_map]

theorem linesOf_cons (entry : String × String) (entries : List (String × String)) :
    linesOf (entry :: entries) = (line entry.1 entry.2).toList ++ linesOf entries := rfl

variable {identifier color : String} {entries : List (String × String)}

theorem walk_line (writable : Writable identifier color) (depth : Nat) :
    walk (depth, .code) (line identifier color).toList = some (depth, .code) := by
  have name : walk (depth, .code) (' ' :: ' ' :: (identifier.toList ++ [':', ' '])) =
      some (depth, .code) := by
    refine walk_plain fun c member => ?_
    simp only [List.mem_cons, List.mem_append, List.not_mem_nil, or_false] at member
    rcases member with rfl | rfl | inside | rfl | rfl
    · decide
    · decide
    · exact isPlain_of_class (by decide) (writable.token.properties c inside)
    · decide
    · decide
  have whole : (line identifier color).toList =
      ' ' :: ' ' :: (identifier.toList ++ [':', ' ']) ++ (color.toList ++ [';', '\n']) := by
    rw [toList_line]
    simp
  rw [whole, walk_append, name, Option.bind_some, walk_append, writable.walk_color,
    Option.bind_some]
  exact walk_plain (List.all_eq_true.mp (by decide))

theorem walk_linesOf (writable : ∀ entry ∈ entries, Writable entry.1 entry.2) (depth : Nat) :
    walk (depth, .code) (linesOf entries) = some (depth, .code) := by
  induction entries with
  | nil => rfl
  | cons entry entries ih =>
    rw [linesOf_cons, walk_append, walk_line (writable entry List.mem_cons_self), Option.bind_some,
      ih fun other member => writable other (List.mem_cons_of_mem entry member)]

theorem declares_line (legible : Legible identifier color) (rest : List Char) :
    DeclaresToken (identifier.toList ++ ':' :: ' ' :: (color.toList ++ ';' :: rest))
      identifier.toList [] (' ' :: color.toList) [';'] rest where
  whole := by simp
  token := legible.token
  blanks := by simp
  filled := by simp
  values := List.forall_mem_cons.mpr ⟨by decide, legible.values⟩
  ends := .inr (.inl rfl)

open Recognizer in
theorem reads_line (legible : Legible identifier color) {rest : List Char}
    {tokens : List TokenDeclaration} (others : Reads tokenDeclaration rest tokens) :
    Reads tokenDeclaration ((line identifier color).toList ++ rest)
      (⟨identifier, color⟩ :: tokens) := by
  have trimmed : DeclaresToken.read identifier.toList (' ' :: color.toList) =
      ⟨identifier, color⟩ := by
    obtain ⟨first, last⟩ := Color.dark_ends (Color.isCanonical_of_canonical? legible.canonical)
    rw [DeclaresToken.read, trim_cons_blank (by decide), trim_of_dark first last,
      String.ofList_toList, String.ofList_toList]
  have whole : (line identifier color).toList ++ rest = ' ' :: ' ' ::
      ((identifier.toList ++ ':' :: ' ' :: (color.toList ++ [';'])) ++ '\n' :: rest) := by
    rw [toList_line]
    simp
  rw [whole]
  refine .pass (fun _ => tokenDeclaration_cons (by decide) _) ?_
  refine .pass (fun _ => tokenDeclaration_cons (by decide) _) ?_
  refine .take (by simp) (fun before => ?_)
    (.pass (fun _ => tokenDeclaration_cons (by decide) _) others)
  have length : (identifier.toList ++ ':' :: ' ' :: (color.toList ++ [';'])).length =
      identifier.toList.length + (([] : List Char).length + 1) + (' ' :: color.toList).length +
        [';'].length := by
    simp
    omega
  have joined : (identifier.toList ++ ':' :: ' ' :: (color.toList ++ [';'])) ++ '\n' :: rest =
      identifier.toList ++ ':' :: ' ' :: (color.toList ++ ';' :: '\n' :: rest) := by
    simp
  rw [joined, (declares_line legible ('\n' :: rest)).tokenDeclaration_eq before, length, trimmed]

open Recognizer in
theorem reads_linesOf (legible : ∀ entry ∈ entries, Legible entry.1 entry.2) {rest : List Char}
    {tokens : List TokenDeclaration} (others : Reads tokenDeclaration rest tokens) :
    Reads tokenDeclaration (linesOf entries ++ rest)
      (entries.map (fun entry => ⟨entry.1, entry.2⟩) ++ tokens) := by
  induction entries with
  | nil => exact others
  | cons entry entries ih =>
    rw [linesOf_cons, List.append_assoc]
    exact reads_line (legible entry List.mem_cons_self)
      (ih fun other member => legible other (List.mem_cons_of_mem entry member))

theorem colorsOf_legible (legible : ∀ entry ∈ entries, Legible entry.1 entry.2) :
    colorsOf (entries.map fun entry => ⟨entry.1, entry.2⟩) = entries.map Prod.swap := by
  rw [colorsOf, List.filterMap_map, ← List.filterMap_eq_map]
  refine List.filterMap_congr fun entry member => ?_
  simp only [Function.comp_apply, (legible entry member).colorOf?, Option.map_some]
  rfl

theorem blockColors_linesOf (legible : ∀ entry ∈ entries, Legible entry.1 entry.2)
    (rest : List Char) :
    blockColors (linesOf entries ++ rest) = entries.map Prod.swap ++ blockColors rest := by
  rw [blockColors_eq (reads_linesOf legible (reads_tokens rest)), colorsOf_append,
    colorsOf_legible legible]
  rfl

theorem closing_notMem_linesOf (legible : ∀ entry ∈ entries, Legible entry.1 entry.2) :
    '}' ∉ linesOf entries := by
  intro member
  obtain ⟨entry, listed, inside⟩ := List.mem_flatMap.mp member
  simp only [toList_line, List.mem_cons, List.mem_append, List.not_mem_nil, or_false,
    Char.reduceEq, false_or] at inside
  rcases inside with named | valued
  · exact absurd ((legible entry listed).token.properties _ named) (by decide)
  · exact absurd ((legible entry listed).values _ valued) (by decide)

theorem declaredIn_linesOf (tokens : ∀ entry ∈ entries, IsCustomProperty entry.1.toList)
    {entry : String × String} (member : entry ∈ entries) :
    DeclaredIn (linesOf entries) entry.1.toList := by
  induction entries with
  | nil => cases member
  | cons first entries ih =>
    rw [linesOf_cons, toList_line]
    rcases List.mem_cons.mp member with rfl | later
    · have token := tokens entry List.mem_cons_self
      exact ((DeclaredIn.self token).behind (by decide) [' ']).append (linesOf entries)
    · have declared :=
        ih (fun other member => tokens other (List.mem_cons_of_mem first member)) later
      have behind := declared.behind (c := '\n') (by decide)
        (' ' :: ' ' :: (first.1.toList ++ ':' :: ' ' :: (first.2.toList ++ [';'])))
      simpa using behind

end Lines

section Reopening

/-- What follows the last declaration of a block once the block is ready for one more. -/
structure Follows (body stop gap : List Char) : Prop where
  stops : stop = [] ∨ stop = [';']
  ended : ∀ c ∈ (body ++ stop).getLast?, isValueChar c = false
  blanks : ∀ c ∈ gap, isBlank c = true

theorem not_isSpaceOrTab {c : Char} (dark : isBlank c = false) : isSpaceOrTab c = false := by
  by_contra space
  simp only [isSpaceOrTab, Bool.not_eq_false, Bool.or_eq_true, beq_iff_eq] at space
  rcases space with rfl | rfl <;> exact absurd dark (by decide)

theorem exists_withNewline {text gap : List Char} (dark : ∀ c ∈ text.getLast?, isBlank c = false)
    (blanks : ∀ c ∈ gap, isBlank c = true) :
    ∃ gap', withNewline (text ++ gap) = text ++ (gap' ++ ['\n']) ∧
      ∀ c ∈ gap', isBlank c = true := by
  unfold withNewline
  by_cases last : ((text ++ gap).getLast? == some '\n') = true
  · rw [if_pos last]
    rcases List.eq_nil_or_concat' gap with rfl | ⟨gap', d, rfl⟩
    · rw [List.append_nil, beq_iff_eq] at last
      exact absurd (dark '\n' last) (by decide)
    · rw [← List.append_assoc, List.getLast?_concat, beq_iff_eq] at last
      obtain rfl : d = '\n' := by simpa using last
      exact ⟨gap', rfl, fun c member => blanks c (List.mem_append_left _ member)⟩
  · rw [if_neg last, List.append_assoc]
    exact ⟨gap, rfl, blanks⟩

theorem ended_of_terminated {head body : List Char}
    (terminated : ¬ (decide (byteLength head + 1 < byteLength (head ++ '{' :: body)) &&
      (head ++ '{' :: body).getLast?.any fun c => c != ';' && c != '{') = true) :
    ∀ c ∈ body.getLast?, isValueChar c = false := by
  intro c last
  have longer : byteLength head + 1 < byteLength (head ++ '{' :: body) := by
    have positive := byteLength_pos (List.ne_nil_of_mem (List.mem_of_getLast? last))
    have brace : '{'.utf8Size = 1 := rfl
    rw [byteLength_append, byteLength_cons]
    omega
  have last' : (head ++ '{' :: body).getLast? = some c := by
    rw [List.getLast?_append_of_ne_nil head (by simp), List.getLast?_cons, last]
    rfl
  simp only [longer, last', decide_true, Bool.true_and, Option.any_some, Bool.and_eq_true,
    bne_iff_ne, not_and, ne_eq, not_not] at terminated
  rw [isValueChar_eq_false_iff]
  by_cases semicolon : c = ';'
  · exact .inl semicolon
  · exact .inr (.inl (terminated semicolon))

theorem dark_opened (head inner : List Char) :
    ∀ c ∈ (head ++ '{' :: trimEnd inner).getLast?, isBlank c = false := by
  obtain ⟨-, -, -, dark⟩ := exists_dropWhileEnd isBlank inner
  rw [← trimEnd] at dark
  cases shape : trimEnd inner with
  | nil =>
    simp
    decide
  | cons c body =>
    rw [shape] at dark
    simpa using dark

theorem exists_openedHead (head inner tail : List Char) (closing : Nat) :
    ∃ stop gap, openedHead ⟨byteLength head, closing, head ++ '{' :: inner, inner, tail⟩ =
      head ++ '{' :: (trimEnd inner ++ (stop ++ (gap ++ ['\n']))) ∧
      Follows (trimEnd inner) stop gap := by
  obtain ⟨gap, parted, blanks, -⟩ := exists_dropWhileEnd isBlank inner
  rw [← trimEnd] at parted
  have dark := dark_opened head inner
  have whole : head ++ '{' :: inner = (head ++ '{' :: trimEnd inner) ++ gap := by
    rw [List.append_assoc, List.cons_append, ← parted]
  have trimmed : trimEnd (head ++ '{' :: inner) = head ++ '{' :: trimEnd inner := by
    rw [whole]
    exact dropWhileEnd_run blanks dark
  have behind : (head ++ '{' :: inner).drop (head ++ '{' :: trimEnd inner).length = gap := by
    rw [whole, List.drop_left]
  -- Neither the brace nor the last declaration is taken away with the indentation.
  have indented : dropWhileEnd isSpaceOrTab (head ++ '{' :: inner) =
      (head ++ '{' :: trimEnd inner) ++ dropWhileEnd isSpaceOrTab gap := by
    rw [whole]
    exact dropWhileEnd_append (fun c last => not_isSpaceOrTab (dark c last)) gap
  have shortened : ∀ c ∈ dropWhileEnd isSpaceOrTab gap, isBlank c = true := by
    obtain ⟨run, parted', -⟩ := exists_dropWhileEnd isSpaceOrTab gap
    intro c member
    exact blanks c (parted' ▸ List.mem_append_left run member)
  simp only [openedHead, trimmed, behind, indented]
  split
  case isTrue unterminated =>
    have closed : ∀ c ∈ (head ++ '{' :: (trimEnd inner ++ [';'])).getLast?, isBlank c = false := by
      rw [← List.cons_append, ← List.append_assoc, List.getLast?_concat]
      simp
      decide
    obtain ⟨gap', opened, blanks'⟩ := exists_withNewline closed shortened
    refine ⟨[';'], gap', ?_, .inr rfl, ?_, blanks'⟩
    · simpa using opened
    · rw [List.getLast?_concat]
      simp
      decide
  case isFalse terminated =>
    obtain ⟨gap', opened, blanks'⟩ := exists_withNewline dark shortened
    refine ⟨[], gap', ?_, .inl rfl, fun c last => ?_, blanks'⟩
    · simpa using opened
    · rw [List.append_nil] at last
      exact ended_of_terminated terminated c last

theorem walk_reopened {inner stop gap : List Char} {phase : Phase}
    (walked : walk (1, .code) inner = some (1, phase)) (code : phase.isCode = true)
    (follows : Follows (trimEnd inner) stop gap) :
    walk (1, .code) (trimEnd inner ++ (stop ++ (gap ++ ['\n']))) = some (1, .code) := by
  obtain ⟨blanks, parted, all, -⟩ := exists_dropWhileEnd isBlank inner
  rw [parted, walk_append, Option.bind_eq_some_iff] at walked
  obtain ⟨⟨depth, phase'⟩, first, second⟩ := walked
  -- Only blanks stood between the body and the brace that closed it, so a line break behind the
  -- body leads back to code.
  have start : Phase.code.Proper := trivial
  obtain ⟨rfl, settled⟩ :=
    settles_of_walk_blanks all (start.walk first) second (Phase.settles_of_isCode code)
  have kinds : ∀ c ∈ stop ++ gap, c = ';' ∨ isBlank c = true := by
    intro c member
    rcases List.mem_append.mp member with inside | inside
    · rcases follows.stops with rfl | rfl
      · cases inside
      · exact .inl (List.mem_singleton.mp inside)
    · exact .inr (follows.blanks c inside)
  rw [trimEnd, walk_append, first, Option.bind_some, ← List.append_assoc]
  refine walk_newline settled (fun c member => ?_) (fun c member => ?_)
  · rcases kinds c member with rfl | blank
    · decide
    · exact isPlain_of_isBlank blank
  · rintro rfl
    exact absurd (kinds '*' member) (by decide)

theorem blockColors_reopened {inner stop gap : List Char}
    (follows : Follows (trimEnd inner) stop gap) (back : List Char) :
    blockColors (trimEnd inner ++ (stop ++ (gap ++ ['\n'])) ++ back) =
      blockColors inner ++ blockColors back := by
  obtain ⟨blanks, parted, all, -⟩ := exists_dropWhileEnd isBlank inner
  have stopped : blockColors (trimEnd inner ++ stop) = blockColors (trimEnd inner) := by
    rcases follows.stops with rfl | rfl
    · rw [List.append_nil]
    · exact blockColors_pad (.inl rfl) _
  have spaced : blockColors ((gap ++ ['\n']) ++ back) = blockColors back := by
    refine blockColors_gap (fun c member => ?_) back
    rcases List.mem_append.mp member with inside | inside
    · exact follows.blanks c inside
    · rw [List.mem_singleton.mp inside]
      decide
  calc blockColors (trimEnd inner ++ (stop ++ (gap ++ ['\n'])) ++ back)
      = blockColors ((trimEnd inner ++ stop) ++ ((gap ++ ['\n']) ++ back)) := by simp
    _ = blockColors (trimEnd inner) ++ blockColors back := by
      rw [blockColors_append follows.ended, stopped, spaced]
    _ = blockColors (trimEnd inner ++ blanks) ++ blockColors back := by rw [blockColors_blanks all]
    _ = blockColors inner ++ blockColors back := by rw [← trimEnd] at parted; rw [← parted]

end Reopening

section Insertion

/-- What stands before and behind lines written into a sheet. The lines begin on one of their own,
and whatever they are, they hide nothing that the sheet declares. -/
structure Frame (sheet front back : List Char) : Prop where
  newline : ∃ above, front = above ++ ['\n']
  kept : ∀ lines property, DeclaredIn sheet property → DeclaredIn (front ++ lines ++ back) property

/-- A block that is open for more: its brace comes behind the sheet's first root selector, and
what it holds is in code again and gives the colours of the sheet. -/
structure Reopened (sheet head body : List Char) : Prop where
  opens : ∃ front behind, Opens head front behind
  walked : walk (1, .code) body = some (1, .code)
  colors : ∀ more, blockColors (body ++ more) = sheetColors sheet ++ blockColors more

/-- A sheet that reads as another one with more tokens behind its own. -/
structure Extended (sheet sheet' : List Char) (entries : List (String × String)) : Prop where
  colors : sheetColors sheet' = sheetColors sheet ++ entries.map Prod.swap
  kept : ∀ property, DeclaredIn sheet property → DeclaredIn sheet' property
  added : ∀ entry ∈ entries, DeclaredIn sheet' entry.1.toList

section Texts

variable {sheet front back head body : List Char} {entries : List (String × String)}

theorem Frame.added (frame : Frame sheet front back)
    (tokens : ∀ entry ∈ entries, IsCustomProperty entry.1.toList) {entry : String × String}
    (member : entry ∈ entries) :
    DeclaredIn (front ++ linesOf entries ++ back) entry.1.toList := by
  obtain ⟨above, rfl⟩ := frame.newline
  have line := ((declaredIn_linesOf tokens member).append back).behind (c := '\n') (by decide) above
  simpa using line

theorem Reopened.exists_block (reopened : Reopened sheet head body)
    (writable : ∀ entry ∈ entries, Writable entry.1 entry.2) :
    ∃ block, rootBlock? (head ++ '{' :: body ++ linesOf entries ++ '}' :: back) = some block ∧
      block.inner = body ++ linesOf entries := by
  obtain ⟨front, behind, opens⟩ := reopened.opens
  have walked : walk (1, .code) (body ++ linesOf entries) = some (1, .code) := by
    rw [walk_append, reopened.walked, Option.bind_some, walk_linesOf writable]
  have whole : head ++ '{' :: body ++ linesOf entries ++ '}' :: back =
      head ++ '{' :: (body ++ linesOf entries ++ '}' :: back) := by
    simp
  exact ⟨_, rootBlock?_eq_some_iff.mpr
    ⟨head, front, behind, _, back, .code, whole, opens, walked, rfl, rfl⟩, rfl⟩

theorem Reopened.sheetColors_eq (reopened : Reopened sheet head body)
    (writable : ∀ entry ∈ entries, Writable entry.1 entry.2) :
    sheetColors (head ++ '{' :: body ++ linesOf entries ++ '}' :: back) =
      sheetColors sheet ++ entries.map Prod.swap := by
  obtain ⟨block, found, inner⟩ := reopened.exists_block writable
  have lines : blockColors (linesOf entries) = entries.map Prod.swap := by
    have read := blockColors_linesOf (fun entry member => (writable entry member).legible) []
    rwa [List.append_nil, show blockColors [] = [] from rfl, List.append_nil] at read
  rw [ColorTokens.sheetColors_eq found, inner, reopened.colors, lines]

/-- Lines that close no block are read back as soon as the sheet has a root block at all, wherever
that block ends. -/
theorem Reopened.exists_sheetColors (reopened : Reopened sheet head body)
    (legible : ∀ entry ∈ entries, Legible entry.1 entry.2)
    (root : (rootBlock? (head ++ '{' :: body ++ linesOf entries ++ '}' :: back)).isSome) :
    ∃ more, sheetColors (head ++ '{' :: body ++ linesOf entries ++ '}' :: back) =
      sheetColors sheet ++ (entries.map Prod.swap ++ more) := by
  obtain ⟨block, found⟩ := Option.isSome_iff_exists.mp root
  obtain ⟨head', front', behind', inner, back', phase, whole, opens', closed, code, rfl⟩ :=
    rootBlock?_eq_some_iff.mp found
  obtain ⟨front, behind, opens⟩ := reopened.opens
  obtain ⟨rfl, parted⟩ := opens.unique opens' (by simpa using whole)
  -- The block reaches past what was there before, and no line ends it.
  obtain ⟨left, rfl, behind⟩ := exists_append_of_closing reopened.walked closed code parted
  obtain ⟨more, rfl⟩ : ∃ more, left = linesOf entries ++ more := by
    rcases List.append_eq_append_iff.mp behind with ⟨more, longer, -⟩ | ⟨more, lines, brace⟩
    · exact ⟨more, longer⟩
    · cases more with
      | nil => exact ⟨[], by simpa using lines.symm⟩
      | cons c more =>
        obtain ⟨rfl, -⟩ := List.cons_eq_cons.mp brace
        exact absurd (lines ▸ by simp) (closing_notMem_linesOf legible)
  refine ⟨blockColors more, ?_⟩
  rw [ColorTokens.sheetColors_eq found]
  change blockColors (body ++ (linesOf entries ++ more)) = _
  rw [reopened.colors, blockColors_linesOf legible]

theorem exists_reopened {block : RootBlock} (found : rootBlock? sheet = some block) :
    ∃ head body back, openedHead block = head ++ '{' :: body ∧ block.tail = '}' :: back ∧
      Reopened sheet head body ∧ Frame sheet (head ++ '{' :: body) ('}' :: back) := by
  obtain ⟨head, front, behind, inner, back, phase, rfl, opens, walked, code, rfl⟩ :=
    rootBlock?_eq_some_iff.mp found
  obtain ⟨stop, gap, opened, follows⟩ := exists_openedHead head inner ('}' :: back)
    (byteLength head + 1 + byteLength inner)
  refine ⟨head, _, back, opened, rfl, ?_, ⟨head ++ '{' :: (trimEnd inner ++ (stop ++ gap)), by simp⟩,
    fun lines property declared => ?_⟩
  · refine ⟨⟨front, behind, opens⟩, walk_reopened walked code follows, fun more => ?_⟩
    rw [blockColors_reopened follows, sheetColors_eq found]
  · have parted : head ++ '{' :: (inner ++ '}' :: back) =
        (head ++ '{' :: inner) ++ '}' :: back := by
      simp
    rw [parted] at declared
    rcases declared.part (by decide) (by decide) (by decide) with inside | outside
    · obtain ⟨blanks, trimmed, all, -⟩ := exists_dropWhileEnd isBlank inner
      have spaced : DeclaredIn ((head ++ '{' :: trimEnd inner) ++ blanks) property := by
        rwa [List.append_assoc, List.cons_append, trimEnd, ← trimmed]
      have body := spaced.of_append fun colon => absurd (all ':' colon) (by decide)
      have longer := body.append (stop ++ (gap ++ ['\n']) ++ lines ++ '}' :: back)
      simpa using longer
    · exact outside.behind (by decide) _

def LacksBlock (sheet : List Char) : Prop :=
  ∀ front behind, sheet = front ++ (":root".toList ++ behind) → isWordAt behind.head? = false →
    '{' ∉ behind

theorem exists_appendedHead (sheet : List Char) :
    ∃ gap, appendedHead sheet = sheet ++ gap ∧ ∀ c ∈ gap, c = '\n' := by
  unfold appendedHead withNewline
  split
  case isTrue empty => exact ⟨[], by simpa using empty, by simp⟩
  case isFalse _ =>
    split
    · exact ⟨['\n'], rfl, by simp⟩
    · exact ⟨['\n', '\n'], by simp, by simp⟩

theorem exists_opens_appended (lacks : LacksBlock sheet) :
    ∃ front behind, Opens (appendedHead sheet ++ ":root ".toList) front behind := by
  obtain ⟨gap, appended, newlines⟩ := exists_appendedHead sheet
  have whole : appendedHead sheet ++ ":root ".toList =
      appendedHead sheet ++ (":root".toList ++ [' ']) := rfl
  refine exists_opens whole rfl fun front behind parted bounded brace => ?_
  -- A brace behind a selector would stand in the old sheet already.
  obtain ⟨near, far, rfl⟩ := List.append_of_mem brace
  have plain : '{' ∉ gap ++ ":root ".toList := by
    intro member
    rcases List.mem_append.mp member with inside | inside
    · exact absurd (newlines '{' inside) (by decide)
    · exact absurd inside (by decide)
  have parted' : sheet ++ (gap ++ ":root ".toList) =
      (front ++ (":root".toList ++ near)) ++ '{' :: far := by
    rw [← List.append_assoc, ← appended, parted]
    simp
  obtain ⟨left, inside⟩ := exists_of_notMem_tail parted' plain
  refine lacks front (near ++ '{' :: left) (by simpa using inside) ?_ (by simp)
  cases near <;> exact bounded

theorem frame_appended (sheet : List Char) :
    Frame sheet (appendedHead sheet ++ rootOpening.toList) rootClosing.toList := by
  obtain ⟨gap, appended, -⟩ := exists_appendedHead sheet
  refine ⟨⟨appendedHead sheet ++ ":root \x7b".toList, by simp [rootOpening]⟩,
    fun lines property declared => ?_⟩
  rw [appended]
  have longer := declared.append (gap ++ rootOpening.toList ++ lines ++ rootClosing.toList)
  simpa using longer

theorem reopened_appended (none : rootBlock? sheet = none) (lacks : LacksBlock sheet) :
    Reopened sheet (appendedHead sheet ++ ":root ".toList) ['\n'] where
  opens := exists_opens_appended lacks
  walked := rfl
  colors more := by
    rw [sheetColors_eq_nil none]
    exact blockColors_cons (by decide) more

end Texts

/-- Minted tokens that a sheet can take: each can be written, none is declared there, and no two
have one colour. -/
structure Insertable (minted : MintedTokens) (sheet : String) : Prop where
  writable : ∀ entry ∈ minted.toList, Writable entry.1 entry.2
  undeclared : ∀ entry ∈ minted.toList, entry.1 ∉ declaredIdentifiers sheet.toList
  distinct : minted.values.Nodup

variable {minted : MintedTokens} {sheet : String}

theorem mem_pending_iff {entry : String × String} :
    entry ∈ (minted.pending sheet.toList).toList ↔
      entry ∈ minted.toList ∧ entry.1 ∉ declaredIdentifiers sheet.toList := by
  rw [pending, Std.TreeMap.toList_filter, List.mem_filter, Bool.not_eq_true',
    ← Std.TreeSet.contains_iff_mem, Bool.not_eq_true]

theorem toList_pending
    (undeclared : ∀ entry ∈ minted.toList, entry.1 ∉ declaredIdentifiers sheet.toList) :
    (minted.pending sheet.toList).toList = minted.toList := by
  rw [pending, Std.TreeMap.toList_filter, List.filter_eq_self]
  intro entry member
  have absent := undeclared entry member
  rw [← Std.TreeSet.contains_iff_mem, Bool.not_eq_true] at absent
  rw [absent]
  rfl

theorem toList_insertInto (minted : MintedTokens) (sheet : String) :
    (minted.insertInto sheet).toList =
      if (minted.pending sheet.toList).isEmpty then sheet.toList
      else
        match rootBlock? sheet.toList with
        | some block =>
          openedHead block ++ linesOf (minted.pending sheet.toList).toList ++ block.tail
        | none =>
          appendedHead sheet.toList ++ rootOpening.toList ++
            linesOf (minted.pending sheet.toList).toList ++ rootClosing.toList := by
  unfold insertInto
  simp only
  split
  · rfl
  · cases rootBlock? sheet.toList with
    | some block => simp [toList_lines]
    | none => simp [toList_lines]

theorem toList_insertInto_nil (none : minted.toList = []) :
    (minted.insertInto sheet).toList = sheet.toList := by
  have missing : (minted.pending sheet.toList).isEmpty = true := by
    rw [← Std.TreeMap.isEmpty_toList, pending, Std.TreeMap.toList_filter, none]
    rfl
  rw [toList_insertInto, if_pos missing]

theorem exists_frame (more : (minted.pending sheet.toList).isEmpty = false) :
    ∃ front back, Frame sheet.toList front back ∧
      (minted.insertInto sheet).toList =
        front ++ linesOf (minted.pending sheet.toList).toList ++ back := by
  rw [toList_insertInto, if_neg (by simp [more])]
  cases found : rootBlock? sheet.toList with
  | some block =>
    obtain ⟨head, body, back, opened, closed, -, frame⟩ := exists_reopened found
    exact ⟨openedHead block, block.tail, by rwa [opened, closed], rfl⟩
  | none => exact ⟨_, _, frame_appended sheet.toList, rfl⟩

theorem declaredIn_insertInto {property : List Char} (declared : DeclaredIn sheet.toList property) :
    DeclaredIn (minted.insertInto sheet).toList property := by
  cases empty : (minted.pending sheet.toList).isEmpty with
  | true => rwa [toList_insertInto, if_pos empty]
  | false =>
    obtain ⟨front, back, frame, written⟩ := exists_frame empty
    rw [written]
    exact frame.kept _ property declared

/-- Every minted token is declared once the tokens are inserted, whatever their colours are. -/
theorem declaredIn_insertInto_minted
    (tokens : ∀ entry ∈ minted.toList, IsCustomProperty entry.1.toList) {entry : String × String}
    (member : entry ∈ minted.toList) :
    DeclaredIn (minted.insertInto sheet).toList entry.1.toList := by
  by_cases known : entry.1 ∈ declaredIdentifiers sheet.toList
  · exact declaredIn_insertInto (mem_declaredIdentifiers_iff.mp known)
  · have waits := mem_pending_iff.mpr ⟨member, known⟩
    have more : (minted.pending sheet.toList).isEmpty = false := by
      rw [← Std.TreeMap.isEmpty_toList, List.isEmpty_eq_false_iff]
      exact List.ne_nil_of_mem waits
    obtain ⟨front, back, frame, written⟩ := exists_frame more
    rw [written]
    exact frame.added (fun other listed => tokens other (mem_pending_iff.mp listed).1) waits

theorem exists_reopened_insertInto
    (undeclared : ∀ entry ∈ minted.toList, entry.1 ∉ declaredIdentifiers sheet.toList)
    (root : (rootBlock? sheet.toList).isSome ∨ LacksBlock sheet.toList) :
    minted.toList = [] ∧ (minted.insertInto sheet).toList = sheet.toList ∨
      ∃ head body back, Reopened sheet.toList head body ∧ (minted.insertInto sheet).toList =
        head ++ '{' :: body ++ linesOf minted.toList ++ '}' :: back := by
  rw [toList_insertInto, toList_pending undeclared]
  split
  · next empty =>
    left
    rw [← toList_pending undeclared, ← List.isEmpty_iff, Std.TreeMap.isEmpty_toList]
    exact ⟨empty, rfl⟩
  · right
    split
    · next block found =>
      obtain ⟨head, body, back, opened, closed, reopened, -⟩ := exists_reopened found
      exact ⟨head, body, back, reopened, by rw [opened, closed]⟩
    · next none =>
      have lacks : LacksBlock sheet.toList := root.resolve_left (by simp [none])
      exact ⟨_, _, ['\n'], reopened_appended none lacks, by simp [rootOpening, rootClosing]⟩

theorem sheetColors_insertInto (insertable : Insertable minted sheet)
    (root : (rootBlock? sheet.toList).isSome ∨ LacksBlock sheet.toList) :
    sheetColors (minted.insertInto sheet).toList =
      sheetColors sheet.toList ++ minted.toList.map Prod.swap := by
  rcases exists_reopened_insertInto insertable.undeclared root with
    ⟨none, same⟩ | ⟨head, body, back, reopened, written⟩
  · rw [same, none, List.map_nil, List.append_nil]
  · rw [written]
    exact reopened.sheetColors_eq insertable.writable

theorem extended_insertInto (insertable : Insertable minted sheet)
    (root : (rootBlock? sheet.toList).isSome ∨ LacksBlock sheet.toList) :
    Extended sheet.toList (minted.insertInto sheet).toList minted.toList where
  colors := sheetColors_insertInto insertable root
  kept _ declared := declaredIn_insertInto declared
  added _ member :=
    declaredIn_insertInto_minted (fun entry listed => (insertable.writable entry listed).token) member

theorem lookup_swap_of_nodup (distinct : minted.values.Nodup) {color identifier : String} :
    (minted.toList.map Prod.swap).lookup color = some identifier ↔
      minted[identifier]? = some color := by
  have keys : (minted.toList.map Prod.swap).map Prod.fst = minted.values := by
    rw [Keyed.values_eq, List.map_map]
    rfl
  rw [Keyed.lookup_eq_some_iff_mem (keys ▸ distinct),
    ← Std.TreeMap.mem_toList_iff_getElem?_eq_some]
  simp

theorem lookup_swap (insertable : Insertable minted sheet) {color identifier : String} :
    (minted.toList.map Prod.swap).lookup color = some identifier ↔
      minted[identifier]? = some color :=
  lookup_swap_of_nodup insertable.distinct

theorem mem_reserved_iff {sheet identifier : String} :
    identifier ∈ (TokenSheet.ofText sheet).reserved ↔ DeclaredIn sheet.toList identifier.toList ∨
      ∃ color : String, (TokenSheet.ofText sheet).index[color]? = some identifier := by
  rw [TokenSheet.ofText, Std.TreeSet.mem_insertMany_list, List.contains_iff_mem,
    Keyed.mem_values_iff, mem_declaredIdentifiers_iff]

/-- Inserted tokens are read back. Of the new sheet's colours those that were indexed keep their
identifiers, those that were not have the identifiers minted for them, and there are no others;
what was reserved stays so, and so is every minted identifier. -/
theorem ofText_insertInto (minted : MintedTokens) (sheet : String)
    (insertable : Insertable minted sheet)
    (root : (rootBlock? sheet.toList).isSome ∨ LacksBlock sheet.toList) :
    (∀ color identifier : String,
      (TokenSheet.ofText (minted.insertInto sheet)).index[color]? = some identifier ↔
        (TokenSheet.ofText sheet).index[color]? = some identifier ∨
        (TokenSheet.ofText sheet).index[color]? = none ∧ minted[identifier]? = some color) ∧
    ∀ identifier : String, identifier ∈ (TokenSheet.ofText sheet).reserved ∨ identifier ∈ minted →
      identifier ∈ (TokenSheet.ofText (minted.insertInto sheet)).reserved := by
  have extended := extended_insertInto insertable root
  have index : ∀ color identifier : String,
      (TokenSheet.ofText (minted.insertInto sheet)).index[color]? = some identifier ↔
        (TokenSheet.ofText sheet).index[color]? = some identifier ∨
        (TokenSheet.ofText sheet).index[color]? = none ∧ minted[identifier]? = some color := by
    intro color identifier
    simp only [TokenSheet.ofText, getElem?_ofSheet]
    rw [extended.colors, List.lookup_append, Option.or_eq_some_iff, lookup_swap insertable]
  refine ⟨index, fun identifier known => mem_reserved_iff.mpr ?_⟩
  rcases known with reserved | fresh
  · rcases mem_reserved_iff.mp reserved with declared | ⟨color, indexed⟩
    · exact .inl (extended.kept _ declared)
    · exact .inr ⟨color, (index color identifier).mpr (.inl indexed)⟩
  · have entry : (identifier, minted[identifier]) ∈ minted.toList := by
      rw [Std.TreeMap.mem_toList_iff_getElem?_eq_some]
      exact Std.TreeMap.getElem?_eq_some_getElem fresh
    exact .inl (extended.added _ entry)

/-- The block's one declaration lacks its semicolon, and one of the colours is indexed already. -/
theorem ofText_insertInto_unterminated :
    (TokenSheet.ofText (insertInto (Std.TreeMap.ofList [("--c-1", "rgb(1, 2, 3)"), ("--c-2", "#000000")])
      ":root\x7b\n  --ink: #000\n\x7d")).index["rgb(1, 2, 3)"]? = some "--c-1" ∧
    (TokenSheet.ofText (insertInto (Std.TreeMap.ofList [("--c-1", "rgb(1, 2, 3)"), ("--c-2", "#000000")])
      ":root\x7b\n  --ink: #000\n\x7d")).index["#000000"]? = some "--ink" := by
  have insertable : Insertable (Std.TreeMap.ofList [("--c-1", "rgb(1, 2, 3)"), ("--c-2", "#000000")])
      ":root\x7b\n  --ink: #000\n\x7d" := by
    have listed : (Std.TreeMap.ofList [("--c-1", "rgb(1, 2, 3)"), ("--c-2", "#000000")]).toList =
        [("--c-1", "rgb(1, 2, 3)"), ("--c-2", "#000000")] := by decide +kernel
    refine ⟨?_, by decide +kernel, by decide +kernel⟩
    rw [listed]
    simp only [List.forall_mem_cons, List.not_mem_nil, false_implies, implies_true, and_true]
    have digit : ∀ c ∈ "--c-1".toList, isPropertyChar c = true := List.all_eq_true.mp (by decide)
    have digit' : ∀ c ∈ "--c-2".toList, isPropertyChar c = true := List.all_eq_true.mp (by decide)
    exact ⟨⟨⟨by decide, by decide, digit⟩, by decide +kernel, by simp⟩,
      ⟨⟨by decide, by decide, digit'⟩, by decide +kernel, by simp⟩⟩
  obtain ⟨index, -⟩ := ofText_insertInto _ _ insertable (.inl (by decide +kernel))
  exact ⟨(index _ _).mpr (.inr ⟨by decide +kernel, by decide +kernel⟩),
    (index _ _).mpr (.inl (by decide +kernel))⟩

end Insertion

end MintedTokens

end ColorTokens
