import ColorTokens.Proofs.Component.Values

/-! Dictionaries of a component whose literals give way to references. A reference can lengthen the
name of a binding or give one to what had none, but never the name of a dictionary; every other
binding keeps its brace, every brace its block, and every quoted text its quotes. -/

set_option autoImplicit false

namespace ColorTokens

open ColorTokens.Text
open ColorTokens.Source

section DictionaryNames

theorem isDictionaryName_iff {name : List Char} :
    ScanRules.standard.isDictionaryName (String.ofList name) = true ↔
      ∃ keyword ∈ ["color", "colors", "palette", "theme"], keyword.toList <:+: lowercase name := by
  have wanted : ["color", "colors", "palette", "theme"].all (fun keyword =>
      lowercase (trim keyword.toList) == keyword.toList && !keyword.toList.isEmpty) = true := by
    decide +kernel
  have own := List.all_eq_true.mp wanted
  unfold ScanRules.isDictionaryName
  rw [List.any_eq_true]
  constructor
  · rintro ⟨keyword, listed, inside⟩
    have fixed := own keyword listed
    simp only [Bool.and_eq_true, beq_iff_eq] at fixed
    rw [fixed.1, String.toList_ofList, Bool.and_eq_true, holds_iff] at inside
    exact ⟨keyword, listed, inside.2⟩
  · rintro ⟨keyword, listed, inside⟩
    have fixed := own keyword listed
    simp only [Bool.and_eq_true, beq_iff_eq] at fixed
    refine ⟨keyword, listed, ?_⟩
    rw [fixed.1, String.toList_ofList, Bool.and_eq_true, holds_iff]
    exact ⟨fixed.2, inside⟩

theorem ascii_of_isNameChar {c : Char} (named : isNameChar c = true) : c.toNat < 128 := by
  simp only [isNameChar, Bool.or_eq_true, beq_iff_eq] at named
  rcases named with alphanum | rfl
  · exact ascii_of_isAlphanum alphanum
  · decide

theorem isDictionaryName_of_append {name : List Char} (named : ∀ c ∈ name, isNameChar c = true)
    (dictionary : ScanRules.standard.isDictionaryName
      (String.ofList (name ++ "var".toList)) = true) :
    ScanRules.standard.isDictionaryName (String.ofList name) = true := by
  rw [isDictionaryName_iff] at dictionary ⊢
  obtain ⟨keyword, listed, front, back, inside⟩ := dictionary
  have ascii : ∀ c ∈ name, c.toNat < 128 := fun c member => ascii_of_isNameChar (named c member)
  have ascii' : ∀ c ∈ name ++ "var".toList, c.toNat < 128 := by
    intro c member
    rcases List.mem_append.mp member with member | member
    · exact ascii c member
    · have plain : "var".toList.all (·.toNat < 128) = true := by decide
      exact of_decide_eq_true (List.all_eq_true.mp plain c member)
  rw [lowercase_of_ascii ascii', List.map_append] at inside
  rw [lowercase_of_ascii ascii]
  refine ⟨keyword, listed, ?_⟩
  have outside : 'v' ∉ keyword.toList := by
    have all : ["color", "colors", "palette", "theme"].all (fun keyword =>
        !keyword.toList.contains 'v') = true := by decide
    simpa using List.all_eq_true.mp all keyword listed
  have whole : name.map Char.toLower ++ 'v' :: "ar".toList = front ++ (keyword.toList ++ back) := by
    rw [← List.append_assoc, inside]
    rfl
  -- The keyword lies on one side of the `v`, and what follows the `v` is too short for one.
  rcases piece_cases whole outside with ⟨left, same⟩ | ⟨left, -, same⟩
  · exact ⟨front, left, by rw [same, List.append_assoc]⟩
  · have short : ["color", "colors", "palette", "theme"].all (fun keyword =>
        2 < keyword.toList.length) = true := by decide
    have long := of_decide_eq_true (List.all_eq_true.mp short keyword listed)
    have length := congrArg List.length same
    simp only [List.length_append] at length
    have two : "ar".toList.length = 2 := rfl
    omega

end DictionaryNames

section Missing

variable {view : Piece → List Char} {pieces front back : List Piece} {old new left here : List Char}

theorem Discrete.binding_eq_none (discrete : Discrete view pieces)
    (whole : pieces = front ++ .swapped old new :: back)
    (parted : view (.swapped old new) = left ++ here) (nonempty : here ≠ []) :
    binding (left.getLast?.or (front.flatMap view).getLast?) (here ++ back.flatMap view) =
      none := by
  rw [Option.eq_none_iff_forall_ne_some]
  rintro ⟨taken, found⟩ read
  obtain ⟨clear, keyword, gap, body, space, rest, binds, same, -⟩ := binding_eq_some_iff.mp read
  obtain ⟨filled, words⟩ := keyword_isWord binds.listed
  have form := discrete.form front old new back whole
  rw [parted] at form
  rcases form.boundary nonempty clear with
    closing | sign | ⟨run, ends, digits | ⟨color, known, spelled⟩⟩
  · -- Neither the keyword nor the blank behind it can reach the closing bracket.
    obtain ⟨d, gap', rfl⟩ := List.exists_cons_of_ne_nil binds.parted
    have blank := binds.blanks d (by simp)
    have outside : ')' ∉ keyword ++ [d] := by
      intro member
      rcases List.mem_append.mp member with member | member
      · exact absurd (words ')' member) (by decide)
      · rw [List.mem_singleton] at member
        subst member
        exact absurd blank (by decide)
    have text : here ++ back.flatMap view =
        (keyword ++ [d]) ++ (gap' ++ (body ++ '=' :: space) ++ '{' :: rest) := by
      rw [same]
      simp [bindingLead]
    rcases List.append_eq_append_iff.mp text with ⟨more, longer, -⟩ | ⟨more, longer, -⟩
    · exact outside (by rw [longer]; exact List.mem_append_left _ closing)
    · apply discrete.unbound old new (by simp [whole]) keyword binds.listed d blank
      exact ⟨left, more, by rw [parted, longer]; simp⟩
  · obtain ⟨c, more, rfl⟩ := List.exists_cons_of_ne_nil filled
    obtain ⟨here, rfl⟩ := List.head?_eq_some_iff.mp sign
    rw [bindingLead, List.cons_append, List.cons_append, List.cons_append,
      List.cons_eq_cons] at same
    have word := words c (by simp)
    rw [← same.1] at word
    exact absurd word (by decide)
  · have none : bindingKeywords.all (fun keyword => !keyword.all Color.isHexDigit) = true := by
      decide
    have other := List.all_eq_true.mp none keyword binds.listed
    rw [← binds.eq_of_run same run ends, List.all_eq_true.mpr digits] at other
    cases other
  · have none : Color.colorNames.all (fun color => bindingKeywords.all fun keyword =>
        !Color.spells color keyword) = true := by decide
    have other := List.all_eq_true.mp (List.all_eq_true.mp none color known) keyword binds.listed
    rw [← binds.eq_of_run same run ends, spelled] at other
    cases other

end Missing

section Reading

variable {view view' : Piece → List Char} {pieces front back : List Piece} {c : Char}
  {keyword gap body space name rest : List Char}

/-- The pieces of a binding: only what stands before its equals sign can have been exchanged. -/
def bindingPieces (keyword gap : List Char) (inner : List Piece) (space : List Char) : List Piece :=
  (keyword ++ gap).map .kept ++ (inner ++ ('=' :: space).map .kept)

theorem Discrete.flatMap_bindingPieces (discrete : Discrete view pieces) (inner : List Piece) :
    (bindingPieces keyword gap inner space).flatMap view =
      bindingLead keyword gap (inner.flatMap view) space := by
  rw [bindingPieces, List.flatMap_append, List.flatMap_append, flatMap_map_kept discrete.own,
    flatMap_map_kept discrete.own, bindingLead]
  simp

/-- Nothing up to the name was exchanged, if the keyword begins with a kept character. -/
theorem Discrete.exists_keyword (discrete : Discrete view pieces)
    (binds : Binds keyword gap body space name) (whole : pieces = front ++ .kept c :: back)
    (text : (Piece.kept c :: back).flatMap view = (keyword ++ gap) ++ rest) :
    ∃ more, .kept c :: back = (keyword ++ gap).map .kept ++ more ∧ more.flatMap view = rest := by
  obtain ⟨filled, words⟩ := keyword_isWord binds.listed
  apply exists_kept_run discrete.own text
  intro front' left old new more parted nonempty shape same
  have inside : front' ≠ [] := by
    rintro rfl
    cases shape
  have place : pieces = (front ++ front'.map .kept) ++ .swapped old new :: more := by
    rw [whole, shape, List.append_assoc]
  obtain ⟨d, more', starts, dark, sign⟩ := discrete.starts _ old new more place
  rw [List.flatMap_append, flatMap_map_kept discrete.own,
    List.getLast?_append_of_ne_nil _ inside] at sign
  obtain ⟨e, left, rfl⟩ := List.exists_cons_of_ne_nil nonempty
  rw [starts] at same
  obtain ⟨rfl, -⟩ := List.cons_eq_cons.mp same
  have dark' : e ∉ gap := by
    intro member
    rw [binds.blanks e member] at dark
    cases dark
  rcases List.append_eq_append_iff.mp parted with ⟨more'', rfl, behind⟩ | ⟨more'', longer, behind⟩
  · exact dark' (by simp [behind])
  · cases more'' with
    | nil => exact dark' (by rw [List.nil_append] at behind; simp [← behind])
    | cons f more'' =>
      -- Behind a letter of the keyword no literal and no reference goes on with another.
      obtain ⟨rfl, -⟩ := List.cons_eq_cons.mp behind
      obtain ⟨f, last⟩ : ∃ f, front'.getLast? = some f :=
        ⟨_, List.getLast?_eq_some_getLast inside⟩
      have word : isWordAt front'.getLast? = true := by
        rw [last]
        exact words f (by simp [longer, List.mem_of_getLast? last])
      have letters : bindingKeywords.all (fun keyword => keyword.tail.all fun c =>
          c != '#' && c != 'v') = true := by decide
      have tail : e ∈ keyword.tail := by
        obtain ⟨g, rest, rfl⟩ := List.exists_cons_of_ne_nil inside
        simp [longer]
      have other := List.all_eq_true.mp (List.all_eq_true.mp letters keyword binds.listed) e tail
      rcases sign word with rfl | rfl <;> exact absurd other (by decide)

theorem Discrete.exists_brace (discrete : Discrete view pieces) {back : List Piece}
    (whole : pieces = front ++ back) (blanks : ∀ c ∈ space, isBlank c = true)
    (text : back.flatMap view = space ++ '{' :: rest) :
    ∃ tail, back = (space ++ ['{']).map .kept ++ tail ∧ tail.flatMap view = rest := by
  have text' : back.flatMap view = (space ++ ['{']) ++ rest := by simp [text]
  apply exists_kept_run discrete.own text'
  intro front' left old new more parted nonempty shape same
  have place : pieces = (front ++ front'.map .kept) ++ .swapped old new :: more := by
    rw [whole, shape, List.append_assoc]
  obtain ⟨d, more', starts, dark, -⟩ := discrete.starts _ old new more place
  obtain ⟨e, left, rfl⟩ := List.exists_cons_of_ne_nil nonempty
  rw [starts] at same
  obtain ⟨rfl, -⟩ := List.cons_eq_cons.mp same
  have member : e ∈ space ++ ['{'] := by simp [parted]
  rcases List.mem_append.mp member with member | member
  · rw [blanks e member] at dark
    cases dark
  · rw [List.mem_singleton] at member
    subst member
    have inert := discrete.inert old new (by simp [place]) '{' (by simp [starts])
    exact absurd inert (by decide)

theorem Discrete.exists_binding (discrete : Discrete view pieces)
    (binds : Binds keyword gap body space name) (whole : pieces = front ++ .kept c :: back)
    (text : c :: back.flatMap view = bindingLead keyword gap body space ++ '{' :: rest) :
    ∃ inner tail, .kept c :: back = bindingPieces keyword gap inner space ++ .kept '{' :: tail ∧
      inner.flatMap view = body ∧ tail.flatMap view = rest := by
  have text' : (Piece.kept c :: back).flatMap view =
      (keyword ++ gap) ++ (body ++ '=' :: (space ++ '{' :: rest)) := by
    rw [List.flatMap_cons, discrete.own]
    simpa [bindingLead] using text
  obtain ⟨more, shape, behind⟩ := discrete.exists_keyword binds whole text'
  have solid : ∀ old new, .swapped old new ∈ more → '=' ∉ view (.swapped old new) := by
    intro old new member inside
    exact absurd (discrete.inert old new (by simp [whole, shape, member]) '=' inside) (by decide)
  obtain ⟨inner, more, rfl, shown, behind⟩ := exists_split_at discrete.own solid behind
  have place : pieces =
      (front ++ ((keyword ++ gap).map .kept ++ (inner ++ [.kept '=']))) ++ more := by
    rw [whole, shape]
    simp
  obtain ⟨tail, rfl, shown'⟩ := discrete.exists_brace place binds.blanks' behind
  exact ⟨inner, tail, by simp [shape, bindingPieces], shown, shown'⟩

/-- Where a binding is read in one view, the pieces of one stand in the other: it is read there as
well if there is a name, and otherwise nothing goes beyond its brace. -/
theorem binding_exchanged (discrete : Discrete view pieces) (discrete' : Discrete view' pieces)
    (whole : pieces = front ++ .kept c :: back) {taken : Nat} {found : Binding}
    (read : binding (front.flatMap view).getLast? (c :: back.flatMap view) = some (taken, found)) :
    ∃ keyword gap inner space tail,
      .kept c :: back = bindingPieces keyword gap inner space ++ .kept '{' :: tail ∧
      Names (inner.flatMap view) found.name ∧
      found.lead = byteLength ((bindingPieces keyword gap inner space).flatMap view) ∧
      taken = ((bindingPieces keyword gap inner space).flatMap view).length + 1 ∧
      (∀ name, Names (inner.flatMap view') name →
        binding (front.flatMap view').getLast? (c :: back.flatMap view') =
          some (((bindingPieces keyword gap inner space).flatMap view').length + 1,
            ⟨name, byteLength ((bindingPieces keyword gap inner space).flatMap view')⟩)) ∧
      ∃ found, Recognizer.Through binding (front.flatMap view').getLast?
        ((bindingPieces keyword gap inner space).flatMap view' ++ ['{']) (tail.flatMap view')
        found := by
  obtain ⟨clear, keyword, gap, body, space, rest, binds, text, same, rfl⟩ :=
    binding_eq_some_iff.mp read
  obtain ⟨inner, tail, shape, rfl, -⟩ := discrete.exists_binding binds whole text
  -- What was exchanged holds no sign that would end the search for the equals sign.
  have equals : ∀ d ∈ inner.flatMap view', isBeforeEquals d = true := by
    apply forall_mem_flatMap discrete.own discrete'.own binds.equals
    intro old new member d inside
    have listed : .swapped old new ∈ pieces := by simp [whole, shape, bindingPieces, member]
    have inert := discrete'.inert old new listed d inside
    obtain ⟨-, -, semicolon, equals, -⟩ := ne_of_isInertChar inert
    simp [isBeforeEquals, semicolon, equals]
  refine ⟨keyword, gap, inner, space, tail, shape, binds.names, ?_, ?_, fun name names => ?_, ?_⟩
  · rw [discrete.flatMap_bindingPieces, same]
  · rw [discrete.flatMap_bindingPieces]
  · obtain ⟨filled, words⟩ := keyword_isWord binds.listed
    have word : isWord c = true := by
      obtain ⟨d, more, rfl⟩ := List.exists_cons_of_ne_nil filled
      rw [bindingLead, List.cons_append, List.cons_append, List.cons_eq_cons] at text
      exact words c (by simp [text.1])
    have binds' : Binds keyword gap (inner.flatMap view') space name :=
      ⟨binds.listed, binds.parted, binds.blanks, equals, names, binds.blanks'⟩
    have text' : c :: back.flatMap view' =
        bindingLead keyword gap (inner.flatMap view') space ++ '{' :: tail.flatMap view' := by
      have shown := congrArg (List.flatMap view') shape
      rwa [List.flatMap_cons, discrete'.own, List.flatMap_append, discrete'.flatMap_bindingPieces,
        List.flatMap_cons, discrete'.own] at shown
    rw [discrete'.flatMap_bindingPieces]
    exact binding_eq_some_iff.mpr ⟨discrete.isWordAt_getLast? discrete' whole word clear, keyword,
      gap, _, space, _, binds', text', rfl, rfl⟩
  · apply Recognizer.exists_through
    intro left here taken value parted nonempty read
    have plain : ∀ d ∈ keyword ++ gap ++ inner.flatMap view', isBeforeEquals d = true := by
      intro d member
      rcases List.mem_append.mp member with member | member
      · exact binds.before_body d member
      · exact equals d member
    rw [discrete'.flatMap_bindingPieces, bindingLead, ← List.append_assoc,
      ← List.append_assoc] at parted
    exact taken_of_binding plain binds.blanks' parted nonempty read

end Reading

section Names

variable {pieces front inner back : List Piece} {name run rest : List Char}

theorem exists_name_run (pieces : List Piece) :
    ∃ (run : List Char) (rest : List Piece), pieces = run.map .kept ++ rest ∧
      (∀ c ∈ run, isNameChar c = true) ∧
      ((∀ c ∈ (textBefore rest).head?, isNameChar c = false) ∧
          (textAfter rest).head? = (textBefore rest).head? ∨
        ∃ old new more, rest = .swapped old new :: more) := by
  induction pieces with
  | nil => exact ⟨[], [], rfl, by simp, .inl (by simp)⟩
  | cons piece pieces ih =>
    cases piece with
    | swapped old new => exact ⟨[], _, rfl, by simp, .inr ⟨old, new, pieces, rfl⟩⟩
    | kept c =>
      by_cases named : isNameChar c = true
      · obtain ⟨run, rest, rfl, all, ends⟩ := ih
        exact ⟨c :: run, rest, rfl, List.forall_mem_cons.mpr ⟨named, all⟩, ends⟩
      · exact ⟨[], _, rfl, by simp, .inl (by simpa using named)⟩

/-- A literal that gives way behind a name begins with the number sign. -/
theorem Rewritten.exists_sign (rewritten : Rewritten pieces) {old new : List Char}
    (whole : pieces = front ++ (run.map .kept ++ .swapped old new :: back))
    (all : ∀ c ∈ run, isNameChar c = true) (nonempty : run ≠ []) : ∃ more, old = '#' :: more := by
  obtain ⟨-, -, sign, -⟩ :=
    rewritten.literal (front ++ run.map .kept) old new back (by simp [whole])
  rw [textBefore_append, textBefore_map_kept, List.getLast?_append_of_ne_nil _ nonempty] at sign
  obtain ⟨c, last⟩ : ∃ c, run.getLast? = some c := ⟨_, List.getLast?_eq_some_getLast nonempty⟩
  have word : isWordAt run.getLast? = true := by
    rw [last]
    exact isWord_of_isNameChar (all c (List.mem_of_getLast? last))
  obtain ⟨more, same⟩ := List.head?_eq_some_iff.mp (sign word)
  exact ⟨more, same⟩

theorem names_append_reference {identifier new : List Char} (refers : RefersTo identifier new)
    (all : ∀ c ∈ run, isNameChar c = true)
    (start : (run ++ "var".toList).head?.any isNameStart = true) (rest : List Char) :
    Names (run ++ (new ++ rest)) (run ++ "var".toList) := by
  refine ⟨start, fun c member => ?_, '(' :: (identifier ++ ')' :: rest), ?_, rfl⟩
  · rcases List.mem_append.mp member with member | member
    · exact all c member
    · exact List.all_eq_true.mp (by decide : "var".toList.all isNameChar = true) c member
  · rw [refers.2]
    simp

theorem Rewritten.names_after (rewritten : Rewritten pieces)
    (whole : pieces = front ++ (inner ++ back)) (named : Names (textBefore inner) name) :
    ∃ name', Names (textAfter inner) name' := by
  obtain ⟨run, rest, rfl, all, ends | ⟨old, new, more, rfl⟩⟩ := exists_name_run inner
  · rw [textBefore_append, textBefore_map_kept] at named
    obtain ⟨rfl, boundary⟩ := named.eq_run all ends.1
    rw [textAfter_append, textAfter_map_kept]
    exact ⟨name, named.start, all, _, rfl, by rw [ends.2]; exact boundary⟩
  · obtain ⟨identifier, refers⟩ := rewritten.reference old new (by simp [whole])
    rw [textAfter_append, textAfter_map_kept, textAfter_swapped]
    refine ⟨run ++ "var".toList, names_append_reference refers all ?_ _⟩
    cases run with
    | nil => decide
    | cons c run =>
      rw [List.append_assoc, List.cons_append] at whole
      obtain ⟨literal, rfl⟩ := rewritten.exists_sign whole all (by simp)
      rw [textBefore_append, textBefore_map_kept, textBefore_swapped] at named
      have sign : ∀ d ∈ ('#' :: literal ++ textBefore more).head?, isNameChar d = false := by
        simp only [List.cons_append, List.head?_cons, Option.mem_some_iff, forall_eq']
        decide
      obtain ⟨rfl, -⟩ := named.eq_run all sign
      exact named.start

theorem Rewritten.names_before (rewritten : Rewritten pieces)
    (whole : pieces = front ++ (inner ++ back)) (named : Names (textAfter inner) name)
    (dictionary : ScanRules.standard.isDictionaryName (String.ofList name) = true) :
    ∃ name', Names (textBefore inner) name' ∧
      ScanRules.standard.isDictionaryName (String.ofList name') = true := by
  obtain ⟨run, rest, rfl, all, ends | ⟨old, new, more, rfl⟩⟩ := exists_name_run inner
  · rw [textAfter_append, textAfter_map_kept] at named
    obtain ⟨rfl, boundary⟩ := named.eq_run all (by rw [ends.2]; exact ends.1)
    rw [textBefore_append, textBefore_map_kept]
    exact ⟨name, ⟨named.start, all, _, rfl, by rw [← ends.2]; exact boundary⟩, dictionary⟩
  -- The name runs on into a reference, whose first three letters it then ends with.
  · obtain ⟨identifier, -, rfl⟩ := rewritten.reference old new (by simp [whole])
    have text : textAfter (run.map .kept ++ .swapped old ("var(".toList ++ (identifier ++ [')'])) ::
        more) = (run ++ "var".toList) ++ '(' :: (identifier ++ ')' :: textAfter more) := by simp
    have letters : ∀ c ∈ run ++ "var".toList, isNameChar c = true := by
      intro c member
      rcases List.mem_append.mp member with member | member
      · exact all c member
      · exact List.all_eq_true.mp (by decide : "var".toList.all isNameChar = true) c member
    have bracket : ∀ c ∈ ('(' :: (identifier ++ ')' :: textAfter more)).head?,
        isNameChar c = false := by
      simp only [List.head?_cons, Option.mem_some_iff, forall_eq']
      decide
    rw [text] at named
    obtain ⟨rfl, -⟩ := named.eq_run letters bracket
    cases run with
    | nil => exact absurd dictionary (by decide +kernel)
    | cons c run =>
      rw [List.append_assoc, List.cons_append] at whole
      obtain ⟨literal, rfl⟩ := rewritten.exists_sign whole all (by simp)
      rw [textBefore_append, textBefore_map_kept, textBefore_swapped]
      refine ⟨c :: run, ⟨named.start, all, _, rfl, ?_⟩, isDictionaryName_of_append all dictionary⟩
      simp only [List.cons_append, List.head?_cons]
      decide

end Names

section Blocks

variable {text front inner back : List Char} {rules : ScanRules} {segment : Segment}

structure Encloses (text front inner back : List Char) : Prop where
  whole : text = front ++ '{' :: (inner ++ '}' :: back)
  closes : ∃ phase, walk (1, .code) inner = some (1, phase) ∧ phase.isCode = true

/-- The segments of a dictionary are the contents of the quoted texts in its block. -/
theorem mem_dictionarySegments_iff :
    segment ∈ dictionarySegments rules text ↔ ∃ entry ∈ binding.findAll text,
      rules.isDictionaryName (String.ofList entry.2.name) = true ∧
      ∃ front inner back head quote content tail, Encloses text front inner back ∧
        byteLength front = entry.1 + entry.2.lead ∧ Quotes .code inner head quote content tail ∧
        segment = ⟨byteLength (front ++ '{' :: (head ++ [quote])), content,
          .dictionary (String.ofList entry.2.name)⟩ := by
  -- The spans are those of the quoted texts, and the slices at them are the contents.
  have spans {front inner back : List Char} (span : Span) :
      span ∈ quotedSpans (front ++ '{' :: (inner ++ '}' :: back)) (byteLength front + 1)
          (byteLength front + 1 + byteLength inner) ↔
        ∃ head quote content tail, Quotes .code inner head quote content tail ∧
          span = ⟨byteLength (front ++ '{' :: (head ++ [quote])),
            byteLength (front ++ '{' :: (head ++ quote :: content))⟩ := by
    have own : span ∈ quotedSpans ((front ++ ['{']) ++ (inner ++ '}' :: back))
        (byteLength (front ++ ['{'])) (byteLength ((front ++ ['{']) ++ inner)) ↔ _ :=
      mem_quotedSpans_iff
    simpa [Nat.add_assoc, show Char.utf8Size '{' = 1 from rfl] using own
  have slice {front inner back head content tail : List Char} {quote : Char}
      (quotes : Quotes .code inner head quote content tail) :
      slice? (front ++ '{' :: (inner ++ '}' :: back))
        (byteLength (front ++ '{' :: (head ++ [quote])))
        (byteLength (front ++ '{' :: (head ++ quote :: content))) = some content := by
    refine slice?_eq_some_iff.mpr ⟨_, quote :: (tail ++ '}' :: back), ?_, rfl, by simp⟩
    rw [quotes.whole]
    simp
  unfold dictionarySegments
  rw [List.mem_flatMap]
  constructor
  · rintro ⟨⟨offset, found⟩, listed, member⟩
    simp only at member
    split at member
    · next closing closed =>
      split at member
      · next dictionary =>
        obtain ⟨span, inside, made⟩ := List.mem_filterMap.mp member
        obtain ⟨front, inner, back, phase, rfl, opening, walked, code, rfl⟩ :=
          closingBrace?_eq_some_iff.mp closed
        rw [← opening, spans] at inside
        obtain ⟨head, quote, content, tail, quotes, rfl⟩ := inside
        rw [slice quotes, Option.map_some, Option.some.injEq] at made
        exact ⟨_, listed, dictionary, front, inner, back, head, quote, content, tail,
          ⟨rfl, phase, walked, code⟩, opening, quotes, made.symm⟩
      · cases member
    · cases member
  · rintro ⟨⟨offset, found⟩, listed, dictionary, front, inner, back, head, quote, content, tail,
      ⟨rfl, phase, walked, code⟩, opening, quotes, rfl⟩
    refine ⟨_, listed, ?_⟩
    have closed : closingBrace? (front ++ '{' :: (inner ++ '}' :: back)) (offset + found.lead) =
        some (byteLength front + 1 + byteLength inner) :=
      closingBrace?_eq_some_iff.mpr ⟨front, inner, back, phase, rfl, opening, walked, code, by
        rw [opening]⟩
    simp only [closed, dictionary, if_true]
    rw [← opening]
    exact List.mem_filterMap.mpr ⟨_, (spans _).mpr ⟨head, quote, content, tail, quotes, rfl⟩, by
      simp only [slice quotes, Option.map_some]⟩

end Blocks

section Segments

variable {pieces : List Piece}

/-- Only kept braces close a block, and it is read in the same way up to there. -/
theorem Rewritten.exists_block (rewritten : Rewritten pieces) {front rest : List Piece}
    (place : pieces = front ++ .kept '{' :: rest) {opening inner back : List Char}
    (encloses : Encloses (textAfter pieces) opening inner back)
    (length : byteLength opening = byteLength (textAfter front)) :
    ∃ inner' back', rest = inner' ++ .kept '}' :: back' ∧ inner = textAfter inner' ∧
      opening = textAfter front ∧
      Encloses (textBefore pieces) (textBefore front) (textBefore inner') (textBefore back') := by
  obtain ⟨whole, phase, walked, code⟩ := encloses
  have text : textAfter pieces = textAfter front ++ '{' :: textAfter rest := by simp [place]
  obtain ⟨rfl, behind⟩ := append_inj_of_byteLength (whole.symm.trans text) length
  obtain ⟨-, behind⟩ := List.cons_eq_cons.mp behind
  have solid : ∀ old new, .swapped old new ∈ rest → '}' ∉ Piece.after (.swapped old new) := by
    intro old new member inside
    exact absurd (rewritten.after.inert old new (by simp [place, member]) '}' inside) (by decide)
  obtain ⟨inner', back', rfl, rfl, rfl⟩ :=
    exists_split_at rewritten.after.own solid behind.symm
  have neutral : AllNeutral inner' := fun old new member =>
    rewritten.allNeutral old new (by simp [place, member])
  have proper : Phase.code.Proper := trivial
  refine ⟨inner', back', rfl, rfl, rfl, by simp [place], phase, ?_, code⟩
  rw [← walk_exchanged neutral proper]
  exact walked

theorem Rewritten.exists_quotes (rewritten : Rewritten pieces) {inner : List Piece}
    (within : inner ⊆ pieces) {head content tail : List Char} {quote : Char}
    (quotes : Quotes .code (textAfter inner) head quote content tail) :
    ∃ before middle after, inner = before ++ .kept quote :: (middle ++ .kept quote :: after) ∧
      head = textAfter before ∧ content = textAfter middle ∧
      Quotes .code (textBefore inner) (textBefore before) quote (textBefore middle)
        (textBefore after) := by
  obtain ⟨whole, plain, code, closed⟩ := quotes
  have solid : ∀ old new, .swapped old new ∈ inner → quote ∉ Piece.after (.swapped old new) := by
    intro old new member
    exact rewritten.after.notMem_of_isPlainQuote (within member) plain
  obtain ⟨before, rest, rfl, rfl, behind⟩ := exists_split_at rewritten.after.own solid whole
  have solid' : ∀ old new, .swapped old new ∈ rest → quote ∉ Piece.after (.swapped old new) :=
    fun old new member => solid old new (by simp [member])
  obtain ⟨middle, after, rfl, rfl, rfl⟩ := exists_split_at rewritten.after.own solid' behind
  have neutral : AllNeutral before := fun old new member =>
    rewritten.allNeutral old new (within (by simp [member]))
  have neutral' : AllNeutral middle := fun old new member =>
    rewritten.allNeutral old new (within (by simp [member]))
  have proper : Phase.code.Proper := trivial
  refine ⟨before, middle, after, rfl, rfl, rfl, by simp, plain, ?_, ?_⟩
  · rw [← after_exchanged neutral proper]
    exact code
  · exact isContent_exchanged neutral' (isQuote_of_isPlainQuote plain) closed

/-- The binding of a dictionary before the exchange, and what became of it. -/
def SameDictionary (part : List Piece) (found found' : Binding) : Prop :=
  ScanRules.standard.isDictionaryName (String.ofList found.name) = true ∧
    ∃ lead, part = lead ++ [Piece.kept '{'] ∧ found.lead = byteLength (textBefore lead) ∧
      found'.lead = byteLength (textAfter lead)

theorem alongside_bindings (rewritten : Rewritten pieces) (front back : List Piece)
    (whole : pieces = front ++ back) (nonempty : back ≠ []) :
    ∃ part rest, back = part ++ rest ∧ Alongside binding
      (fun found => ScanRules.standard.isDictionaryName (String.ofList found.name) = true)
      SameDictionary front part rest := by
  obtain ⟨piece, back, rfl⟩ := List.exists_cons_of_ne_nil nonempty
  cases piece with
  | swapped old new =>
    refine ⟨[.swapped old new], back, rfl, alongside_swapped ?_ ?_⟩
    · intro left here parted filled
      exact rewritten.before.binding_eq_none whole parted filled
    · intro left here parted filled
      exact rewritten.after.binding_eq_none whole parted filled
  | kept c =>
    -- What is read after the exchange decides how far the two searches go together.
    cases read : binding (textAfter front).getLast? (c :: textAfter back) with
    | none =>
      have missed : binding (textBefore front).getLast? (c :: textBefore back) = none := by
        rw [Option.eq_none_iff_forall_ne_some]
        rintro ⟨taken, found⟩ read'
        obtain ⟨keyword, gap, inner, space, tail, shape, named, -, -, readable, -⟩ :=
          binding_exchanged rewritten.before rewritten.after whole read'
        rw [shape, bindingPieces, List.append_assoc, List.append_assoc,
          ← List.append_assoc] at whole
        obtain ⟨name', named'⟩ := rewritten.names_after whole named
        cases read.symm.trans (readable name' named')
      exact ⟨[.kept c], back, rfl, alongside_kept missed read⟩
    | some success =>
      obtain ⟨taken, found'⟩ := success
      obtain ⟨keyword, gap, inner, space, tail, shape, named, lead', rfl, readable, through⟩ :=
        binding_exchanged rewritten.after rewritten.before whole read
      have parted : .kept c :: back =
          (bindingPieces keyword gap inner space ++ [.kept '{']) ++ tail := by
        simp [shape]
      have taken' : Recognizer.Through binding (textAfter front).getLast?
          (textAfter (bindingPieces keyword gap inner space ++ [.kept '{'])) (textAfter tail)
          [(0, found')] := by
        refine .take (by simp) ?_
        rw [← textAfter_append, ← parted, textAfter_append, List.length_append]
        exact read
      by_cases dictionary : ScanRules.standard.isDictionaryName (String.ofList found'.name) = true
      · rw [shape, bindingPieces, List.append_assoc, List.append_assoc,
          ← List.append_assoc] at whole
        obtain ⟨name, named', dictionary'⟩ := rewritten.names_before whole named dictionary
        refine ⟨_, tail, parted, by simp,
          [(0, ⟨name, byteLength (textBefore (bindingPieces keyword gap inner space))⟩)], _,
          .take (by simp) ?_, taken', ?_⟩
        · rw [← textBefore_append, ← parted, textBefore_append, List.length_append]
          exact readable name named'
        · intro entry member _
          obtain rfl := List.mem_singleton.mp member
          exact ⟨rfl, _, List.mem_singleton_self _, dictionary', _, rfl, rfl, lead'⟩
      -- A binding with another name is of no interest, but its brace is reached in both texts.
      · obtain ⟨found, through⟩ := through
        refine ⟨_, tail, parted, by simp, found, _, ?_, taken', ?_⟩
        · rw [textBefore_append]
          exact through
        · intro entry member wanted
          obtain rfl := List.mem_singleton.mp member
          exact absurd wanted dictionary

/-- The block of a dictionary is closed by the same brace, and its quoted texts are the same. -/
theorem stemsFrom_of_mem_dictionarySegments (rewritten : Rewritten pieces) {segment : Segment}
    (member : segment ∈ dictionarySegments ScanRules.standard (textAfter pieces)) :
    StemsFrom pieces (dictionarySegments ScanRules.standard (textBefore pieces)) segment := by
  obtain ⟨⟨offset, found'⟩, listed, dictionary, opening, inner, back, head, quote, content, tail,
    encloses, length, quotes, rfl⟩ := mem_dictionarySegments_iff.mp member
  obtain ⟨front, part, rest, found, whole, listed', at', dictionary', lead, rfl, here, here'⟩ :=
    exists_found_before (alongside_bindings rewritten) listed dictionary
  have place : pieces = (front ++ lead) ++ .kept '{' :: rest := by simp [whole]
  have opening_eq : byteLength opening = byteLength (textAfter (front ++ lead)) := by
    rw [length, textAfter_append, byteLength_append, ← at', ← here']
  obtain ⟨inner, behind, rfl, rfl, rfl, encloses'⟩ :=
    rewritten.exists_block place encloses opening_eq
  have within : inner ⊆ pieces := fun piece member => by simp [place, member]
  obtain ⟨before, middle, after, rfl, rfl, rfl, quotes'⟩ := rewritten.exists_quotes within quotes
  refine ⟨front ++ lead ++ .kept '{' :: (before ++ [.kept quote]), middle,
    .kept quote :: (after ++ .kept '}' :: behind), by simp [place], rfl, _,
    mem_dictionarySegments_iff.mpr ⟨_, listed', dictionary', _, _, _, _, quote, _, _, encloses', ?_,
      quotes', rfl⟩, ?_, rfl⟩
  · rw [textBefore_append, byteLength_append, here]
  · simp

end Segments

end ColorTokens
