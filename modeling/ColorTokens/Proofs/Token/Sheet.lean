import ColorTokens.Token.Naming
import ColorTokens.Token.Sheet
import ColorTokens.Proofs.Keyed
import ColorTokens.Proofs.Source.Block
import ColorTokens.Proofs.Source.Declaration

/-! What is read from a token sheet. Identifiers are custom properties, and of the declarations
that give one colour the first is indexed. -/

set_option autoImplicit false

namespace ColorTokens

open ColorTokens.Text
open ColorTokens.Source

structure IsCustomProperty (name : List Char) : Prop where
  dashes : "--".toList <+: name
  longer : 2 < name.length
  properties : ∀ c ∈ name, isPropertyChar c = true

section CustomProperties

variable {text property : List Char}

theorem customProperty?_eq_some_iff :
    customProperty? text = some property ↔ IsCustomProperty property ∧
      ∃ rest, text = property ++ rest ∧ ∀ c ∈ rest.head?, isPropertyChar c = false := by
  unfold customProperty?
  constructor
  · intro read
    simp only [Option.ite_none_right_eq_some, Bool.and_eq_true, List.isPrefixOf_iff_prefix,
      decide_eq_true_eq, Option.some.injEq] at read
    obtain ⟨⟨dashes, longer⟩, rfl⟩ := read
    refine ⟨⟨dashes, longer, fun c => List.mem_takeWhile_imp⟩, text.dropWhile isPropertyChar, ?_, ?_⟩
    · rw [List.takeWhile_append_dropWhile]
    · exact fun c => head?_dropWhile
  · rintro ⟨shape, rest, rfl, ends⟩
    simp only [takeWhile_run shape.properties ends]
    rw [if_pos]
    simpa [List.isPrefixOf_iff_prefix] using ⟨shape.dashes, shape.longer⟩

theorem Naming.isDigit_of_mem_padded {width n : Nat} {c : Char} (member : c ∈ padded width n) :
    c.isDigit = true := by
  rcases List.mem_append.mp member with zero | digit
  · rw [List.eq_of_mem_replicate zero]
    rfl
  · exact Nat.isDigit_of_mem_toDigits (by decide) (by decide) digit

theorem Naming.toList_identifier (naming : Naming) (n : Nat) :
    (naming.identifier n).toList = naming.stem.toList ++ padded naming.width n := by
  rw [identifier, String.toList_append, String.toList_ofList]

theorem Naming.dashes_of_accepted {naming : Naming} (accepted : naming.flaw? = none) :
    "--".toList <+: naming.stem.toList := by
  unfold flaw? at accepted
  split at accepted
  · cases accepted
  · next dashes => rwa [Bool.not_eq_true', Bool.not_eq_false, List.isPrefixOf_iff_prefix] at dashes

/-- An accepted stem names custom properties exactly when it has no other characters. -/
theorem Naming.isCustomProperty_identifier_iff {naming : Naming} (accepted : naming.flaw? = none)
    (n : Nat) : IsCustomProperty (naming.identifier n).toList ↔
      ∀ c ∈ naming.stem.toList, isPropertyChar c = true := by
  rw [toList_identifier]
  constructor
  · intro token c member
    exact token.properties c (List.mem_append_left _ member)
  · intro properties
    have dashes := dashes_of_accepted accepted
    have short := dashes.length_le
    have digits : 0 < (padded naming.width n).length := by
      have positive := Nat.length_toDigits_pos (b := 10) (n := n)
      rw [padded, List.length_append]
      omega
    refine ⟨dashes.trans (List.prefix_append _ _), ?_, fun c member => ?_⟩
    · rw [List.length_append]
      change 2 ≤ _ at short
      omega
    · rcases List.mem_append.mp member with stem | digit
      · exact properties c stem
      · simp [isPropertyChar, Char.isAlphanum, isDigit_of_mem_padded digit]

structure DeclaresProperty (text property gap rest : List Char) : Prop where
  whole : text = property ++ (gap ++ ':' :: rest)
  token : IsCustomProperty property
  blanks : ∀ c ∈ gap, isBlank c = true

theorem declaredProperty_eq_some_iff {before : Option Char} {taken : Nat} {identifier : String} :
    declaredProperty before text = some (taken, identifier) ↔
      ∃ property gap rest, DeclaresProperty text property gap rest ∧
        taken = property.length + (gap.length + 1) ∧ identifier = String.ofList property := by
  simp only [declaredProperty, Option.bind_eq_bind, Option.bind_eq_some_iff, Prod.exists,
    Option.pure_def, Option.some.injEq, Prod.mk.injEq, customProperty?_eq_some_iff,
    afterColon?_eq_some_iff]
  constructor
  · rintro ⟨property, ⟨token, rest, rfl, ends⟩, _, body, ⟨gap, behind, blanks, rfl⟩, rfl, rfl⟩
    rw [List.drop_left] at behind
    exact ⟨property, gap, body, ⟨by rw [behind], token, blanks⟩, rfl, rfl⟩
  · rintro ⟨property, gap, rest, ⟨rfl, token, blanks⟩, rfl, rfl⟩
    refine ⟨property, ⟨token, _, rfl, not_isPropertyChar_of_gap blanks⟩, _, rest,
      ⟨gap, List.drop_left, blanks, rfl⟩, rfl, rfl⟩

theorem declaredProperty_bounded : Recognizer.Bounded declaredProperty := by
  intro before text taken identifier success
  obtain ⟨property, gap, rest, shape, rfl, _⟩ := declaredProperty_eq_some_iff.mp success
  simp only [shape.whole, List.length_append, List.length_cons]
  omega

/-- A text that begins with a token declaration, which a semicolon, a closing brace or the end of
the text ends. -/
structure DeclaresToken (text property gap value stop rest : List Char) : Prop where
  whole : text = property ++ (gap ++ ':' :: (value ++ (stop ++ rest)))
  token : IsCustomProperty property
  blanks : ∀ c ∈ gap, isBlank c = true
  filled : value ≠ []
  values : ∀ c ∈ value, isValueChar c = true
  ends : stop = [] ∧ rest = [] ∨ stop = [';'] ∨ stop = ['}']

theorem DeclaresToken.value_ends {text property gap value stop rest : List Char}
    (shape : DeclaresToken text property gap value stop rest) :
    ∀ c ∈ (stop ++ rest).head?, isValueChar c = false := by
  rcases shape.ends with ⟨rfl, rfl⟩ | rfl | rfl
  · simp
  · simp
    decide
  · simp
    decide

def DeclaresToken.read (property value : List Char) : TokenDeclaration :=
  ⟨String.ofList property, String.ofList (trim value)⟩

theorem exists_stop {body : List Char} (closed : ¬ (body.dropWhile isValueChar).head? = some '{') :
    ∃ stop left, body.dropWhile isValueChar = stop ++ left ∧
      (body.dropWhile isValueChar).head?.toList.length = stop.length ∧
      (stop = [] ∧ left = [] ∨ stop = [';'] ∨ stop = ['}']) := by
  cases found : body.dropWhile isValueChar with
  | nil => exact ⟨[], [], rfl, rfl, .inl ⟨rfl, rfl⟩⟩
  | cons c left =>
    have stops : isValueChar c = false := head?_dropWhile (by rw [found]; rfl)
    rw [found] at closed
    refine ⟨[c], left, rfl, rfl, .inr ?_⟩
    rcases isValueChar_eq_false_iff.mp stops with rfl | rfl | rfl
    · exact .inl rfl
    · exact absurd rfl closed
    · exact .inr rfl

theorem tokenDeclaration_eq_some_iff {before : Option Char} {taken : Nat}
    {found : TokenDeclaration} :
    tokenDeclaration before text = some (taken, found) ↔
      ∃ property gap value stop rest, DeclaresToken text property gap value stop rest ∧
        taken = property.length + (gap.length + 1) + value.length + stop.length ∧
        found = DeclaresToken.read property value := by
  simp only [tokenDeclaration, Option.bind_eq_bind, Option.bind_eq_some_iff, Prod.exists,
    Option.guard_eq_some', Option.pure_def, Option.some.injEq, Prod.mk.injEq,
    customProperty?_eq_some_iff, afterColon?_eq_some_iff, Bool.not_eq_true',
    List.isEmpty_eq_false_iff, bne_iff_ne, ne_eq]
  constructor
  · rintro ⟨property, ⟨token, rest, rfl, ends⟩, _, body, ⟨gap, behind, blanks, rfl⟩, _, filled, _,
      closed, rfl, rfl⟩
    rw [List.drop_left] at behind
    obtain ⟨stop, left, parted, length, ends⟩ := exists_stop closed
    refine ⟨property, gap, body.takeWhile isValueChar, stop, left, ⟨?_, token, blanks, filled,
      fun c => List.mem_takeWhile_imp, ends⟩, by rw [length], rfl⟩
    rw [← parted, List.takeWhile_append_dropWhile, behind]
  · rintro ⟨property, gap, value, stop, rest, shape, rfl, rfl⟩
    have value_ends := shape.value_ends
    refine ⟨property, ⟨shape.token, _, shape.whole, not_isPropertyChar_of_gap shape.blanks⟩, _,
      value ++ (stop ++ rest), ⟨gap, ?_, shape.blanks, rfl⟩, ?_⟩
    · rw [shape.whole, List.drop_left]
    · rw [takeWhile_run shape.values value_ends, dropWhile_run shape.values value_ends]
      refine ⟨(), shape.filled, (), ?_, ?_, rfl⟩
      · rcases shape.ends with ⟨rfl, rfl⟩ | rfl | rfl <;> simp
      · rcases shape.ends with ⟨rfl, rfl⟩ | rfl | rfl <;> rfl

theorem tokenDeclaration_bounded : Recognizer.Bounded tokenDeclaration := by
  intro before text taken found success
  obtain ⟨property, gap, value, stop, rest, shape, rfl, _⟩ := tokenDeclaration_eq_some_iff.mp success
  simp only [shape.whole, List.length_append, List.length_cons]
  omega

end CustomProperties

section RootBlock

theorem rootSelector_eq_some_iff {before : Option Char} {text : List Char} {taken : Nat} :
    rootSelector before text = some (taken, ()) ↔
      taken = 5 ∧ ∃ behind, text = ":root".toList ++ behind ∧ isWordAt behind.head? = false := by
  unfold rootSelector
  simp only [Option.ite_none_right_eq_some, Bool.and_eq_true, List.isPrefixOf_iff_prefix,
    Bool.not_eq_true', Option.some.injEq, Prod.mk.injEq, and_true]
  constructor
  · rintro ⟨⟨⟨behind, rfl⟩, ends⟩, rfl⟩
    exact ⟨rfl, behind, rfl, ends⟩
  · rintro ⟨rfl, behind, rfl, ends⟩
    exact ⟨⟨⟨behind, rfl⟩, ends⟩, rfl⟩

theorem rootSelector_bounded : Recognizer.Bounded rootSelector := by
  intro before text taken _ found
  obtain ⟨rfl, behind, rfl, _⟩ := rootSelector_eq_some_iff.mp found
  simp

theorem rootSelector_free : Recognizer.ContextFree rootSelector :=
  fun _ _ _ => rfl

/-- A selector is five characters and one look at the next. -/
theorem rootSelector_append {text : List Char} (long : 6 ≤ text.length) (rest : List Char)
    (before : Option Char) : rootSelector before (text ++ rest) = rootSelector before text := by
  match text, long with
  | _ :: _ :: _ :: _ :: _ :: _ :: _, _ => rfl

/-- A text that ends right before the opening brace of a root block. -/
structure Opens (text front behind : List Char) : Prop where
  whole : text = front ++ (":root".toList ++ behind)
  bare : '{' ∉ behind
  bounded : isWordAt (behind ++ ['{']).head? = false
  first : ∀ here, here ≠ [] → here <:+ front →
    rootSelector none (here ++ (":root".toList ++ (behind ++ ['{']))) = none

theorem Opens.first?_eq {text front behind : List Char} (opens : Opens text front behind)
    (rest : List Char) :
    rootSelector.first? (text ++ '{' :: rest) = some (byteLength front, ()) := by
  rw [Recognizer.first?_eq_some_iff rootSelector_bounded rootSelector_free]
  refine ⟨front, ":root".toList ++ (behind ++ '{' :: rest), 5, by simp [opens.whole], rfl,
    rootSelector_eq_some_iff.mpr ⟨rfl, _, rfl, ?_⟩, fun here nonempty suffix => ?_⟩
  · have bounded := opens.bounded
    cases behind <;> exact bounded
  · have missed := opens.first here nonempty suffix
    have long : 6 ≤ (here ++ (":root".toList ++ (behind ++ ['{']))).length := by
      have positive := List.length_pos_of_ne_nil nonempty
      simp
      omega
    rw [← rootSelector_append long rest none] at missed
    simpa using missed

theorem Opens.unique {text text' front behind front' behind' rest rest' : List Char}
    (opens : Opens text front behind) (opens' : Opens text' front' behind')
    (same : text ++ '{' :: rest = text' ++ '{' :: rest') : text = text' ∧ rest = rest' := by
  have place := opens.first?_eq rest
  rw [same, opens'.first?_eq] at place
  have length : byteLength front = byteLength front' := by simpa using place.symm
  have parted : front ++ (":root".toList ++ (behind ++ '{' :: rest)) =
      front' ++ (":root".toList ++ (behind' ++ '{' :: rest')) := by
    rw [opens.whole, opens'.whole] at same
    simpa using same
  obtain ⟨rfl, tails⟩ := append_inj_of_byteLength parted length
  have bare {text : List Char} (bare : '{' ∉ text) : ∀ c ∈ text, (c != '{') = true := by
    intro c member
    rw [bne_iff_ne]
    rintro rfl
    exact bare member
  obtain ⟨rfl, -, rfl⟩ := run_unique (bare opens.bare) (bare opens'.bare) (by decide) (by decide)
    (List.append_cancel_left tails)
  exact ⟨opens.whole.trans opens'.whole.symm, rfl⟩

theorem opens_of_first? {before rest head more : List Char} {selector : Nat}
    (found : rootSelector.first? (head ++ '{' :: more) = some (selector, ()))
    (cut : head ++ '{' :: more = before ++ rest) (length : byteLength before = selector + 5)
    (opening : byteLength head = selector + 5 + byteLength (rest.takeWhile (· != '{'))) :
    ∃ front, Opens head front (rest.takeWhile (· != '{')) := by
  obtain ⟨front, behind, taken, whole, rfl, read, missed⟩ :=
    (Recognizer.first?_eq_some_iff rootSelector_bounded rootSelector_free).mp found
  obtain ⟨rfl, rest', rfl, bounded⟩ := rootSelector_eq_some_iff.mp read
  have colon : byteLength ":root".toList = 5 := rfl
  have parted : before ++ rest = (front ++ ":root".toList) ++ rest' := by
    rw [← cut, whole, List.append_assoc]
  -- Offsets tell where the text is parted, so the parts are those of the selector that was found.
  obtain ⟨rfl, rfl⟩ := append_inj_of_byteLength parted (by simp only [byteLength_append]; omega)
  have brace : head ++ '{' :: more = (front ++ (":root".toList ++ rest.takeWhile (· != '{'))) ++
      rest.dropWhile (· != '{') := by
    simp only [whole, List.append_assoc, List.takeWhile_append_dropWhile]
  obtain ⟨rfl, left⟩ := append_inj_of_byteLength brace (by simp only [byteLength_append]; omega)
  have joined : rest.takeWhile (· != '{') ++ '{' :: more = rest := by
    rw [left, List.takeWhile_append_dropWhile]
  refine ⟨front, rfl, fun member => ?_, ?_, fun here nonempty suffix => ?_⟩
  · simpa using List.mem_takeWhile_imp member
  · rw [← joined] at bounded
    cases shape : rest.takeWhile (· != '{') <;> rw [shape] at bounded <;> exact bounded
  · have long : 6 ≤ (here ++ (":root".toList ++ (rest.takeWhile (· != '{') ++ ['{']))).length := by
      have positive := List.length_pos_of_ne_nil nonempty
      simp
      omega
    rw [← rootSelector_append long more none]
    have earlier := missed here nonempty suffix
    rw [← joined] at earlier
    simpa using earlier

theorem rootBlock?_eq_some_iff {sheet : List Char} {block : RootBlock} :
    rootBlock? sheet = some block ↔
      ∃ head front behind inner back phase, sheet = head ++ '{' :: (inner ++ '}' :: back) ∧
        Opens head front behind ∧ walk (1, .code) inner = some (1, phase) ∧
        phase.isCode = true ∧
        block = ⟨byteLength head, byteLength head + 1 + byteLength inner, head ++ '{' :: inner,
          inner, '}' :: back⟩ := by
  have brace : byteLength ['{'] = 1 := rfl
  have size : '{'.utf8Size = 1 := rfl
  have colon : byteLength ":root".toList = 5 := rfl
  unfold rootBlock?
  simp only [Option.bind_eq_bind, Option.bind_eq_some_iff, Prod.exists, Option.pure_def,
    Option.some.injEq, closingBrace?_eq_some_iff, cut?_eq_some_iff]
  constructor
  · rintro ⟨selector, _, found, before, rest, ⟨cut, length⟩, closing, ⟨front, inner, back, phase,
      rfl, opening, walked, code, rfl⟩, head, tail, ⟨parted, length'⟩, opener, inner',
      ⟨rfl, length''⟩, rfl⟩
    obtain ⟨front', opens⟩ := opens_of_first? found cut length opening
    have parted : (opener ++ inner') ++ tail = (front ++ '{' :: inner) ++ '}' :: back := by
      rw [← parted]
      simp
    -- Both cuts are made at offsets of the block, which tell their parts.
    obtain ⟨same, rfl⟩ := append_inj_of_byteLength parted (by
      simp only [byteLength_append, byteLength_cons] at length' ⊢
      omega)
    have opener_eq : opener ++ inner' = (front ++ ['{']) ++ inner := by
      rw [same]
      simp
    obtain ⟨rfl, rfl⟩ := append_inj_of_byteLength opener_eq (by
      simp only [byteLength_append]
      omega)
    refine ⟨front, front', _, inner', back, phase, rfl, opens, walked, code, ?_⟩
    simp [opening]
  · rintro ⟨head, front, behind, inner, back, phase, rfl, opens, walked, code, rfl⟩
    have opening : byteLength head = byteLength front + 5 + byteLength behind := by
      simp only [opens.whole, byteLength_append, colon]
      omega
    have upTo : (behind ++ '{' :: (inner ++ '}' :: back)).takeWhile (· != '{') = behind :=
      takeWhile_run (fun c member => by
        have different : c ≠ '{' := fun same => opens.bare (same ▸ member)
        simpa using different) (by simp)
    refine ⟨byteLength front, (), opens.first?_eq _, front ++ ":root".toList,
      behind ++ '{' :: (inner ++ '}' :: back),
      ⟨by simp [opens.whole], by rw [byteLength_append, colon]⟩,
      byteLength head + 1 + byteLength inner, ?_, head ++ '{' :: inner, '}' :: back,
      ⟨by simp, by simp only [byteLength_append, byteLength_cons]; omega⟩, head ++ ['{'], inner,
      ⟨by simp, ?_⟩, ?_⟩
    · exact ⟨head, inner, back, phase, rfl, by rw [upTo, opening], walked, code,
        by rw [upTo, opening]⟩
    · rw [upTo, byteLength_append, opening, brace]
    · rw [upTo, opening]

theorem exists_first_selector {behind : List Char}
    (bounded : isWordAt (behind ++ ['{']).head? = false) (front : List Char) :
    ∃ front' behind', front ++ (":root".toList ++ behind) = front' ++ (":root".toList ++ behind') ∧
      isWordAt (behind' ++ ['{']).head? = false ∧ ∀ here, here ≠ [] → here <:+ front' →
        rootSelector none (here ++ (":root".toList ++ (behind' ++ ['{']))) = none := by
  induction front with
  | nil =>
    exact ⟨[], behind, rfl, bounded, fun here nonempty suffix =>
      absurd (List.suffix_nil.mp suffix) nonempty⟩
  | cons c front ih =>
    obtain ⟨front', behind', whole, bounded', first⟩ := ih
    cases read : rootSelector none (c :: front ++ (":root".toList ++ behind) ++ ['{']) with
    | none =>
      refine ⟨c :: front', behind', by rw [List.cons_append, whole]; rfl, bounded', ?_⟩
      intro here nonempty suffix
      rcases List.suffix_cons_iff.mp suffix with rfl | suffix
      · rw [List.cons_append, whole] at read
        simpa using read
      · exact first here nonempty suffix
    | some success =>
      -- A selector that begins here comes before all others.
      obtain ⟨taken, _⟩ := success
      obtain ⟨rfl, rest, parted, ends⟩ := rootSelector_eq_some_iff.mp read
      have filled : rest ≠ [] := by
        rintro rfl
        have length := congrArg List.length parted
        simp at length
        omega
      obtain ⟨rest', d, rfl⟩ := (List.eq_nil_or_concat' rest).resolve_left filled
      rw [← List.append_assoc ":root".toList] at parted
      obtain ⟨whole', same⟩ := List.append_inj' parted rfl
      obtain rfl : '{' = d := by simpa using same
      exact ⟨[], rest', whole', ends, fun here nonempty suffix =>
        absurd (List.suffix_nil.mp suffix) nonempty⟩

/-- A text with a selector in it opens a root block when no brace follows any of its selectors. -/
theorem exists_opens {text front behind : List Char}
    (whole : text = front ++ (":root".toList ++ behind))
    (bounded : isWordAt (behind ++ ['{']).head? = false)
    (bare : ∀ front behind, text = front ++ (":root".toList ++ behind) →
      isWordAt (behind ++ ['{']).head? = false → '{' ∉ behind) :
    ∃ front behind, Opens text front behind := by
  subst whole
  obtain ⟨front', behind', whole, bounded', first⟩ := exists_first_selector bounded front
  exact ⟨front', behind', whole, bare front' behind' whole bounded', bounded', first⟩

end RootBlock

section Index

theorem getElem?_foldl_insertIfNew (pairs : List (String × String)) (index : ColorIndex)
    (color : String) :
    (pairs.foldl (fun index pair => index.insertIfNew pair.1 pair.2) index)[color]? =
      index[color]?.or (pairs.lookup color) := by
  induction pairs generalizing index with
  | nil => simp
  | cons pair rest ih =>
    obtain ⟨key, value⟩ := pair
    rw [List.foldl_cons, ih, Keyed.getElem?_insertIfNew, List.lookup_cons]
    by_cases same : key = color
    · subst same
      simp
    · have different : (color == key) = false := by simpa using Ne.symm same
      rw [if_neg same, different]

theorem ColorIndex.getElem?_ofPairs (pairs : List (String × String)) (color : String) :
    (ColorIndex.ofPairs pairs)[color]? = pairs.lookup color := by
  rw [ColorIndex.ofPairs, getElem?_foldl_insertIfNew]
  simp

theorem exists_declaresToken {sheet : List Char} {declaration : TokenDeclaration}
    (member : declaration ∈ rootTokens sheet) :
    ∃ text property gap value stop rest, DeclaresToken text property gap value stop rest ∧
      declaration = DeclaresToken.read property value := by
  unfold rootTokens at member
  split at member
  · next block _ =>
    obtain ⟨⟨place, found⟩, listed, rfl⟩ := List.mem_map.mp member
    have search := Recognizer.findings_findFrom tokenDeclaration_bounded 0 none block.inner
    obtain ⟨front, piece, rest, _, _, read⟩ := search.place listed
    obtain ⟨property, gap, value, stop, rest, shape, _, rfl⟩ := tokenDeclaration_eq_some_iff.mp read
    exact ⟨_, property, gap, value, stop, rest, shape, rfl⟩
  · cases member

theorem isCustomProperty_of_mem_rootTokens {sheet : List Char} {declaration : TokenDeclaration}
    (member : declaration ∈ rootTokens sheet) : IsCustomProperty declaration.identifier.toList := by
  obtain ⟨text, property, gap, value, stop, rest, shape, rfl⟩ := exists_declaresToken member
  simpa [DeclaresToken.read] using shape.token

theorem isValueChar_of_mem_rootTokens {sheet : List Char} {declaration : TokenDeclaration}
    (member : declaration ∈ rootTokens sheet) :
    ∀ c ∈ declaration.value.toList, isValueChar c = true := by
  obtain ⟨text, property, gap, value, stop, rest, shape, rfl⟩ := exists_declaresToken member
  intro c inside
  rw [DeclaresToken.read, String.toList_ofList] at inside
  exact shape.values c (mem_of_mem_trim inside)

theorem normalize?_of_colorOf? {declaration : TokenDeclaration} {color : String}
    (given : ColorIndex.colorOf? declaration = some color) :
    Color.normalize? declaration.value = some color := by
  unfold ColorIndex.colorOf? Color.normalizeValue? Color.canonicalValue? at given
  split at given
  · cases given
  · simp only at given
    split at given
    · exact given
    · cases given

theorem exists_of_index {sheet : List Char} {color identifier : String}
    (found : (ColorIndex.ofSheet sheet)[color]? = some identifier) :
    ∃ declaration ∈ rootTokens sheet, declaration.identifier = identifier ∧
      ColorIndex.colorOf? declaration = some color := by
  rw [ColorIndex.ofSheet, ColorIndex.getElem?_ofPairs] at found
  obtain ⟨front, back, parted, _⟩ := List.lookup_eq_some_iff.mp found
  have listed : (color, identifier) ∈ front ++ (color, identifier) :: back := by simp
  rw [← parted] at listed
  obtain ⟨declaration, member, made⟩ := List.mem_filterMap.mp listed
  obtain ⟨_, given, same⟩ := Option.map_eq_some_iff.mp made
  cases same
  exact ⟨declaration, member, rfl, given⟩

theorem isCustomProperty_of_index {sheet : List Char} {color identifier : String}
    (found : (ColorIndex.ofSheet sheet)[color]? = some identifier) :
    IsCustomProperty identifier.toList := by
  obtain ⟨declaration, member, rfl, -⟩ := exists_of_index found
  exact isCustomProperty_of_mem_rootTokens member

end Index

end ColorTokens
