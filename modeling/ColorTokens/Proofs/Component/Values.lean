import ColorTokens.Proofs.Component.Parts
import ColorTokens.Proofs.Occurrence.Hits

/-! Named values of a component whose literals give way to references. No name, separator or quote
is part of either, so the same values are found at the same places, with references for literals. -/

set_option autoImplicit false

namespace ColorTokens

open ColorTokens.Text
open ColorTokens.Source

def isFieldWord (name : List Char) : Bool :=
  !name.isEmpty && name.all isWord && !name.all Color.isHexDigit &&
    Color.colorNames.all (!Color.spells · name)

structure Fields (names : List String) (separator : Char) : Prop where
  words : ∀ name ∈ names, isFieldWord name.toList = true
  sign : separator ∈ ['=', ':']

theorem fields_markup : Fields ScanRules.standard.markupAttributes '=' := by
  have all : ScanRules.standard.markupAttributes.all (isFieldWord ·.toList) = true := by
    decide +kernel
  exact ⟨List.all_eq_true.mp all, by simp⟩

theorem fields_style : Fields ScanRules.standard.styleProperties ':' := by
  have all : ScanRules.standard.styleProperties.all (isFieldWord ·.toList) = true := by
    decide +kernel
  exact ⟨List.all_eq_true.mp all, by simp⟩

section Fields

variable {names : List String} {separator quote c : Char} {name : String} {head : List Char}

theorem Fields.separates (fields : Fields names separator) : Separates separator := by
  have all : ['=', ':'].all (fun c => !isBlank c && !isWord c) = true := by decide
  have own := List.all_eq_true.mp all separator fields.sign
  simp only [Bool.and_eq_true, Bool.not_eq_true'] at own
  exact ⟨own.1, own.2⟩

theorem Fields.word (fields : Fields names separator) (listed : name ∈ names) :
    (name.toList ≠ [] ∧ ∀ c ∈ name.toList, isWord c = true) ∧
      ¬ (∀ c ∈ name.toList, Color.isHexDigit c = true) ∧
      ∀ color ∈ Color.colorNames, Color.spells color name.toList = false := by
  have own := fields.words name listed
  simp only [isFieldWord, Bool.and_eq_true, Bool.not_eq_true', List.isEmpty_eq_false_iff,
    List.all_eq_true] at own
  obtain ⟨⟨⟨filled, words⟩, digits⟩, colors⟩ := own
  exact ⟨⟨filled, words⟩, by simpa using digits, colors⟩

theorem Fields.exists_tail (fields : Fields names separator)
    (leads : Leads separator name quote head) :
    ∃ tail, head = name.toList ++ tail ∧
      ∀ c ∈ tail, isWord c = false ∧ c ∉ ['(', ')', '#'] := by
  obtain ⟨⟨gap, space, rfl, blanks, blanks'⟩, plain⟩ := leads
  have blank {c : Char} (blank : isBlank c = true) : isWord c = false ∧ c ∉ ['(', ')', '#'] := by
    have dark : ['(', ')', '#'].all (fun c => !isBlank c) = true := by decide
    refine ⟨isWord_of_isBlank blank, fun listed => ?_⟩
    have other := List.all_eq_true.mp dark c listed
    rw [blank] at other
    cases other
  refine ⟨_, rfl, fun c member => ?_⟩
  simp only [List.mem_append, List.mem_cons, List.not_mem_nil, or_false] at member
  rcases member with member | rfl | member | rfl
  · exact blank (blanks c member)
  · have sign := fields.sign
    simp only [List.mem_cons, List.not_mem_nil, or_false] at sign
    rcases sign with rfl | rfl <;> decide
  · exact blank (blanks' c member)
  · simp only [isPlainQuote, Bool.or_eq_true, beq_iff_eq] at plain
    rcases plain with rfl | rfl <;> decide

theorem Fields.notMem_head (fields : Fields names separator) (listed : name ∈ names)
    (leads : Leads separator name quote head) (bracket : c ∈ ['(', ')', '#']) : c ∉ head := by
  have outside : ['(', ')', '#'].all (fun c => !isWord c) = true := by decide
  have other := List.all_eq_true.mp outside c bracket
  obtain ⟨tail, rfl, signs⟩ := fields.exists_tail leads
  intro member
  rcases List.mem_append.mp member with named | member
  · rw [(fields.word listed).1.2 c named] at other
    cases other
  · exact (signs c member).2 bracket

theorem Fields.isWord_of_before (fields : Fields names separator) (listed : name ∈ names)
    (leads : Leads separator name quote head) {front more : List Char}
    (parted : head = front ++ c :: more) (word : isWord c = true) :
    ∀ d ∈ front, isWord d = true := by
  obtain ⟨tail, rfl, signs⟩ := fields.exists_tail leads
  rcases List.append_eq_append_iff.mp parted with ⟨left, rfl, behind⟩ | ⟨left, longer, -⟩
  · have member : c ∈ tail := by simp [behind]
    rw [(signs c member).1] at word
    cases word
  · intro d member
    exact (fields.word listed).1.2 d (by rw [longer]; exact List.mem_append_left _ member)

end Fields

section Missing

variable {view : Piece → List Char} {pieces front back : List Piece} {old new left here : List Char}
  {names : List String} {separator : Char}

theorem not_isInertChar_of_isPlainQuote {c : Char} (plain : isPlainQuote c = true) :
    isInertChar c = false := by
  simp only [isPlainQuote, Bool.or_eq_true, beq_iff_eq] at plain
  rcases plain with rfl | rfl <;> decide

theorem Discrete.notMem_of_isPlainQuote (discrete : Discrete view pieces)
    (listed : .swapped old new ∈ pieces) {quote : Char} (plain : isPlainQuote quote = true) :
    quote ∉ view (.swapped old new) := by
  intro inside
  have inert := discrete.inert old new listed quote inside
  rw [not_isInertChar_of_isPlainQuote plain] at inert
  cases inert

theorem Discrete.quotedValue_eq_none (discrete : Discrete view pieces)
    (fields : Fields names separator) (whole : pieces = front ++ .swapped old new :: back)
    (parted : view (.swapped old new) = left ++ here) (nonempty : here ≠ []) :
    quotedValue names separator (left.getLast?.or (front.flatMap view).getLast?)
      (here ++ back.flatMap view) = none := by
  rw [Option.eq_none_iff_forall_ne_some]
  rintro ⟨taken, found⟩ read
  rw [quotedValue_eq_some_iff fields.separates fun name listed => (fields.word listed).1] at read
  obtain ⟨clear, name, listed, head, quote, rest, leads, same, -⟩ := read
  obtain ⟨⟨filled, words⟩, notHex, notColor⟩ := fields.word listed
  have form := discrete.form front old new back whole
  rw [parted] at form
  rcases form.boundary nonempty clear with
    closing | sign | ⟨run, ends, digits | ⟨color, known, spelled⟩⟩
  · rcases List.append_eq_append_iff.mp same with ⟨more, longer, -⟩ | ⟨more, longer, -⟩
    · have bracket : ')' ∉ head := fields.notMem_head listed leads (by simp)
      exact bracket (by rw [longer]; exact List.mem_append_left _ closing)
    · -- The quote that ends the head would be part of the literal.
      have member : .swapped old new ∈ pieces := by simp [whole]
      apply discrete.notMem_of_isPlainQuote member leads.plain
      rw [parted, longer]
      simp [leads.quote_mem]
  · have first : '#' ∈ head := by
      obtain ⟨c, more, rfl⟩ := List.exists_cons_of_ne_nil (List.ne_nil_of_mem leads.quote_mem)
      obtain ⟨here, rfl⟩ := List.head?_eq_some_iff.mp sign
      obtain ⟨rfl, -⟩ := List.cons_eq_cons.mp same
      exact List.mem_cons_self
    have bare : '#' ∉ head := fields.notMem_head listed leads (by simp)
    exact bare first
  · exact notHex (leads.eq_of_run fields.separates words same run ends ▸ digits)
  · have own := notColor color known
    rw [← leads.eq_of_run fields.separates words same run ends, spelled] at own
    cases own

end Missing

section Reading

variable {view view' : Piece → List Char} {pieces front back : List Piece} {c quote : Char}
  {names : List String} {separator : Char} {name : String} {head value rest : List Char}

/-- Nothing in the head of a value was exchanged, if it begins with a kept character. -/
theorem Discrete.exists_head (discrete : Discrete view pieces) (fields : Fields names separator)
    (listed : name ∈ names) (leads : Leads separator name quote head)
    (whole : pieces = front ++ .kept c :: back)
    (text : (Piece.kept c :: back).flatMap view = head ++ rest) :
    ∃ more, .kept c :: back = head.map .kept ++ more ∧ more.flatMap view = rest := by
  apply exists_kept_run discrete.own text
  intro front' left old new more parted nonempty shape same
  have inside : front' ≠ [] := by
    rintro rfl
    cases shape
  have place : pieces = (front ++ front'.map .kept) ++ .swapped old new :: more := by
    rw [whole, shape, List.append_assoc]
  have form := discrete.form _ old new more place
  have member : .swapped old new ∈ pieces := by simp [place]
  have unquoted := discrete.notMem_of_isPlainQuote member leads.plain
  rw [List.flatMap_append, flatMap_map_kept discrete.own,
    List.getLast?_append_of_ne_nil _ inside] at form
  generalize view (.swapped old new) = shown at form unquoted same
  cases form with
  | @call shown opened =>
    rcases List.append_eq_append_iff.mp same with ⟨more', longer, -⟩ | ⟨more', longer, -⟩
    · -- The quote that ends the head would be part of the literal.
      have ends := leads.getLast?_eq
      rw [parted, List.getLast?_append_of_ne_nil _ nonempty] at ends
      apply unquoted
      rw [longer]
      exact List.mem_append_left _ (List.mem_of_getLast? ends)
    · have bracket : '(' ∉ head := fields.notMem_head listed leads (by simp)
      exact bracket (by simp [parted, longer, opened])
  | hex =>
    obtain ⟨d, left, rfl⟩ := List.exists_cons_of_ne_nil nonempty
    obtain ⟨rfl, -⟩ := List.cons_eq_cons.mp same
    have sign : '#' ∉ head := fields.notMem_head listed leads (by simp)
    exact sign (by simp [parted])
  | name listed' spelled clear =>
    obtain ⟨d, left, rfl⟩ := List.exists_cons_of_ne_nil nonempty
    have word : isWord d = true := by
      obtain ⟨e, more', rfl, -⟩ := Color.head_of_spells (List.mem_append_right _ listed') spelled
      obtain ⟨rfl, -⟩ := List.cons_eq_cons.mp same
      exact isWord_of_spells listed' spelled d (by simp)
    obtain ⟨e, last⟩ : ∃ e, front'.getLast? = some e :=
      ⟨_, List.getLast?_eq_some_getLast inside⟩
    have before := fields.isWord_of_before listed leads parted word e (List.mem_of_getLast? last)
    simp [last, isWordAt, before] at clear

theorem Discrete.exists_value (discrete : Discrete view pieces) (fields : Fields names separator)
    (listed : name ∈ names) (leads : Leads separator name quote head)
    (whole : pieces = front ++ .kept c :: back)
    (text : c :: back.flatMap view = head ++ (value ++ quote :: rest)) :
    ∃ inner tail, .kept c :: back = head.map .kept ++ (inner ++ .kept quote :: tail) ∧
      inner.flatMap view = value ∧ tail.flatMap view = rest := by
  have text' : (Piece.kept c :: back).flatMap view = head ++ (value ++ quote :: rest) := by
    rw [List.flatMap_cons, discrete.own]
    exact text
  obtain ⟨more, shape, behind⟩ := discrete.exists_head fields listed leads whole text'
  have solid : ∀ old new, .swapped old new ∈ more → quote ∉ view (.swapped old new) := by
    intro old new member
    exact discrete.notMem_of_isPlainQuote (by simp [whole, shape, member]) leads.plain
  obtain ⟨inner, tail, rfl, shown, shown'⟩ := exists_split_at discrete.own solid behind
  exact ⟨inner, tail, shape, shown, shown'⟩

/-- A value that is read in one view is read in the other, from the same pieces. -/
theorem quotedValue_exchanged (discrete : Discrete view pieces) (discrete' : Discrete view' pieces)
    (fields : Fields names separator) (whole : pieces = front ++ .kept c :: back) {taken : Nat}
    {found : QuotedValue}
    (read : quotedValue names separator (front.flatMap view).getLast? (c :: back.flatMap view) =
      some (taken, found)) :
    ∃ head inner quote tail, .kept c :: back = head.map .kept ++ (inner ++ .kept quote :: tail) ∧
      found = ⟨found.name, byteLength head, inner.flatMap view⟩ ∧
      taken = head.length + (inner.flatMap view).length + 1 ∧
      quotedValue names separator (front.flatMap view').getLast? (c :: back.flatMap view') =
        some (head.length + (inner.flatMap view').length + 1,
          ⟨found.name, byteLength head, inner.flatMap view'⟩) := by
  have words : ∀ name ∈ names, name.toList ≠ [] ∧ ∀ c ∈ name.toList, isWord c = true :=
    fun name listed => (fields.word listed).1
  rw [quotedValue_eq_some_iff fields.separates words] at read
  obtain ⟨clear, name, listed, head, quote, rest, leads, text, unquoted, same, rfl⟩ := read
  obtain ⟨inner, tail, shape, shown, -⟩ := discrete.exists_value fields listed leads whole text
  have word : isWord c = true := by
    obtain ⟨more, rfl, -⟩ := fields.exists_tail leads
    obtain ⟨d, rest, first⟩ := List.exists_cons_of_ne_nil (words name listed).1
    rw [first, List.cons_append, List.cons_append, List.cons_eq_cons] at text
    exact (words name listed).2 c (by simp [first, text.1])
  have text' : c :: back.flatMap view' =
      head ++ (inner.flatMap view' ++ quote :: tail.flatMap view') := by
    have shown' := congrArg (List.flatMap view') shape
    rw [List.flatMap_cons, discrete'.own, List.flatMap_append, flatMap_map_kept discrete'.own,
      List.flatMap_append, List.flatMap_cons, discrete'.own] at shown'
    exact shown'
  -- Nothing that is exchanged holds a quote, so the value ends at the same one.
  have unquoted' : ∀ d ∈ inner.flatMap view', isPlainQuote d = false := by
    rw [← shown] at unquoted
    apply forall_mem_flatMap discrete.own discrete'.own unquoted
    intro old new member d inside
    have listed : .swapped old new ∈ pieces := by simp [whole, shape, member]
    rw [Bool.eq_false_iff]
    exact fun plain => discrete'.notMem_of_isPlainQuote listed plain inside
  have named : found.name = name := by rw [same]
  refine ⟨head, inner, quote, tail, shape, ?_, by rw [shown], ?_⟩
  · rw [shown, named]
    exact same
  · rw [quotedValue_eq_some_iff fields.separates words]
    exact ⟨discrete.isWordAt_getLast? discrete' whole word clear, name, listed, head, quote, _,
      leads, text', unquoted', by rw [named], rfl⟩

end Reading

section Segments

variable {pieces : List Piece} {names : List String} {separator : Char}

/-- A segment whose text was that of one of the former segments, before the exchange. -/
def StemsFrom (pieces : List Piece) (former : List Segment) (segment : Segment) : Prop :=
  ∃ front inner back, pieces = front ++ (inner ++ back) ∧ segment.text = textAfter inner ∧
    ∃ segment' ∈ former, segment'.start = byteLength (textBefore front) ∧
      segment'.text = textBefore inner

def SameValue (part : List Piece) (found found' : QuotedValue) : Prop :=
  ∃ head inner quote, part = head.map Piece.kept ++ (inner ++ [Piece.kept quote]) ∧
    found.lead = byteLength head ∧ found.value = textBefore inner ∧ found'.value = textAfter inner

theorem alongside_values (rewritten : Rewritten pieces) (fields : Fields names separator)
    (front back : List Piece) (whole : pieces = front ++ back) (nonempty : back ≠ []) :
    ∃ part rest, back = part ++ rest ∧
      Alongside (quotedValue names separator) (fun _ => True) SameValue front part rest := by
  obtain ⟨piece, back, rfl⟩ := List.exists_cons_of_ne_nil nonempty
  cases piece with
  | swapped old new =>
    refine ⟨[.swapped old new], back, rfl, alongside_swapped ?_ ?_⟩
    · intro left here parted filled
      exact rewritten.before.quotedValue_eq_none fields whole parted filled
    · intro left here parted filled
      exact rewritten.after.quotedValue_eq_none fields whole parted filled
  | kept c =>
    cases read : quotedValue names separator (textAfter front).getLast? (c :: textAfter back) with
    | none =>
      -- A value that was read before the exchange is read after it as well.
      have missed : quotedValue names separator (textBefore front).getLast? (c :: textBefore back) =
          none := by
        rw [Option.eq_none_iff_forall_ne_some]
        rintro ⟨taken, found⟩ read'
        obtain ⟨_, _, _, _, _, _, _, other⟩ :=
          quotedValue_exchanged rewritten.before rewritten.after fields whole read'
        cases read.symm.trans other
      exact ⟨[.kept c], back, rfl, alongside_kept missed read⟩
    | some success =>
      obtain ⟨taken, found'⟩ := success
      obtain ⟨head, inner, quote, tail, shape, same, rfl, read'⟩ :=
        quotedValue_exchanged rewritten.after rewritten.before fields whole read
      have parted : .kept c :: back = (head.map .kept ++ (inner ++ [.kept quote])) ++ tail := by
        simp [shape]
      refine ⟨_, tail, parted, by simp, [(0, ⟨found'.name, byteLength head, textBefore inner⟩)],
        [(0, found')], .take (by simp) ?_, .take (by simp) ?_, ?_⟩
      · have length : (textBefore (head.map .kept ++ (inner ++ [.kept quote]))).length =
            head.length + (textBefore inner).length + 1 := by simp [Nat.add_assoc]
        rw [← textBefore_append, ← parted, length]
        exact read'
      · have length : (textAfter (head.map .kept ++ (inner ++ [.kept quote]))).length =
            head.length + (textAfter inner).length + 1 := by simp [Nat.add_assoc]
        rw [← textAfter_append, ← parted, length]
        exact read
      · intro entry member _
        obtain rfl := List.mem_singleton.mp member
        refine ⟨rfl, _, List.mem_singleton_self _, head, inner, quote, rfl, rfl, rfl, ?_⟩
        rw [same]
        rfl

theorem stemsFrom_of_mem_namedSegments (rewritten : Rewritten pieces)
    (fields : Fields names separator) {context : String → Context} {segment : Segment}
    (member : segment ∈ namedSegments names separator context (textAfter pieces)) :
    StemsFrom pieces (namedSegments names separator context (textBefore pieces)) segment := by
  obtain ⟨⟨offset, found'⟩, listed, rfl⟩ := List.mem_map.mp member
  obtain ⟨front, part, rest, found, whole, listed', -, head, inner, quote, rfl, lead, value,
    value'⟩ := exists_found_before (alongside_values rewritten fields) listed trivial
  refine ⟨front ++ head.map .kept, inner, .kept quote :: rest, by simp [whole], value', _,
    List.mem_map.mpr ⟨_, listed', rfl⟩, ?_, value⟩
  simp [lead]

end Segments

end ColorTokens
