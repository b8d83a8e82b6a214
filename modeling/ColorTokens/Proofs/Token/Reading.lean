import ColorTokens.Proofs.Color.Canonical
import ColorTokens.Proofs.Token.Sheet

/-! Reading a sheet part by part. The identifiers that a sheet declares can be told place by place,
whatever else the sheet holds. The colours of a block are those of its two parts, in order, once
the first part ends its last declaration. -/

set_option autoImplicit false

namespace ColorTokens

open ColorTokens.Text
open ColorTokens.Source

section Declared

theorem IsCustomProperty.trimEnd_append {property gap : List Char}
    (token : IsCustomProperty property) (blanks : ∀ c ∈ gap, isBlank c = true) (front : List Char) :
    trimEnd (front ++ property ++ gap) = front ++ property := by
  refine dropWhileEnd_run blanks fun c last => ?_
  have nonempty : property ≠ [] := List.ne_nil_of_length_pos (Nat.lt_trans (by decide) token.longer)
  rw [List.getLast?_append_of_ne_nil front nonempty] at last
  exact not_isBlank_of_isPropertyChar (token.properties c (List.mem_of_getLast? last))

namespace DeclaresProperty

variable {text property gap rest : List Char}

theorem ne_colon (shape : DeclaresProperty text property gap rest) :
    ∀ c ∈ property ++ gap, (c != ':') = true := by
  intro c member
  rw [bne_iff_ne]
  rintro rfl
  rcases List.mem_append.mp member with inside | inside
  · exact absurd (shape.token.properties ':' inside) (by decide)
  · exact absurd (shape.blanks ':' inside) (by decide)

theorem eq_append {front text' property' gap' rest' piece : List Char}
    (shape : DeclaresProperty text property gap rest)
    (inner : DeclaresProperty text' property' gap' rest') (whole : text = front ++ text')
    (within : property ++ (gap ++ [':']) = front ++ piece) (nonempty : piece ≠ []) :
    property = front ++ property' := by
  obtain ⟨piece', c, rfl⟩ := (List.eq_nil_or_concat' piece).resolve_left nonempty
  have inside : property ++ gap = front ++ piece' := by
    have cut : (property ++ gap) ++ [':'] = (front ++ piece') ++ [c] := by simpa using within
    exact (List.append_inj' cut rfl).1
  have before : ∀ c ∈ front ++ (property' ++ gap'), (c != ':') = true := by
    intro c member
    rcases List.mem_append.mp member with left | right
    · exact shape.ne_colon c (inside ▸ List.mem_append_left piece' left)
    · exact inner.ne_colon c right
  have same : (property ++ gap) ++ ':' :: rest =
      (front ++ (property' ++ gap')) ++ ':' :: rest' := by
    rw [shape.whole, inner.whole] at whole
    simpa using whole
  have parted := (run_unique shape.ne_colon before (by decide) (by decide) same).1
  -- The gap is what trimming takes off either side.
  calc property = trimEnd (property ++ gap) := (shape.token.trimEnd_append shape.blanks []).symm
    _ = trimEnd (front ++ property' ++ gap') := by rw [parted, List.append_assoc]
    _ = front ++ property' := inner.token.trimEnd_append inner.blanks front

theorem eq_piece {piece rest' : List Char}
    (shape : DeclaresProperty (piece ++ rest) property gap rest')
    (length : piece.length = property.length + (gap.length + 1)) :
    piece = property ++ (gap ++ [':']) ∧ rest = rest' := by
  have parted : piece ++ rest = (property ++ (gap ++ [':'])) ++ rest' := by
    rw [shape.whole]
    simp
  exact List.append_inj parted (by simpa using length)

end DeclaresProperty

theorem longest_behind {front property : List Char}
    (longest : ∀ here, here ≠ [] → here <:+ front → ¬ IsCustomProperty (here ++ property))
    {c : Char} (ends : isPropertyChar c = false) (before : List Char) :
    ∀ here, here ≠ [] → here <:+ before ++ c :: front → ¬ IsCustomProperty (here ++ property) := by
  rintro here nonempty ⟨others, parted⟩ token
  rcases List.append_eq_append_iff.mp parted with ⟨left, -, rfl⟩ | ⟨left, -, inside⟩
  · have member : c ∈ left ++ c :: front ++ property := by simp
    exact absurd (token.properties c member) (by simp [ends])
  · cases left with
    | nil =>
      rw [List.nil_append] at inside
      have member : c ∈ here ++ property := by simp [← inside]
      exact absurd (token.properties c member) (by simp [ends])
    | cons d left =>
      obtain ⟨rfl, rfl⟩ := List.cons_eq_cons.mp inside
      exact longest here nonempty (List.suffix_append left here) token

/-- A custom property stands before a colon, and no longer one ends where it ends. -/
def DeclaredIn (sheet property : List Char) : Prop :=
  ∃ front text gap rest, sheet = front ++ text ∧ DeclaresProperty text property gap rest ∧
    ∀ here, here ≠ [] → here <:+ front → ¬ IsCustomProperty (here ++ property)

namespace DeclaredIn

variable {property : List Char}

theorem not_nil : ¬ DeclaredIn [] property := by
  rintro ⟨front, text, gap, rest, whole, shape, -⟩
  have length := congrArg List.length (shape.whole ▸ whole)
  simp at length

theorem cons_iff {c : Char} {rest : List Char}
    (missed : ∀ property gap rest', ¬ DeclaresProperty (c :: rest) property gap rest') :
    DeclaredIn (c :: rest) property ↔ DeclaredIn rest property := by
  constructor
  · rintro ⟨front, text, gap, rest', whole, shape, longest⟩
    cases front with
    | nil =>
      rw [List.nil_append] at whole
      exact absurd (whole ▸ shape) (missed property gap rest')
    | cons d front =>
      obtain ⟨rfl, rfl⟩ := List.cons_eq_cons.mp whole
      exact ⟨front, text, gap, rest', rfl, shape, fun here nonempty suffix =>
        longest here nonempty (suffix.trans (List.suffix_cons _ _))⟩
  · rintro ⟨front, text, gap, rest', rfl, shape, longest⟩
    refine ⟨c :: front, text, gap, rest', rfl, shape, fun here nonempty suffix token => ?_⟩
    rcases List.suffix_cons_iff.mp suffix with rfl | suffix
    · refine missed _ gap rest' ⟨?_, token, shape.blanks⟩
      rw [shape.whole]
      simp
    · exact longest here nonempty suffix token

theorem append_iff {property' gap rest : List Char}
    (shape : DeclaresProperty (property' ++ (gap ++ [':']) ++ rest) property' gap rest) :
    DeclaredIn (property' ++ (gap ++ [':']) ++ rest) property ↔
      property = property' ∨ DeclaredIn rest property := by
  constructor
  · rintro ⟨front, text, gap', rest', whole, inner, longest⟩
    rcases List.append_eq_append_iff.mp whole with ⟨left, rfl, rfl⟩ | ⟨left, parted, rfl⟩
    · right
      exact ⟨left, text, gap', rest', rfl, inner, fun here nonempty suffix =>
        longest here nonempty (suffix.trans (List.suffix_append _ _))⟩
    -- What begins inside the piece ends at the piece's own colon.
    · by_cases outside : left = []
      · subst outside
        exact .inr ⟨[], rest, gap', rest', rfl, inner, fun here nonempty suffix =>
          absurd (List.suffix_nil.mp suffix) nonempty⟩
      · have longer : property' = front ++ property := shape.eq_append inner whole parted outside
        by_cases none : front = []
        · subst none
          exact .inl longer.symm
        · exact absurd (longer ▸ shape.token) (longest front none List.suffix_rfl)
  · rintro (rfl | ⟨front, text, gap', rest', rfl, inner, longest⟩)
    · exact ⟨[], _, gap, rest, rfl, shape, fun here nonempty suffix =>
        absurd (List.suffix_nil.mp suffix) nonempty⟩
    · have colon : property' ++ (gap ++ [':']) ++ front = (property' ++ gap) ++ ':' :: front := by
        simp
      refine ⟨property' ++ (gap ++ [':']) ++ front, text, gap', rest', by simp, inner, ?_⟩
      rw [colon]
      exact longest_behind longest (by decide) _

end DeclaredIn

open Recognizer in
theorem mem_findings_iff {offset : Nat} {before : Option Char} {text : List Char}
    {found : List (Nat × String)} (search : Findings declaredProperty offset before text found)
    (identifier : String) :
    identifier ∈ found.map Prod.snd ↔ DeclaredIn text identifier.toList := by
  induction search with
  | done => simp [DeclaredIn.not_nil]
  | @pass offset before c rest found missed _ ih =>
    rw [ih, DeclaredIn.cons_iff]
    intro property gap rest' shape
    have read : declaredProperty before (c :: rest) = some _ :=
      declaredProperty_eq_some_iff.mpr ⟨property, gap, rest', shape, rfl, rfl⟩
    exact absurd (missed.symm.trans read) (by simp)
  | @take offset before piece rest value found nonempty read _ ih =>
    obtain ⟨property, gap, rest', shape, length, rfl⟩ := declaredProperty_eq_some_iff.mp read
    obtain ⟨rfl, rfl⟩ := shape.eq_piece length
    rw [List.map_cons, List.mem_cons, ih, DeclaredIn.append_iff shape, ← String.toList_inj,
      String.toList_ofList]

theorem mem_declaredIdentifiers_iff {sheet : List Char} {identifier : String} :
    identifier ∈ declaredIdentifiers sheet ↔ DeclaredIn sheet identifier.toList := by
  rw [declaredIdentifiers, Std.TreeSet.mem_ofList, List.contains_iff_mem]
  have search := Recognizer.findings_findFrom declaredProperty_bounded 0 none sheet
  exact mem_findings_iff search identifier

namespace DeclaredIn

variable {sheet property : List Char}

theorem self {rest : List Char} (token : IsCustomProperty property) :
    DeclaredIn (property ++ ':' :: rest) property :=
  ⟨[], _, [], rest, rfl, ⟨rfl, token, by simp⟩, fun _ nonempty suffix =>
    absurd (List.suffix_nil.mp suffix) nonempty⟩

theorem append (declared : DeclaredIn sheet property) (more : List Char) :
    DeclaredIn (sheet ++ more) property := by
  obtain ⟨front, text, gap, rest, rfl, shape, longest⟩ := declared
  refine ⟨front, text ++ more, gap, rest ++ more, by simp, ⟨?_, shape.token, shape.blanks⟩, longest⟩
  rw [shape.whole]
  simp

/-- A character that is not one of a property parts declarations. -/
theorem behind (declared : DeclaredIn sheet property) {c : Char} (ends : isPropertyChar c = false)
    (before : List Char) : DeclaredIn (before ++ c :: sheet) property := by
  obtain ⟨front, text, gap, rest, rfl, shape, longest⟩ := declared
  exact ⟨before ++ c :: front, text, gap, rest, by simp, shape, longest_behind longest ends before⟩

theorem of_append {tail : List Char} (declared : DeclaredIn (sheet ++ tail) property)
    (plain : ':' ∉ tail) : DeclaredIn sheet property := by
  obtain ⟨front, text, gap, rest, whole, shape, longest⟩ := declared
  have parted : sheet ++ tail = (front ++ (property ++ gap)) ++ ':' :: rest := by
    rw [whole, shape.whole]
    simp
  obtain ⟨left, rfl⟩ := exists_of_notMem_tail parted plain
  exact ⟨front, property ++ (gap ++ ':' :: left), gap, left, by simp,
    ⟨rfl, shape.token, shape.blanks⟩, longest⟩

/-- A character that can stand in no declaration parts them both ways. -/
theorem part {before : List Char} {c : Char} (declared : DeclaredIn (before ++ c :: sheet) property)
    (ends : isPropertyChar c = false) (dark : isBlank c = false) (colon : c ≠ ':') :
    DeclaredIn before property ∨ DeclaredIn sheet property := by
  obtain ⟨front, text, gap, rest, whole, shape, longest⟩ := declared
  have outside : c ∉ property ++ (gap ++ [':']) := by
    intro member
    rcases List.mem_append.mp member with inside | inside
    · exact absurd (shape.token.properties c inside) (by simp [ends])
    · rcases List.mem_append.mp inside with inside | inside
      · exact absurd (shape.blanks c inside) (by simp [dark])
      · exact colon (List.mem_singleton.mp inside)
  have parted : before ++ c :: sheet = front ++ ((property ++ (gap ++ [':'])) ++ rest) := by
    rw [whole, shape.whole]
    simp
  rcases piece_cases parted outside with ⟨left, rfl⟩ | ⟨left, rfl, rfl⟩
  · left
    exact ⟨front, _, gap, left, rfl, ⟨by simp, shape.token, shape.blanks⟩, longest⟩
  · right
    refine ⟨left, _, gap, rest, rfl, ⟨by simp, shape.token, shape.blanks⟩, ?_⟩
    intro here nonempty suffix
    exact longest here nonempty (suffix.trans ⟨before ++ [c], by simp⟩)

end DeclaredIn

end Declared

section Colors

open Recognizer

variable {text property gap value stop rest : List Char}

def colorsOf (tokens : List TokenDeclaration) : List (String × String) :=
  tokens.filterMap fun declaration =>
    (ColorIndex.colorOf? declaration).map fun color => (color, declaration.identifier)

theorem colorsOf_append (first second : List TokenDeclaration) :
    colorsOf (first ++ second) = colorsOf first ++ colorsOf second := by
  rw [colorsOf, List.filterMap_append]
  rfl

def blockColors (block : List Char) : List (String × String) :=
  colorsOf ((tokenDeclaration.findAll block).map Prod.snd)

theorem reads_tokens (text : List Char) :
    Reads tokenDeclaration text ((findAll tokenDeclaration text).map Prod.snd) :=
  reads_findAll tokenDeclaration_bounded (fun _ _ _ => rfl) text

theorem blockColors_eq {tokens : List TokenDeclaration}
    (reads : Reads tokenDeclaration text tokens) : blockColors text = colorsOf tokens := by
  rw [blockColors, reads.map_snd_findAll]

theorem tokenDeclaration_cons {before : Option Char} {c : Char} (other : c ≠ '-')
    (rest : List Char) : tokenDeclaration before (c :: rest) = none := by
  cases read : tokenDeclaration before (c :: rest) with
  | none => rfl
  | some success =>
    obtain ⟨property, gap, value, stop, rest', shape, -⟩ := tokenDeclaration_eq_some_iff.mp read
    obtain ⟨more, rfl⟩ := shape.token.dashes
    exact absurd (List.cons_eq_cons.mp shape.whole).1 other

theorem blockColors_cons {c : Char} (other : c ≠ '-') (rest : List Char) :
    blockColors (c :: rest) = blockColors rest :=
  blockColors_eq ((reads_tokens rest).pass fun _ => tokenDeclaration_cons other rest)

namespace DeclaresToken

theorem tokenDeclaration_eq (shape : DeclaresToken text property gap value stop rest)
    (before : Option Char) :
    tokenDeclaration before text =
      some (property.length + (gap.length + 1) + value.length + stop.length, read property value) :=
  tokenDeclaration_eq_some_iff.mpr ⟨property, gap, value, stop, rest, shape, rfl, rfl⟩

theorem eq_run (shape : DeclaresToken text property gap value stop rest) :
    text = (property ++ (gap ++ ':' :: value)) ++ (stop ++ rest) := by
  rw [shape.whole]
  simp

theorem append (shape : DeclaresToken text property gap value stop rest) (closed : stop ≠ [])
    (back : List Char) : DeclaresToken (text ++ back) property gap value stop (rest ++ back) := by
  refine ⟨?_, shape.token, shape.blanks, shape.filled, shape.values, ?_⟩
  · rw [shape.whole]
    simp
  · exact .inr (shape.ends.resolve_left fun opened => closed opened.1)

theorem exists_of_append {here back : List Char}
    (shape : DeclaresToken (here ++ back) property gap value stop rest)
    (ended : ∃ c ∈ here.getLast?, isValueChar c = false) :
    stop ≠ [] ∧ ∃ rest', DeclaresToken here property gap value stop rest' := by
  obtain ⟨c, last, special⟩ := ended
  have run := isValueChar_of_mem_run shape.token.properties shape.blanks shape.values
  obtain ⟨d, left, whole, behind⟩ := exists_of_run_append run last special shape.eq_run
  rcases shape.ends with ⟨rfl, rfl⟩ | closed
  · cases behind
  · obtain ⟨s, rfl⟩ : ∃ s, stop = [s] := by
      rcases closed with rfl | rfl <;> exact ⟨_, rfl⟩
    obtain ⟨rfl, -⟩ := List.cons_eq_cons.mp behind
    exact ⟨by simp, left, by simp [whole], shape.token, shape.blanks, shape.filled, shape.values,
      .inr closed⟩

theorem eq_nil_of_open {piece : List Char}
    (shape : DeclaresToken (piece ++ rest) property gap value [] [])
    (length : piece.length =
      property.length + (gap.length + 1) + value.length + ([] : List Char).length) :
    rest = [] := by
  have total := congrArg List.length shape.whole
  simp at total length
  rw [← List.length_eq_zero_iff]
  omega

/-- One more blank, or a semicolon, closes the last value and adds nothing to it. -/
theorem tokenDeclaration_pad {c : Char} (shape : DeclaresToken text property gap value [] [])
    (pad : c = ';' ∨ isBlank c = true) (before : Option Char) :
    tokenDeclaration before (text ++ [c]) =
      some ((text ++ [c]).length, DeclaresToken.read property value) := by
  rw [tokenDeclaration_eq_some_iff]
  have whole := shape.whole
  rcases pad with rfl | blank
  · refine ⟨property, gap, value, [';'], [], ⟨by simp [whole], shape.token, shape.blanks,
      shape.filled, shape.values, .inr (.inl rfl)⟩, ?_, rfl⟩
    simp [whole]
    omega
  · have values : ∀ d ∈ value ++ [c], isValueChar d = true := by
      simp only [List.mem_append, List.mem_singleton]
      rintro d (inside | rfl)
      · exact shape.values d inside
      · exact isValueChar_of_isBlank blank
    refine ⟨property, gap, value ++ [c], [], [], ⟨by simp [whole], shape.token, shape.blanks,
      by simp, values, .inl ⟨rfl, rfl⟩⟩, ?_, ?_⟩
    · simp [whole]
      omega
    · rw [DeclaresToken.read, DeclaresToken.read, trim_append_blank blank]

theorem exists_of_pad {c : Char}
    (shape : DeclaresToken (text ++ [c]) property gap value stop rest) :
    (∃ value stop rest, DeclaresToken text property gap value stop rest) ∨
      text = property ++ (gap ++ [':']) ∧ value = [c] ∧ stop = [] ∧ rest = [] := by
  have parted := shape.eq_run
  rcases shape.ends with ⟨rfl, rfl⟩ | closed
  · obtain ⟨value', d, rfl⟩ := (List.eq_nil_or_concat' value).resolve_left shape.filled
    obtain ⟨rfl, same⟩ : text = property ++ (gap ++ ':' :: value') ∧ [c] = [d] :=
      List.append_inj' (by simpa using parted) rfl
    obtain rfl : c = d := by simpa using same
    by_cases filled : value' = []
    · subst filled
      exact .inr ⟨rfl, rfl, rfl, rfl⟩
    · exact .inl ⟨value', [], [], by simp, shape.token, shape.blanks, filled,
        fun d inside => shape.values d (List.mem_append_left _ inside), .inl ⟨rfl, rfl⟩⟩
  · left
    rcases List.eq_nil_or_concat' rest with rfl | ⟨rest', d, rfl⟩
    · obtain ⟨rfl, -⟩ : text = property ++ (gap ++ ':' :: value) ∧ [c] = stop :=
        List.append_inj' (by simpa using parted) (by rcases closed with rfl | rfl <;> rfl)
      exact ⟨value, [], [], by simp, shape.token, shape.blanks, shape.filled, shape.values,
        .inl ⟨rfl, rfl⟩⟩
    · obtain ⟨rfl, -⟩ : text = property ++ (gap ++ ':' :: value) ++ (stop ++ rest') ∧ [c] = [d] :=
        List.append_inj' (by simpa using parted) rfl
      exact ⟨value, stop, rest', by simp, shape.token, shape.blanks, shape.filled, shape.values,
        .inr closed⟩

end DeclaresToken

theorem blockColors_append {front : List Char}
    (ended : ∀ c ∈ front.getLast?, isValueChar c = false) (back : List Char) :
    blockColors (front ++ back) = blockColors front ++ blockColors back := by
  have stable : ∀ (before : Option Char) (here : List Char), here ≠ [] → here <:+ front →
      tokenDeclaration before (here ++ back) = tokenDeclaration before here := by
    rintro before here nonempty ⟨others, rfl⟩
    have last : ∃ c ∈ here.getLast?, isValueChar c = false := by
      refine ⟨here.getLast nonempty, List.getLast?_eq_some_getLast nonempty, ended _ ?_⟩
      rw [List.getLast?_append_of_ne_nil others nonempty]
      exact List.getLast?_eq_some_getLast nonempty
    refine Option.ext fun ⟨taken, found⟩ => ?_
    rw [tokenDeclaration_eq_some_iff, tokenDeclaration_eq_some_iff]
    constructor
    · rintro ⟨property, gap, value, stop, rest, shape, rfl, rfl⟩
      obtain ⟨-, rest', shape'⟩ := shape.exists_of_append last
      exact ⟨property, gap, value, stop, rest', shape', rfl, rfl⟩
    · rintro ⟨property, gap, value, stop, rest, shape, rfl, rfl⟩
      rw [← List.append_nil here] at shape
      have closed := (shape.exists_of_append last).1
      rw [List.append_nil] at shape
      exact ⟨property, gap, value, stop, rest ++ back, shape.append closed back, rfl, rfl⟩
  rw [blockColors_eq ((reads_tokens front).append stable (reads_tokens back)), colorsOf_append]
  rfl

theorem tokenDeclaration_of_no_colon {before : Option Char} {front : List Char} {c : Char}
    (plain : ':' ∉ front) : tokenDeclaration before (front ++ [c]) = none := by
  cases read : tokenDeclaration before (front ++ [c]) with
  | none => rfl
  | some success =>
    obtain ⟨property, gap, value, stop, rest, shape, -⟩ := tokenDeclaration_eq_some_iff.mp read
    obtain ⟨value', d, last⟩ :=
      (List.eq_nil_or_concat' (value ++ (stop ++ rest))).resolve_left (by simp [shape.filled])
    have parted : front ++ [c] = (property ++ (gap ++ ':' :: value')) ++ [d] := by
      rw [shape.whole, last]
      simp
    obtain ⟨rfl, -⟩ := List.append_inj' parted rfl
    exact absurd (by simp) plain

theorem reads_nil_of_no_colon {front : List Char} {c : Char} (plain : ':' ∉ front) :
    Reads tokenDeclaration (front ++ [c]) [] := by
  induction front with
  | nil => exact .pass (fun _ => tokenDeclaration_of_no_colon List.not_mem_nil) .nil
  | cons d front ih =>
    have rest := ih fun inside => plain (List.mem_cons_of_mem d inside)
    exact rest.pass fun _ => tokenDeclaration_of_no_colon plain

theorem reads_nil_of_declares {c : Char} {behind : List Char}
    (shape : DeclaresProperty text property gap behind)
    (whole : c :: rest = property ++ (gap ++ [':'])) : Reads tokenDeclaration rest [] := by
  have colon := shape.ne_colon
  obtain ⟨more, rfl⟩ := shape.token.dashes
  obtain ⟨-, rfl⟩ : c = '-' ∧ rest = ('-' :: more ++ gap) ++ [':'] := by simpa using whole
  refine reads_nil_of_no_colon fun member => ?_
  exact absurd (colon ':' (List.mem_cons_of_mem '-' member)) (by decide)

theorem colorsOf_read_blank (property : List Char) {c : Char} (blank : isBlank c = true) :
    colorsOf [DeclaresToken.read property [c]] = [] := by
  rw [DeclaresToken.read, trim_cons_blank blank]
  rfl

theorem exists_reads_pad {offset : Nat} {before : Option Char} {c : Char}
    {found : List (Nat × TokenDeclaration)}
    (search : Findings tokenDeclaration offset before text found)
    (pad : c = ';' ∨ isBlank c = true) :
    ∃ tokens, Reads tokenDeclaration (text ++ [c]) tokens ∧
      colorsOf tokens = colorsOf (found.map Prod.snd) := by
  induction search with
  | done =>
    refine ⟨[], .pass (fun before => tokenDeclaration_cons ?_ []) .nil, rfl⟩
    rintro rfl
    exact absurd pad (by decide)
  | @pass offset before d rest found missed search ih =>
    obtain ⟨tokens, reads, same⟩ := ih
    cases read : tokenDeclaration before (d :: (rest ++ [c])) with
    | none => exact ⟨tokens, reads.pass fun _ => read, same⟩
    | some success =>
      -- A place where nothing was read may read once there is one more blank.
      obtain ⟨property, gap, value, stop, rest', shape, length, declared⟩ :=
        tokenDeclaration_eq_some_iff.mp read
      rw [← List.cons_append] at shape
      rcases shape.exists_of_pad with ⟨value', stop', others, shape'⟩ | ⟨whole, rfl, rfl, rfl⟩
      · exact absurd (missed.symm.trans (shape'.tokenDeclaration_eq before)) (by simp)
      -- Then the text is a property and its colon, and the new value is that blank.
      · have blank : isBlank c = true := by
          refine pad.resolve_left ?_
          rintro rfl
          exact absurd (shape.values ';' List.mem_cons_self) (by decide)
        have plain : Reads tokenDeclaration rest [] :=
          reads_nil_of_declares ⟨shape.whole, shape.token, shape.blanks⟩ whole
        refine ⟨[DeclaresToken.read property [c]], .whole (by simp) fun before => ?_, ?_⟩
        · rw [shape.tokenDeclaration_eq, whole]
          simp
          omega
        · rw [colorsOf_read_blank property blank, plain.map_snd_eq search]
          rfl
  | @take offset before piece rest declaration found nonempty read search ih =>
    obtain ⟨tokens, reads, same⟩ := ih
    obtain ⟨property, gap, value, stop, rest', shape, length, rfl⟩ :=
      tokenDeclaration_eq_some_iff.mp read
    rcases shape.ends with ⟨rfl, rfl⟩ | closed
    · obtain rfl : rest = [] := shape.eq_nil_of_open length
      rw [List.append_nil] at shape ⊢
      refine ⟨_, .whole (by simp) (shape.tokenDeclaration_pad pad), ?_⟩
      rw [List.map_cons, Reads.nil.map_snd_eq search]
    · have longer := shape.append (by rcases closed with rfl | rfl <;> simp) [c]
      rw [List.append_assoc] at longer ⊢
      refine ⟨DeclaresToken.read property value :: tokens, reads.take nonempty fun before => ?_, ?_⟩
      · rw [longer.tokenDeclaration_eq, length]
      · rw [List.map_cons, ← List.singleton_append, colorsOf_append, same, ← colorsOf_append]
        rfl

theorem blockColors_pad {c : Char} (pad : c = ';' ∨ isBlank c = true) (text : List Char) :
    blockColors (text ++ [c]) = blockColors text := by
  obtain ⟨tokens, reads, same⟩ :=
    exists_reads_pad (findings_findFrom tokenDeclaration_bounded 0 none text) pad
  rw [blockColors_eq reads, same]
  rfl

theorem blockColors_blanks {gap : List Char} (blanks : ∀ c ∈ gap, isBlank c = true)
    (text : List Char) : blockColors (text ++ gap) = blockColors text := by
  induction gap generalizing text with
  | nil => rw [List.append_nil]
  | cons c gap ih =>
    rw [List.append_cons, ih fun d member => blanks d (List.mem_cons_of_mem c member),
      blockColors_pad (.inr (blanks c List.mem_cons_self))]

theorem blockColors_gap {gap : List Char} (blanks : ∀ c ∈ gap, isBlank c = true)
    (text : List Char) : blockColors (gap ++ text) = blockColors text := by
  induction gap with
  | nil => rfl
  | cons c gap ih =>
    have other : c ≠ '-' := by
      rintro rfl
      exact absurd (blanks '-' List.mem_cons_self) (by decide)
    rw [List.cons_append, blockColors_cons other, ih fun d member =>
      blanks d (List.mem_cons_of_mem c member)]

def sheetColors (sheet : List Char) : List (String × String) :=
  colorsOf (rootTokens sheet)

theorem sheetColors_eq {sheet : List Char} {block : RootBlock}
    (found : rootBlock? sheet = some block) : sheetColors sheet = blockColors block.inner := by
  rw [sheetColors, rootTokens, found]
  rfl

theorem sheetColors_eq_nil {sheet : List Char} (none : rootBlock? sheet = none) :
    sheetColors sheet = [] := by
  rw [sheetColors, rootTokens, none]
  rfl

theorem getElem?_ofSheet (sheet : List Char) (color : String) :
    (ColorIndex.ofSheet sheet)[color]? = (sheetColors sheet).lookup color :=
  ColorIndex.getElem?_ofPairs (sheetColors sheet) color

end Colors

end ColorTokens
