import ColorTokens.Proofs.Text.Recognizer
import ColorTokens.Proofs.Text.Runs
import ColorTokens.Source.Declaration
import Mathlib.Control.Basic

/-! Style declarations by their shape. A text begins with a declaration exactly if it is a property,
a gap, a colon and a value that a semicolon ends; the shape also fixes what is read. Texts that
differ only inside such values have their declarations at the same places. -/

set_option autoImplicit false

namespace ColorTokens.Source

open ColorTokens.Text

section Characters

theorem isPropertyChar_iff (c : Char) :
    isPropertyChar c = true ↔ c.toNat = 45 ∨ 48 ≤ c.toNat ∧ c.toNat ≤ 57 ∨
      65 ≤ c.toNat ∧ c.toNat ≤ 90 ∨ 97 ≤ c.toNat ∧ c.toNat ≤ 122 := by
  have ranges : isPropertyChar c =
      ((((decide (65 ≤ c.val ∧ c.val ≤ 90)) || (97 ≤ c.val && c.val ≤ 122)) ||
        (48 ≤ c.val && c.val ≤ 57)) || c == '-') := rfl
  simp only [ranges, Bool.or_eq_true, Bool.and_eq_true, decide_eq_true_eq, beq_iff_eq,
    UInt32.le_iff_toNat_le, ← Char.toNat_inj]
  change ((65 ≤ c.toNat ∧ c.toNat ≤ 90 ∨ 97 ≤ c.toNat ∧ c.toNat ≤ 122) ∨
    48 ≤ c.toNat ∧ c.toNat ≤ 57) ∨ c.toNat = 45 ↔ _
  omega

theorem not_isBlank_of_isPropertyChar {c : Char} (property : isPropertyChar c = true) :
    isBlank c = false := by
  rw [isPropertyChar_iff] at property
  exact isBlank_eq_false (by omega) (by omega)

theorem not_isPropertyChar_of_isBlank {c : Char} (blank : isBlank c = true) :
    isPropertyChar c = false := by
  by_contra property
  rw [Bool.not_eq_false] at property
  rw [not_isBlank_of_isPropertyChar property] at blank
  cases blank

theorem not_isPropertyChar_of_gap {gap rest : List Char} (blanks : ∀ c ∈ gap, isBlank c = true) :
    ∀ c ∈ (gap ++ ':' :: rest).head?, isPropertyChar c = false := by
  intro c first
  cases gap with
  | nil =>
    obtain rfl : ':' = c := by simpa using first
    decide
  | cons d gap =>
    obtain rfl : d = c := by simpa using first
    exact not_isPropertyChar_of_isBlank (blanks d (by simp))

theorem isValueChar_eq_false_iff {c : Char} :
    isValueChar c = false ↔ c = ';' ∨ c = '{' ∨ c = '}' := by
  simp only [isValueChar, Bool.and_eq_false_iff, bne_eq_false_iff_eq, or_assoc]

theorem isValueChar_of_isBlank {c : Char} (blank : isBlank c = true) : isValueChar c = true := by
  by_contra stops
  rw [Bool.not_eq_true, isValueChar_eq_false_iff] at stops
  rcases stops with rfl | rfl | rfl <;> exact absurd blank (by decide)

theorem isValueChar_of_isPropertyChar {c : Char} (property : isPropertyChar c = true) :
    isValueChar c = true := by
  by_contra stops
  rw [Bool.not_eq_true, isValueChar_eq_false_iff] at stops
  rcases stops with rfl | rfl | rfl <;> exact absurd property (by decide)

end Characters

section Colons

variable {text gap body : List Char}

theorem afterColon?_eq_some_iff {count : Nat} :
    afterColon? text = some (count, body) ↔
      ∃ gap, text = gap ++ ':' :: body ∧ (∀ c ∈ gap, isBlank c = true) ∧ count = gap.length + 1 := by
  constructor
  · intro read
    unfold afterColon? at read
    split at read
    · next rest behind =>
      cases read
      refine ⟨text.takeWhile isBlank, ?_, fun c => List.mem_takeWhile_imp, rfl⟩
      rw [← behind, List.takeWhile_append_dropWhile]
    · cases read
  · rintro ⟨gap, rfl, blank, rfl⟩
    have ends : ∀ c ∈ (':' :: body).head?, isBlank c = false := by simp; decide
    simp only [afterColon?, dropWhile_run blank ends, takeWhile_run blank ends]

end Colons

structure Declares (text property gap value rest : List Char) : Prop where
  whole : text = property ++ (gap ++ ':' :: (value ++ ';' :: rest))
  named : property ≠ []
  properties : ∀ c ∈ property, isPropertyChar c = true
  blanks : ∀ c ∈ gap, isBlank c = true
  filled : value ≠ []
  values : ∀ c ∈ value, isValueChar c = true

namespace Declares

def read (property gap value : List Char) : Declaration :=
  ⟨property, byteLength (property ++ (gap ++ ':' :: value.takeWhile isBlank)), trimStart value⟩

def piece (property gap value : List Char) : List Char :=
  property ++ (gap ++ ':' :: (value ++ [';']))

variable {text property gap value rest : List Char}

theorem value_ends : ∀ c ∈ (';' :: rest).head?, isValueChar c = false := by
  simp
  decide

theorem declaration_eq (shape : Declares text property gap value rest) (before : Option Char) :
    declaration before text =
      some ((piece property gap value).length, read property gap value) := by
  have colon : afterColon? (gap ++ ':' :: (value ++ ';' :: rest)) =
      some (gap.length + 1, value ++ ';' :: rest) :=
    afterColon?_eq_some_iff.mpr ⟨gap, rfl, shape.blanks, rfl⟩
  have head : text.take (property.length + (gap.length + 1)) = property ++ (gap ++ [':']) := by
    rw [shape.whole, List.take_length_add_append, List.take_length_add_append]
    simp
  have named : property.isEmpty = false := by simpa using shape.named
  have filled : value.isEmpty = false := by simpa using shape.filled
  have property_eq : text.takeWhile isPropertyChar = property := by
    rw [shape.whole, takeWhile_run shape.properties (not_isPropertyChar_of_gap shape.blanks)]
  have behind : text.dropWhile isPropertyChar = gap ++ ':' :: (value ++ ';' :: rest) := by
    rw [shape.whole, dropWhile_run shape.properties (not_isPropertyChar_of_gap shape.blanks)]
  simp only [declaration, property_eq, behind, named, colon, Bool.not_false, guard_true,
    Option.pure_def, Option.bind_eq_bind, Option.bind_some, head,
    takeWhile_run shape.values value_ends, dropWhile_run shape.values value_ends, filled,
    List.head?_cons, BEq.rfl, Bool.and_self]
  simp [piece, read, Nat.add_assoc, Nat.add_left_comm]

end Declares

theorem exists_declares {before : Option Char} {text : List Char} {taken : Nat}
    {found : Declaration} (made : declaration before text = some (taken, found)) :
    ∃ property gap value rest, Declares text property gap value rest ∧
      taken = (Declares.piece property gap value).length ∧
      found = Declares.read property gap value := by
  have success := made
  simp only [declaration, Option.bind_eq_bind, Option.bind_eq_some_iff, Option.guard_eq_some',
    Prod.exists, afterColon?_eq_some_iff, Bool.and_eq_true, Bool.not_eq_true',
    List.isEmpty_eq_false_iff, beq_iff_eq, List.head?_eq_some_iff] at success
  obtain ⟨_, named, _, body, ⟨gap, behind, blanks, rfl⟩, _, ⟨filled, rest, closed⟩, -⟩ := success
  have shape : Declares text (text.takeWhile isPropertyChar) gap (body.takeWhile isValueChar) rest := {
    whole := by
      rw [← closed, List.takeWhile_append_dropWhile, ← behind, List.takeWhile_append_dropWhile]
    named
    properties := fun c => List.mem_takeWhile_imp
    blanks
    filled
    values := fun c => List.mem_takeWhile_imp }
  have same := (shape.declaration_eq before).symm.trans made
  simp only [Option.some.injEq, Prod.mk.injEq] at same
  exact ⟨_, gap, _, rest, shape, same.1.symm, same.2.symm⟩

theorem declaration_bounded : Recognizer.Bounded declaration := by
  intro before text taken found success
  obtain ⟨property, gap, value, rest, shape, rfl, _⟩ := exists_declares success
  simp only [shape.whole, Declares.piece, List.length_append, List.length_cons, List.length_nil]
  omega

theorem declares_of_taken {before : Option Char} {piece rest : List Char} {found : Declaration}
    (taken : declaration before (piece ++ rest) = some (piece.length, found)) :
    ∃ property gap value, Declares (piece ++ rest) property gap value rest ∧
      piece = Declares.piece property gap value ∧ found = Declares.read property gap value := by
  obtain ⟨property, gap, value, rest', shape, length, rfl⟩ := exists_declares taken
  have whole : piece ++ rest = Declares.piece property gap value ++ rest' := by
    rw [shape.whole]
    simp [Declares.piece]
  obtain ⟨rfl, rfl⟩ := List.append_inj whole length
  exact ⟨property, gap, value, shape, rfl, rfl⟩

section Ends

variable {here back property gap value rest : List Char}

theorem Declares.append (shape : Declares here property gap value rest) (back : List Char) :
    Declares (here ++ back) property gap value (rest ++ back) where
  whole := by simp [shape.whole]
  named := shape.named
  properties := shape.properties
  blanks := shape.blanks
  filled := shape.filled
  values := shape.values

/-- A property, the blanks behind it, a colon and a value are one run of value characters. -/
theorem isValueChar_of_mem_run (properties : ∀ c ∈ property, isPropertyChar c = true)
    (blanks : ∀ c ∈ gap, isBlank c = true) (values : ∀ c ∈ value, isValueChar c = true) :
    ∀ c ∈ property ++ (gap ++ ':' :: value), isValueChar c = true := by
  simp only [List.mem_append, List.mem_cons]
  rintro c (inside | inside | rfl | inside)
  · exact isValueChar_of_isPropertyChar (properties c inside)
  · exact isValueChar_of_isBlank (blanks c inside)
  · decide
  · exact values c inside

/-- What follows a text that ends with no value character changes no declaration in it. -/
theorem declaration_append {c : Char} (last : here.getLast? = some c)
    (ends : isValueChar c = false) (before : Option Char) (back : List Char) :
    declaration before (here ++ back) = declaration before here := by
  cases read : declaration before here with
  | some success =>
    obtain ⟨property, gap, value, rest, shape, taken, found⟩ := exists_declares read
    rw [(shape.append back).declaration_eq before, ← taken, ← found]
  | none =>
    rw [Option.eq_none_iff_forall_ne_some]
    intro success read'
    obtain ⟨property, gap, value, rest, shape, -⟩ := exists_declares read'
    have parted : here ++ back = (property ++ (gap ++ ':' :: value)) ++ ';' :: rest := by
      rw [shape.whole]
      simp
    have run := isValueChar_of_mem_run shape.properties shape.blanks shape.values
    obtain ⟨d, left, whole, behind⟩ := exists_of_run_append run last ends parted
    obtain ⟨rfl, -⟩ := List.cons_eq_cons.mp behind
    have shape' : Declares here property gap value left :=
      ⟨by simp [whole], shape.named, shape.properties, shape.blanks, shape.filled, shape.values⟩
    rw [shape'.declaration_eq before] at read
    cases read

end Ends

/-- Two texts that differ at most between a colon and the semicolon that ends its value. -/
inductive SameFrame : List Char → List Char → Prop where
  | nil : SameFrame [] []
  | char (c : Char) {rest rest' : List Char} :
      SameFrame rest rest' → SameFrame (c :: rest) (c :: rest')
  | value {value value' rest rest' : List Char} : value ≠ [] → value' ≠ [] →
      (∀ c ∈ value, isValueChar c = true) → (∀ c ∈ value', isValueChar c = true) →
      SameFrame rest rest' →
      SameFrame (':' :: (value ++ ';' :: rest)) (':' :: (value' ++ ';' :: rest'))

namespace SameFrame

variable {text text' : List Char}

theorem symm (frame : SameFrame text text') : SameFrame text' text := by
  induction frame with
  | nil => exact .nil
  | char c _ ih => exact .char c ih
  | value filled filled' values values' _ ih => exact .value filled' filled values' values ih

theorem append_left (front : List Char) (frame : SameFrame text text') :
    SameFrame (front ++ text) (front ++ text') := by
  induction front with
  | nil => exact frame
  | cons c front ih => exact .char c ih

theorem exists_value {value rest : List Char} (values : ∀ c ∈ value, isValueChar c = true)
    (frame : SameFrame (value ++ ';' :: rest) text') :
    ∃ value' rest', text' = value' ++ ';' :: rest' ∧ (∀ c ∈ value', isValueChar c = true) ∧
      (value ≠ [] → value' ≠ []) := by
  induction value generalizing text' with
  | nil =>
    cases frame with
    | char => exact ⟨[], _, rfl, by simp, id⟩
  | cons d value ih =>
    have inner : ∀ c ∈ value, isValueChar c = true := fun c member => values c (by simp [member])
    generalize same : d :: value ++ ';' :: rest = text at frame
    cases frame with
    | nil => cases same
    | char c frame =>
      obtain ⟨rfl, rfl⟩ := List.cons.inj same
      obtain ⟨value', rest', rfl, values', _⟩ := ih inner frame
      refine ⟨d :: value', rest', rfl, ?_, by simp⟩
      exact List.forall_mem_cons.mpr ⟨values d (by simp), values'⟩
    | @value _ value' _ rest' _ _ _ values' =>
      refine ⟨':' :: value', rest', rfl, ?_, by simp⟩
      exact List.forall_mem_cons.mpr ⟨by decide, values'⟩

theorem exists_colon {lead value rest : List Char} (lead_ne : ∀ c ∈ lead, c ≠ ':')
    (filled : value ≠ []) (values : ∀ c ∈ value, isValueChar c = true)
    (frame : SameFrame (lead ++ ':' :: (value ++ ';' :: rest)) text') :
    ∃ value' rest', text' = lead ++ ':' :: (value' ++ ';' :: rest') ∧ value' ≠ [] ∧
      ∀ c ∈ value', isValueChar c = true := by
  induction lead generalizing text' with
  | nil =>
    generalize same : [] ++ ':' :: (value ++ ';' :: rest) = text at frame
    cases frame with
    | nil => cases same
    | char c frame =>
      obtain ⟨rfl, rfl⟩ := List.cons.inj same
      obtain ⟨value', rest', rfl, values', filled'⟩ := exists_value values frame
      exact ⟨value', rest', rfl, filled' filled, values'⟩
    | @value _ value' _ rest' _ filled' _ values' => exact ⟨value', rest', rfl, filled', values'⟩
  | cons d lead ih =>
    generalize same : d :: lead ++ ':' :: (value ++ ';' :: rest) = text at frame
    cases frame with
    | nil => cases same
    | char c frame =>
      obtain ⟨rfl, rfl⟩ := List.cons.inj same
      obtain ⟨value', rest', rfl, filled', values'⟩ :=
        ih (fun c member => lead_ne c (by simp [member])) frame
      exact ⟨value', rest', rfl, filled', values'⟩
    | value => exact absurd (List.cons.inj same).1 (lead_ne d (by simp))

theorem exists_declares {property gap value rest : List Char}
    (shape : Declares text property gap value rest) (frame : SameFrame text text') :
    ∃ value' rest', Declares text' property gap value' rest' := by
  have lead_ne : ∀ c ∈ property ++ gap, c ≠ ':' := by
    rintro c member rfl
    rcases List.mem_append.mp member with member | member
    · exact absurd (shape.properties _ member) (by decide)
    · exact absurd (shape.blanks _ member) (by decide)
  rw [shape.whole, ← List.append_assoc] at frame
  obtain ⟨value', rest', rfl, filled', values'⟩ :=
    exists_colon lead_ne shape.filled shape.values frame
  exact ⟨value', rest', by simp, shape.named, shape.properties, shape.blanks, filled', values'⟩

theorem declaration_eq_none {before before' : Option Char} (frame : SameFrame text text')
    (missed : declaration before text = none) : declaration before' text' = none := by
  by_contra success
  obtain ⟨⟨taken, found⟩, success⟩ := Option.ne_none_iff_exists'.mp success
  obtain ⟨property, gap, value, rest, shape, _⟩ := Source.exists_declares success
  obtain ⟨value', rest', shape⟩ := exists_declares shape frame.symm
  rw [shape.declaration_eq before] at missed
  cases missed

end SameFrame

end ColorTokens.Source
