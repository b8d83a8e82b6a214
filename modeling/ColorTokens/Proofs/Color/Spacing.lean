import ColorTokens.Proofs.Color.Parts
import ColorTokens.Proofs.Text.Substitution

/-! Spacing by substitution. The canonical arguments of a function are what three substitutions
leave of their text, one after the other: a run of blanks becomes a space, a comma takes the blanks
around it and leaves a space behind, a slash takes the blanks around it and leaves one on either
side. A text is seen as its arguments with the gaps between them, of which a substitution changes
nothing but the gaps. -/

set_option autoImplicit false

namespace ColorTokens.Color

open ColorTokens.Text

section Layouts

def Argument.written : Argument → List Char
  | .comma => [',']
  | .slash => ['/']
  | .word text => text

def isWordPart : Option Argument → Bool
  | some (.word _) => true
  | _ => false

/-- Words are not empty and hold nothing that would end them. -/
def Argument.Whole : Argument → Prop
  | .word text => text ≠ [] ∧ ∀ c ∈ text, isArgumentChar c = true
  | _ => True

/-- Arguments with the gaps before, between and behind them. -/
inductive Layout where
  | stop (gap : List Char)
  | next (gap : List Char) (argument : Argument) (more : Layout)

namespace Layout

def gap : Layout → List Char
  | stop gap => gap
  | next gap _ _ => gap

def text : Layout → List Char
  | stop gap => gap
  | next gap argument more => gap ++ (argument.written ++ more.text)

def bare : Layout → List Char
  | stop _ => []
  | next _ argument more => argument.written ++ more.text

def arguments : Layout → List Argument
  | stop _ => []
  | next _ argument more => argument :: more.arguments

def last : Layout → List Char
  | stop gap => gap
  | next _ _ more => more.last

/-- Gaps hold nothing but blanks, and two words have one between them. -/
def Sound : (previous : Option Argument) → Layout → Prop
  | _, stop gap => ∀ c ∈ gap, isBlank c = true
  | previous, next gap argument more =>
    (∀ c ∈ gap, isBlank c = true) ∧ argument.Whole ∧
      (isWordPart previous = true → isWordPart (some argument) = true → gap ≠ []) ∧
      more.Sound (some argument)

variable {layout : Layout} {previous : Option Argument}

theorem text_eq (layout : Layout) : layout.text = layout.gap ++ layout.bare := by
  cases layout with
  | stop gap => exact (List.append_nil gap).symm
  | next gap argument more => rfl

theorem last_suffix (layout : Layout) : layout.last <:+ layout.text := by
  induction layout with
  | stop gap => exact List.suffix_rfl
  | next gap argument more ih =>
    have behind : more.text <:+ gap ++ (argument.written ++ more.text) :=
      (List.suffix_append argument.written more.text).trans (List.suffix_append gap _)
    exact ih.trans behind

theorem Sound.blank_gap (sound : layout.Sound previous) : ∀ c ∈ layout.gap, isBlank c = true := by
  cases layout with
  | stop gap => exact sound
  | next gap argument more => exact sound.1

theorem Sound.blank_last (sound : layout.Sound previous) :
    ∀ c ∈ layout.last, isBlank c = true := by
  induction layout generalizing previous with
  | stop gap => exact sound
  | next gap argument more ih => exact ih sound.2.2.2

theorem Sound.last_eq_nil (sound : layout.Sound previous)
    (dark : ∀ c ∈ layout.text.getLast?, isBlank c = false) : layout.last = [] := by
  by_contra present
  obtain ⟨front, parted⟩ := layout.last_suffix
  have final : layout.last.getLast present ∈ layout.text.getLast? := by
    rw [← parted, List.getLast?_append_of_ne_nil _ present, List.getLast?_eq_some_getLast present]
    rfl
  have blank := sound.blank_last _ (List.getLast_mem present)
  exact Bool.false_ne_true ((dark _ final).symm.trans blank)

theorem Sound.gap_eq_nil (sound : layout.Sound previous)
    (dark : ∀ c ∈ layout.text.head?, isBlank c = false) : layout.gap = [] := by
  by_contra present
  obtain ⟨c, gap, parted⟩ := List.exists_cons_of_ne_nil present
  have blank := sound.blank_gap c (by rw [parted]; exact List.mem_cons_self)
  have first : c ∈ layout.text.head? := by
    rw [text_eq, parted]
    rfl
  exact Bool.false_ne_true ((dark c first).symm.trans blank)

end Layout

variable {argument : Argument}

theorem Argument.Whole.dark (whole : argument.Whole) :
    argument.written ≠ [] ∧ ∀ c ∈ argument.written, isBlank c = false := by
  cases argument with
  | comma => exact ⟨List.cons_ne_nil _ _, List.forall_mem_singleton.mpr (by decide)⟩
  | slash => exact ⟨List.cons_ne_nil _ _, List.forall_mem_singleton.mpr (by decide)⟩
  | word text =>
    refine ⟨whole.1, fun c member => ?_⟩
    have letter := whole.2 c member
    simp only [isArgumentChar, Bool.and_eq_true, Bool.not_eq_true'] at letter
    exact letter.1.1

theorem Layout.Sound.dark_bare {layout : Layout} {previous : Option Argument}
    (sound : layout.Sound previous) : ∀ c ∈ layout.bare.head?, isBlank c = false := by
  cases layout with
  | stop gap => simp [Layout.bare]
  | next gap argument more =>
    obtain ⟨nonempty, dark⟩ := sound.2.1.dark
    intro c first
    rw [Layout.bare, List.head?_append_of_ne_nil _ nonempty] at first
    exact dark c (List.mem_of_head? first)

theorem Argument.Parts.exists_layout {text : List Char} {arguments : List Argument}
    (parts : Argument.Parts text arguments) {previous : Option Argument}
    (apart : isWordPart previous = true → ∀ c ∈ text.head?, isArgumentChar c = false) :
    ∃ layout : Layout, layout.Sound previous ∧ layout.text = text ∧
      layout.arguments = arguments := by
  induction parts generalizing previous with
  | nil => exact ⟨.stop [], by simp [Layout.Sound], rfl, rfl⟩
  | @blank c rest arguments blank _ ih =>
    -- The blank is more of the gap that the rest begins with.
    obtain ⟨layout, sound, rfl, rfl⟩ := @ih none Bool.noConfusion
    cases layout with
    | stop gap =>
      exact ⟨.stop (c :: gap), List.forall_mem_cons.mpr ⟨blank, sound⟩, rfl, rfl⟩
    | next gap argument more =>
      obtain ⟨blanks, whole, -, others⟩ := sound
      exact ⟨.next (c :: gap) argument more, ⟨List.forall_mem_cons.mpr ⟨blank, blanks⟩, whole,
        fun _ _ => List.cons_ne_nil _ _, others⟩, rfl, rfl⟩
  | comma _ ih =>
    obtain ⟨layout, sound, rfl, rfl⟩ := @ih (some .comma) Bool.noConfusion
    exact ⟨.next [] .comma layout, ⟨by simp, trivial, fun _ => Bool.noConfusion, sound⟩, rfl, rfl⟩
  | slash _ ih =>
    obtain ⟨layout, sound, rfl, rfl⟩ := @ih (some .slash) Bool.noConfusion
    exact ⟨.next [] .slash layout, ⟨by simp, trivial, fun _ => Bool.noConfusion, sound⟩, rfl, rfl⟩
  | @word word rest arguments nonempty letters ends _ ih =>
    obtain ⟨layout, sound, rfl, rfl⟩ := @ih (some (.word word)) fun _ => ends
    refine ⟨.next [] (.word word) layout, ⟨by simp, ⟨nonempty, letters⟩, ?_, sound⟩, rfl, rfl⟩
    intro word' _
    obtain ⟨c, word, rfl⟩ := List.exists_cons_of_ne_nil nonempty
    have letter := letters c List.mem_cons_self
    have ended := apart word' c (by simp)
    rw [letter] at ended
    exact absurd ended (by decide)

end Layouts

section Passes

variable {sign : Argument} {mark : Char} {ahead behind : List Char}

namespace Layout

def collapse : Layout → Layout
  | stop gap => stop (single gap)
  | next gap argument more => next (single gap) argument more.collapse

/-- Gaps next to a sign give way to what the sign brings; all others stay. -/
def regap (sign : Argument) (ahead behind : List Char) : (after : Bool) → Layout → Layout
  | after, stop gap => stop (if after then behind else gap)
  | after, next gap argument more =>
    let here := decide (argument = sign)
    let brought := (if after then behind else []) ++ (if here then ahead else [])
    next (if after || here then brought else gap) argument (more.regap sign ahead behind here)

variable {layout : Layout} {previous : Option Argument}

theorem blank_single {gap : List Char} : ∀ c ∈ single gap, isBlank c = true := by
  unfold single
  split
  · simp
  · simp only [List.mem_singleton, forall_eq]
    decide

theorem Sound.collapse (sound : layout.Sound previous) : layout.collapse.Sound previous := by
  induction layout generalizing previous with
  | stop gap => exact blank_single
  | next gap argument more ih =>
    obtain ⟨-, whole, apart, others⟩ := sound
    refine ⟨blank_single, whole, ?_, ih others⟩
    intro before word
    simp [single, apart before word]

theorem replaceAll_blankRun (sound : layout.Sound previous) :
    replaceAll blankRun [' '] layout.text = layout.collapse.text := by
  induction layout generalizing previous with
  | stop gap =>
    have dark : ∀ c ∈ ([] : List Char).head?, isBlank c = false := by simp
    have whole := replaceAll_blankRun_gap sound dark
    rw [List.append_nil] at whole
    exact whole.trans (List.append_nil _)
  | next gap argument more ih =>
    have dark := sound.dark_bare
    rw [Layout.bare] at dark
    rw [Layout.text, replaceAll_blankRun_gap sound.1 dark,
      replaceAll_blankRun_dark sound.2.1.dark.2, ih sound.2.2.2]
    rfl

end Layout

/-- A sign is one dark character, which no other argument holds. -/
structure Argument.Signed (sign : Argument) (mark : Char) : Prop where
  written : sign.written = [mark]
  dark : isBlank mark = false
  only : ∀ argument : Argument, argument.Whole → argument ≠ sign → mark ∉ argument.written

theorem Argument.notMem_word {word : List Char} {c : Char} (whole : (Argument.word word).Whole)
    (ends : isArgumentChar c = false) : c ∉ word := by
  intro member
  rw [whole.2 c member] at ends
  exact absurd ends (by decide)

theorem Argument.signed_comma : Argument.Signed .comma ',' where
  written := rfl
  dark := by decide
  only argument whole other := by
    cases argument with
    | comma => exact absurd rfl other
    | slash => decide
    | word word => exact Argument.notMem_word whole (by decide)

theorem Argument.signed_slash : Argument.Signed .slash '/' where
  written := rfl
  dark := by decide
  only argument whole other := by
    cases argument with
    | comma => decide
    | slash => exact absurd rfl other
    | word word => exact Argument.notMem_word whole (by decide)

namespace Layout

variable {layout : Layout} {previous : Option Argument}

theorem replaceAll_signRun_front {argument : Argument} {gap : List Char} (new rest : List Char)
    (signed : sign.Signed mark) (blanks : ∀ c ∈ gap, isBlank c = true) (whole : argument.Whole)
    (other : argument ≠ sign) :
    replaceAll (signRun mark) new (gap ++ (argument.written ++ rest)) =
      gap ++ (argument.written ++ replaceAll (signRun mark) new rest) := by
  obtain ⟨nonempty, dark⟩ := whole.dark
  have absent := signed.only argument whole other
  rw [← List.append_assoc, ← List.append_assoc]
  apply replaceAll_front
  intro here here_nonempty suffix
  -- A place in the gap or in the argument has some of the argument ahead, with blanks before it.
  have ahead : ∃ gap' c left, here = gap' ++ c :: left ∧ (∀ c ∈ gap', isBlank c = true) ∧
      c ∈ argument.written := by
    obtain ⟨front, parted⟩ := suffix
    rcases List.append_eq_append_iff.mp parted with ⟨gap', rfl, rfl⟩ | ⟨front', -, inside⟩
    · obtain ⟨c, left, written⟩ := List.exists_cons_of_ne_nil nonempty
      rw [written]
      exact ⟨gap', c, left, rfl, fun c member => blanks c (List.mem_append_right _ member),
        List.mem_cons_self⟩
    · obtain ⟨c, left, rfl⟩ := List.exists_cons_of_ne_nil here_nonempty
      rw [inside]
      exact ⟨[], c, left, rfl, by simp, List.mem_append_right _ List.mem_cons_self⟩
  obtain ⟨gap', c, left, rfl, blanks', member⟩ := ahead
  rw [List.append_assoc, List.cons_append]
  apply signRun_of_dark blanks' (dark c member)
  rintro rfl
  exact absent member

theorem replaceAll_signRun_taken {gap : List Char} (new : List Char) (signed : sign.Signed mark)
    (blanks : ∀ c ∈ gap, isBlank c = true) (sound : layout.Sound previous) :
    replaceAll (signRun mark) new (gap ++ (sign.written ++ layout.text)) =
      new ++ replaceAll (signRun mark) new layout.bare := by
  have parted : gap ++ (sign.written ++ layout.text) =
      (gap ++ mark :: layout.gap) ++ layout.bare := by
    rw [signed.written, text_eq layout]
    simp
  rw [parted]
  apply replaceAll_take (by simp)
  exact signRun_of_sign signed.dark blanks sound.blank_gap sound.dark_bare

/-- One substitution does to a layout's gaps what its sign brings to them. Behind a sign the gap is
taken already, and what the sign brought stands in its place. -/
theorem replaceAll_signRun (ahead behind : List Char) (signed : sign.Signed mark)
    (sound : layout.Sound previous) :
    replaceAll (signRun mark) (ahead ++ mark :: behind) layout.text =
        (layout.regap sign ahead behind false).text ∧
      behind ++ replaceAll (signRun mark) (ahead ++ mark :: behind) layout.bare =
        (layout.regap sign ahead behind true).text := by
  -- Both at once: a sign takes the gap behind it, and from there the text goes on without it.
  induction layout generalizing previous with
  | stop gap =>
    refine ⟨?_, List.append_nil behind⟩
    have passed : replaceAll (signRun mark) (ahead ++ mark :: behind) (gap ++ []) = gap ++ [] := by
      apply replaceAll_front
      intro here _ suffix
      rw [List.append_nil]
      exact signRun_of_blanks fun c member => sound c (suffix.mem member)
    rwa [List.append_nil] at passed
  | next gap argument more ih =>
    obtain ⟨blanks, whole, -, others⟩ := sound
    obtain ⟨before, after⟩ := ih others
    by_cases here : argument = sign
    · subst here
      constructor
      · rw [text, replaceAll_signRun_taken _ signed blanks others]
        simp [regap, text, signed.written, after]
      · have bare := replaceAll_signRun_taken (ahead ++ mark :: behind) signed
          (List.forall_mem_nil (isBlank · = true)) others
        rw [List.nil_append] at bare
        rw [Layout.bare, bare]
        simp [regap, text, signed.written, after]
    · constructor
      · rw [text, replaceAll_signRun_front _ _ signed blanks whole here, before]
        simp [regap, text, here]
      · have bare := replaceAll_signRun_front (ahead ++ mark :: behind) more.text signed
          (List.forall_mem_nil (isBlank · = true)) whole here
        rw [List.nil_append, List.nil_append] at bare
        rw [Layout.bare, bare, before]
        simp [regap, text, here]

theorem Sound.regap (sound : layout.Sound previous) {after : Bool}
    (plain : isWordPart (some sign) = false) (blanks : ∀ c ∈ ahead ++ behind, isBlank c = true)
    (signed : after = true → isWordPart previous = false) :
    (layout.regap sign ahead behind after).Sound previous := by
  have blanks_ahead : ∀ c ∈ ahead, isBlank c = true := fun c member =>
    blanks c (List.mem_append_left _ member)
  have blanks_behind : ∀ c ∈ behind, isBlank c = true := fun c member =>
    blanks c (List.mem_append_right _ member)
  induction layout generalizing previous after with
  | stop gap =>
    cases after with
    | true => exact blanks_behind
    | false => exact sound
  | next gap argument more ih =>
    obtain ⟨blank, whole, apart, others⟩ := sound
    refine ⟨?_, whole, ?_, ih others ?_⟩
    · intro c member
      grind
    -- Between two words no sign is near, and the gap is the one that was there.
    · intro before word
      have behindWord : after = false := by
        cases after with
        | true => exact absurd before (by simp [signed rfl])
        | false => rfl
      have other : argument ≠ sign := by
        rintro rfl
        exact absurd word (by simp [plain])
      simpa [behindWord, other] using apart before word
    · intro here
      rw [of_decide_eq_true here]
      exact plain

def respaced (previous : Option Argument) (layout : Layout) : Layout :=
  (layout.collapse.regap .comma [] [' '] (decide (previous = some .comma))).regap .slash [' '] [' ']
    (decide (previous = some .slash))

end Layout

end Passes

section Rendering

def Argument.between : (previous : Option Argument) → Argument → List Char
  | none, .slash => [' ']
  | none, _ => []
  | some .comma, _ => [' ']
  | some .slash, .slash => [' ', ' ']
  | some .slash, _ => [' ']
  | some (.word _), .comma => []
  | some (.word _), _ => [' ']

def Argument.trail : (previous : Option Argument) → List Char
  | some .comma => [' ']
  | some .slash => [' ']
  | _ => []

def Argument.spaced : (previous : Option Argument) → List Argument → List Char
  | previous, [] => Argument.trail previous
  | previous, argument :: rest =>
    Argument.between previous argument ++ (argument.written ++ Argument.spaced (some argument) rest)

theorem Argument.exists_render_cons (previous argument : Argument) (rest : List Argument) :
    ∃ link, Argument.render (previous :: argument :: rest) =
        link ++ Argument.render (argument :: rest) ∧
      link ++ Argument.between none argument = Argument.between none previous ++
        (previous.written ++ Argument.between (some previous) argument) := by
  cases previous with
  | comma => cases argument <;> exact ⟨_, rfl, rfl⟩
  | slash => cases argument <;> exact ⟨_, rfl, rfl⟩
  | word text => cases argument <;> exact ⟨_, rfl, by simp [Argument.between, Argument.written]⟩

theorem Argument.render_eq_spaced (arguments : List Argument) :
    Argument.render arguments = Argument.spaced none arguments := by
  cases arguments with
  | nil => rfl
  | cons previous rest =>
    -- Rendering looks at two arguments at a time, so the first one is kept out of the induction.
    induction rest generalizing previous with
    | nil =>
      cases previous with
      | comma => rfl
      | slash => rfl
      | word text => rfl
    | cons argument rest ih =>
      obtain ⟨link, rendered, linked⟩ := Argument.exists_render_cons previous argument rest
      rw [rendered, ih argument, Argument.spaced, ← List.append_assoc, linked]
      simp only [Argument.spaced, List.append_assoc]

variable {layout : Layout} {previous : Option Argument}

theorem Layout.respaced_next {gap : List Char} {argument : Argument} (more : Layout)
    (first : previous = none → gap = [])
    (apart : isWordPart previous = true → isWordPart (some argument) = true → gap ≠ []) :
    (Layout.next gap argument more).respaced previous =
      .next (Argument.between previous argument) argument (more.respaced (some argument)) := by
  -- Only two words keep the gap that was there, and then it is one space.
  rcases previous with _ | _ | _ | before
  · cases argument <;> simp [first, Layout.respaced, Layout.collapse, Layout.regap,
      Argument.between, single]
  · cases argument <;> rfl
  · cases argument <;> rfl
  · cases argument with
    | comma => rfl
    | slash => rfl
    | word word =>
      simp [apart rfl rfl, Layout.respaced, Layout.collapse, Layout.regap, Argument.between, single]

/-- What the substitutions leave is what rendering writes, if nothing surrounds the arguments. -/
theorem Layout.text_respaced (sound : layout.Sound previous)
    (first : previous = none → layout.gap = []) (last : layout.last = []) :
    (layout.respaced previous).text = Argument.spaced previous layout.arguments := by
  induction layout generalizing previous with
  | stop gap =>
    rw [Layout.last] at last
    subst last
    -- Behind the last argument there is a gap only where a sign has brought it.
    rcases previous with _ | _ | _ | _ <;> rfl
  | next gap argument more ih =>
    obtain ⟨-, -, apart, others⟩ := sound
    have first' : previous = none → gap = [] := first
    rw [Layout.respaced_next more first' apart, Layout.text, ih others (by simp) last]
    rfl

/-- Arguments with one way of spacing them, by one substitution after the other. -/
def respace (text : List Char) : List Char :=
  let spaced := replaceAll blankRun [' '] (trim text)
  let listed := replaceAll (signRun ',') [',', ' '] spaced
  replaceAll (signRun '/') [' ', '/', ' '] listed

theorem respace_eq_render (text : List Char) :
    respace text = Argument.render (Argument.ofText text) := by
  obtain ⟨layout, sound, written, read⟩ :=
    (Argument.parts_iff.mpr (Argument.ofText_trim text)).exists_layout
      (Bool.noConfusion : isWordPart none = true → _)
  obtain ⟨dark_first, dark_last⟩ := dark_trim text
  rw [← written] at dark_first dark_last
  have listed : (layout.collapse.regap .comma [] [' '] false).Sound none :=
    sound.collapse.regap rfl (List.forall_mem_singleton.mpr (by decide)) Bool.noConfusion
  have blanks := Layout.replaceAll_blankRun sound
  have commas : replaceAll (signRun ',') [',', ' '] layout.collapse.text =
      (layout.collapse.regap .comma [] [' '] false).text :=
    (Layout.replaceAll_signRun [] [' '] Argument.signed_comma sound.collapse).1
  have slashes : replaceAll (signRun '/') [' ', '/', ' ']
      (layout.collapse.regap .comma [] [' '] false).text = (layout.respaced none).text :=
    (Layout.replaceAll_signRun [' '] [' '] Argument.signed_slash listed).1
  calc respace text
      = (layout.respaced none).text := by
        rw [respace, ← written]
        simp only [blanks, commas, slashes]
    _ = Argument.spaced none layout.arguments :=
        Layout.text_respaced sound (fun _ => sound.gap_eq_nil dark_first)
          (sound.last_eq_nil dark_last)
    _ = Argument.render (Argument.ofText text) := by
        rw [read, Argument.render_eq_spaced]

end Rendering

end ColorTokens.Color
