import ColorTokens.Proofs.Token.Reading

/-! Which declaration counts. In a style sheet the last declaration of an identifier outside
comments is the effective one; the index takes the first declaration of a colour, comment or not.
The two agree as long as comments hold no declarations and no indexed one is overridden. -/

set_option autoImplicit false

namespace ColorTokens

open ColorTokens.Text
open ColorTokens.Source

namespace Source

def Phase.isComment : Phase → Bool
  | .lineComment | .blockComment | .star => true
  | _ => false

/-- Whether a character belongs to a comment: it is read in one, or it is one of the two that open
one. -/
def commented (phase : Phase) (c : Char) (rest : List Char) : Bool :=
  phase.isComment || (phase.next c).isComment ||
    -- A slash is part of a comment only if the character behind it opens one.
    rest.head?.any fun d => ((phase.next c).next d).isComment

/-- A text with blanks for its comments, by the phases that braces are matched with. -/
def maskFrom : Phase → List Char → List Char
  | _, [] => []
  | phase, c :: rest =>
    (if commented phase c rest then ' ' else c) :: maskFrom (phase.next c) rest

theorem isComment_next_of_open {phase : Phase} (inert : phase.isComment = false) {c : Char}
    (comment : (phase.next c).isComment = true) : phase = .slash ∧ (c = '/' ∨ c = '*') := by
  cases phase with
  | slash =>
    refine ⟨rfl, ?_⟩
    by_contra other
    rw [not_or] at other
    by_cases quote : isQuote c = true <;>
      simp [Phase.next, other.1, other.2, quote, Phase.isComment] at comment
  | code =>
    simp only [Phase.next] at comment
    split at comment
    · cases comment
    · split at comment <;> cases comment
  | quoted quote =>
    simp only [Phase.next] at comment
    split at comment
    · cases comment
    · split at comment <;> cases comment
  | escaped quote => cases comment
  | lineComment => cases inert
  | blockComment => cases inert
  | star => cases inert

theorem eq_slash_of_next {phase : Phase} {c : Char} (slash : phase.next c = .slash) : c = '/' := by
  by_contra other
  cases phase with
  | code =>
    simp only [Phase.next, other, if_false] at slash
    split at slash <;> cases slash
  | slash =>
    simp only [Phase.next, other, if_false] at slash
    split at slash
    · cases slash
    · split at slash <;> cases slash
  | lineComment =>
    simp only [Phase.next] at slash
    split at slash <;> cases slash
  | blockComment =>
    simp only [Phase.next] at slash
    split at slash <;> cases slash
  | star =>
    simp only [Phase.next, other, if_false] at slash
    split at slash <;> cases slash
  | quoted quote =>
    simp only [Phase.next] at slash
    split at slash
    · cases slash
    · split at slash <;> cases slash
  | escaped quote => cases slash

theorem maskFrom_of_plain {text : List Char} {phase : Phase} (inert : phase.isComment = false)
    (opens : phase = .slash → ∀ c ∈ text.head?, c ≠ '/' ∧ c ≠ '*')
    (line : ¬ "//".toList <:+: text) (block : ¬ "/*".toList <:+: text) :
    maskFrom phase text = text := by
  induction text generalizing phase with
  | nil => rfl
  | cons c rest ih =>
    have next : (phase.next c).isComment = false := by
      rw [Bool.eq_false_iff]
      intro comment
      obtain ⟨slash, here⟩ := isComment_next_of_open inert comment
      have plain := opens slash c rfl
      exact here.elim plain.1 plain.2
    -- A slash with a second one or a star behind it would open a comment.
    have ahead : phase.next c = .slash → ∀ d ∈ rest.head?, d ≠ '/' ∧ d ≠ '*' := by
      intro slash d first
      obtain rfl := eq_slash_of_next slash
      obtain ⟨behind, rfl⟩ := List.head?_eq_some_iff.mp first
      constructor
      · rintro rfl
        exact line ⟨[], behind, rfl⟩
      · rintro rfl
        exact block ⟨[], behind, rfl⟩
    have kept : commented phase c rest = false := by
      rw [commented, inert, next, Bool.false_or, Bool.false_or]
      cases first : rest.head? with
      | none => rfl
      | some d =>
        rw [Option.any_some, Bool.eq_false_iff]
        intro comment
        obtain ⟨slash, there⟩ := isComment_next_of_open next comment
        have plain := ahead slash d first
        exact there.elim plain.1 plain.2
    have others := ih next ahead (fun inside => line (inside.trans (List.suffix_cons c rest).isInfix))
      (fun inside => block (inside.trans (List.suffix_cons c rest).isInfix))
    rw [maskFrom, kept, others]
    rfl

end Source

/-- The declarations of the root block outside comments. -/
def liveTokens (sheet : List Char) : List TokenDeclaration :=
  match rootBlock? sheet with
  | some block => (tokenDeclaration.findAll (maskFrom .code block.inner)).map Prod.snd
  | none => []

/-- The declaration that an identifier has its value from. -/
def effective? (sheet : List Char) (identifier : String) : Option TokenDeclaration :=
  (liveTokens sheet).reverse.find? (·.identifier == identifier)

/-- Every indexed colour is the one that its identifier has. -/
def Faithful (sheet : List Char) : Prop :=
  ∀ color identifier : String, (ColorIndex.ofSheet sheet)[color]? = some identifier →
    ∃ declaration, effective? sheet identifier = some declaration ∧
      Color.normalize? declaration.value = some color

section First

def IsFirst (front : List TokenDeclaration) (declaration : TokenDeclaration) (color : String) :
    Prop :=
  ColorIndex.colorOf? declaration = some color ∧
    ∀ earlier ∈ front, ColorIndex.colorOf? earlier ≠ some color

theorem lookup_colorsOf (tokens : List TokenDeclaration) (color : String) :
    (colorsOf tokens).lookup color =
      (tokens.find? (ColorIndex.colorOf? · == some color)).map (·.identifier) := by
  induction tokens with
  | nil => rfl
  | cons declaration rest ih =>
    rw [← List.singleton_append, colorsOf_append, List.lookup_append, ih, List.singleton_append,
      List.find?_cons]
    cases given : ColorIndex.colorOf? declaration with
    | none => simp [colorsOf, given]
    | some color' =>
      by_cases same : color = color'
      · subst same
        simp [colorsOf, given]
      · have different : (color == color') = false := by simpa using same
        have different' : (some color' == some color) = false := by simpa using Ne.symm same
        simp [colorsOf, given, different, different', List.lookup_cons]

theorem getElem?_ofSheet_iff {sheet : List Char} {color identifier : String} :
    (ColorIndex.ofSheet sheet)[color]? = some identifier ↔
      ∃ front declaration back, rootTokens sheet = front ++ declaration :: back ∧
        IsFirst front declaration color ∧ declaration.identifier = identifier := by
  rw [getElem?_ofSheet, sheetColors, lookup_colorsOf, Option.map_eq_some_iff]
  simp only [List.find?_eq_some_iff_append, IsFirst, beq_iff_eq]
  constructor
  · rintro ⟨declaration, ⟨given, front, back, whole, missed⟩, same⟩
    refine ⟨front, declaration, back, whole, ⟨given, fun earlier member => ?_⟩, same⟩
    simpa using missed earlier member
  · rintro ⟨front, declaration, back, whole, ⟨given, missed⟩, same⟩
    refine ⟨declaration, ⟨given, front, back, whole, fun earlier member => ?_⟩, same⟩
    simpa using missed earlier member

end First

section Last

theorem effective?_eq_some_iff {sheet : List Char} {identifier : String}
    {declaration : TokenDeclaration} :
    effective? sheet identifier = some declaration ↔
      declaration.identifier = identifier ∧ ∃ front back,
        liveTokens sheet = front ++ declaration :: back ∧
        ∀ later ∈ back, later.identifier ≠ identifier := by
  rw [effective?, List.find?_eq_some_iff_append, beq_iff_eq]
  apply and_congr_right
  intro same
  constructor
  · rintro ⟨back, front, whole, missed⟩
    refine ⟨front.reverse, back.reverse, ?_, fun later member => ?_⟩
    · simpa using congrArg List.reverse whole
    · simpa using missed later (List.mem_reverse.mp member)
  · rintro ⟨front, back, whole, missed⟩
    refine ⟨back.reverse, front.reverse, by simp [whole], fun later member => ?_⟩
    simpa using missed later (List.mem_reverse.mp member)

theorem exists_last (declaration : TokenDeclaration) (rest : List TokenDeclaration) :
    (∀ later ∈ rest, later.identifier ≠ declaration.identifier) ∨
      ∃ middle last back, rest = middle ++ last :: back ∧
        last.identifier = declaration.identifier ∧
        ∀ later ∈ back, later.identifier ≠ declaration.identifier := by
  induction rest with
  | nil => exact .inl (by simp)
  | cons first rest ih =>
    rcases ih with missed | ⟨middle, last, back, rfl, same, missed⟩
    · by_cases same : first.identifier = declaration.identifier
      · exact .inr ⟨[], first, rest, rfl, same, missed⟩
      · exact .inl (List.forall_mem_cons.mpr ⟨same, missed⟩)
    · exact .inr ⟨first :: middle, last, back, rfl, same, missed⟩

end Last

/-- Some declaration is the first with its colour, and the last one of its identifier comes behind
it and has another colour or none. -/
def Overridden (tokens : List TokenDeclaration) : Prop :=
  ∃ front declaration middle last back color,
    tokens = front ++ declaration :: (middle ++ last :: back) ∧ IsFirst front declaration color ∧
    last.identifier = declaration.identifier ∧
    (∀ later ∈ back, later.identifier ≠ declaration.identifier) ∧
    Color.normalize? last.value ≠ some color

section Agreement

variable {sheet : List Char}

theorem Faithful.color_unique (faithful : Faithful sheet) {color color' identifier : String}
    (indexed : (ColorIndex.ofSheet sheet)[color]? = some identifier)
    (indexed' : (ColorIndex.ofSheet sheet)[color']? = some identifier) : color = color' := by
  obtain ⟨declaration, last, normal⟩ := faithful color identifier indexed
  obtain ⟨declaration', last', normal'⟩ := faithful color' identifier indexed'
  rw [last] at last'
  cases last'
  exact Option.some.inj (normal.symm.trans normal')

theorem faithful_iff_of_live (live : liveTokens sheet = rootTokens sheet) :
    Faithful sheet ↔ ¬ Overridden (rootTokens sheet) := by
  constructor
  · rintro faithful ⟨front, declaration, middle, last, back, color, whole, first, same, missed,
      other⟩
    obtain ⟨effective, found, normal⟩ := faithful color declaration.identifier
      (getElem?_ofSheet_iff.mpr ⟨front, declaration, _, whole, first, rfl⟩)
    have overriding : effective? sheet declaration.identifier = some last := by
      refine effective?_eq_some_iff.mpr ⟨same, front ++ declaration :: middle, back, ?_, missed⟩
      rw [live, whole]
      simp
    rw [overriding] at found
    cases found
    exact other normal
  · intro kept color identifier indexed
    obtain ⟨front, declaration, rest, whole, first, rfl⟩ := getElem?_ofSheet_iff.mp indexed
    rcases exists_last declaration rest with missed | ⟨middle, last, back, rfl, same, missed⟩
    -- No later declaration has the identifier, so the indexed one is effective.
    · refine ⟨declaration, effective?_eq_some_iff.mpr ⟨rfl, front, rest, ?_, missed⟩,
        normalize?_of_colorOf? first.1⟩
      rw [live, whole]
    · refine ⟨last, effective?_eq_some_iff.mpr ⟨same, front ++ declaration :: middle, back, ?_,
        missed⟩, ?_⟩
      · rw [live, whole]
        simp
      · by_contra other
        exact kept ⟨front, declaration, middle, last, back, color, whole, first, same, missed, other⟩

theorem liveTokens_of_plain (plain : ∀ block, rootBlock? sheet = some block →
      ¬ "//".toList <:+: block.inner ∧ ¬ "/*".toList <:+: block.inner) :
    liveTokens sheet = rootTokens sheet := by
  unfold liveTokens rootTokens
  cases found : rootBlock? sheet with
  | none => rfl
  | some block =>
    obtain ⟨line, star⟩ := plain block found
    have bare : maskFrom .code block.inner = block.inner :=
      maskFrom_of_plain rfl (fun slash => nomatch slash) line star
    simp only [bare]

theorem not_overridden_of_nodup {tokens : List TokenDeclaration}
    (distinct : (tokens.map (·.identifier)).Nodup) : ¬ Overridden tokens := by
  rintro ⟨front, declaration, middle, last, back, color, rfl, -, same, -⟩
  rw [List.map_append, List.map_cons] at distinct
  obtain ⟨absent, -⟩ := List.nodup_cons.mp distinct.of_append_right
  exact absent (by simp [same])

end Agreement

/-- What the index says of a sheet. A colour leads to the first declaration that gives it. Where no
comment holds a declaration or stands inside a value, the identifier it leads to has that colour
exactly when no indexed declaration is overridden, as is so of a block without comments that declares
nothing twice; and where every identifier has its colour, no two colours share one. -/
theorem index_leads_to_first (sheet : List Char) :
    (∀ color identifier : String, (ColorIndex.ofSheet sheet)[color]? = some identifier ↔
      ∃ front declaration back, rootTokens sheet = front ++ declaration :: back ∧
        IsFirst front declaration color ∧ declaration.identifier = identifier) ∧
    (liveTokens sheet = rootTokens sheet →
      (Faithful sheet ↔ ¬ Overridden (rootTokens sheet))) ∧
    ((∀ block, rootBlock? sheet = some block →
        ¬ "//".toList <:+: block.inner ∧ ¬ "/*".toList <:+: block.inner) →
      ((rootTokens sheet).map (·.identifier)).Nodup → Faithful sheet) ∧
    (Faithful sheet → ∀ color color' identifier : String,
      (ColorIndex.ofSheet sheet)[color]? = some identifier →
      (ColorIndex.ofSheet sheet)[color']? = some identifier → color = color') := by
  refine ⟨fun color identifier => getElem?_ofSheet_iff, faithful_iff_of_live, ?_, ?_⟩
  · intro plain distinct
    exact (faithful_iff_of_live (liveTokens_of_plain plain)).mpr (not_overridden_of_nodup distinct)
  · intro faithful color color' identifier indexed indexed'
    exact faithful.color_unique indexed indexed'

/-- A comment between declarations that holds none is no harm. -/
theorem index_leads_to_first_commented :
    liveTokens ":root \x7b /* ink; */ --ink: #000; \x7d".toList =
        rootTokens ":root \x7b /* ink; */ --ink: #000; \x7d".toList ∧
      Faithful ":root \x7b /* ink; */ --ink: #000; \x7d".toList := by
  have live : liveTokens ":root \x7b /* ink; */ --ink: #000; \x7d".toList =
      rootTokens ":root \x7b /* ink; */ --ink: #000; \x7d".toList := by
    decide +kernel
  have kept : ¬ Overridden (rootTokens ":root \x7b /* ink; */ --ink: #000; \x7d".toList) :=
    not_overridden_of_nodup (by decide +kernel)
  exact ⟨live, ((index_leads_to_first _).2.1 live).mpr kept⟩

/-- An identifier that is declared again has two colours in the index, and one that is declared in
a comment alone has one. -/
theorem not_faithful_of_override_or_comment :
    ¬ Faithful ":root \x7b --ink: #fff; --ink: #000; \x7d".toList ∧
      ¬ Faithful ":root \x7b /* --old: #fff; */ --ink: #000; \x7d".toList := by
  constructor
  · intro faithful
    obtain ⟨declaration, found, normal⟩ := faithful "#ffffff" "--ink" (by decide +kernel)
    have last : effective? ":root \x7b --ink: #fff; --ink: #000; \x7d".toList "--ink" =
        some ⟨"--ink", "#000"⟩ := by
      decide +kernel
    rw [last] at found
    cases found
    exact absurd normal (by decide +kernel)
  · intro faithful
    obtain ⟨declaration, found, -⟩ := faithful "#ffffff" "--old" (by decide +kernel)
    have none : effective? ":root \x7b /* --old: #fff; */ --ink: #000; \x7d".toList "--old" =
        none := by
      decide +kernel
    rw [none] at found
    cases found

end ColorTokens
