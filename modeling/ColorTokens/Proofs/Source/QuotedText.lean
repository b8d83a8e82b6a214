import ColorTokens.Proofs.Source.Block
import ColorTokens.Source.Attribute
import ColorTokens.Source.QuotedText

/-! Quoted texts along the phases of a reader. A quoted text begins at a quote that is read as code
and goes on as long as the reader does not come back to code; the spans that are reported are those
of the contents between single and double quotes. -/

set_option autoImplicit false

namespace ColorTokens.Source

open ColorTokens.Text

namespace Phase

def after (phase : Phase) (text : List Char) : Phase :=
  text.foldl Phase.next phase

def stays : Phase → List Char → Bool
  | _, [] => true
  | phase, c :: rest => !(phase.next c).isCode && (phase.next c).stays rest

/-- The phase with nothing pending: no slash, star or backslash that waits for what is next. -/
def rest : Phase → Phase
  | .code | .slash => .code
  | .lineComment => .lineComment
  | .blockComment | .star => .blockComment
  | .quoted quote | .escaped quote => .quoted quote

variable {phase : Phase} {quote c : Char}

theorem after_append (phase : Phase) (front back : List Char) :
    phase.after (front ++ back) = (phase.after front).after back :=
  List.foldl_append

theorem stays_append (phase : Phase) (front back : List Char) :
    phase.stays (front ++ back) = (phase.stays front && (phase.after front).stays back) := by
  induction front generalizing phase with
  | nil => rfl
  | cons c front ih => rw [List.cons_append, stays, stays, ih, Bool.and_assoc]; rfl

/-- A comment or a quoted text stays what it is as long as it is not over. -/
theorem rest_next (inside : phase.isCode = false) (still : (phase.next c).isCode = false) :
    (phase.next c).rest = phase.rest := by
  cases phase with
  | code => cases inside
  | slash => cases inside
  | lineComment =>
    by_cases newline : c = '\n'
    · simp [Phase.next, newline, isCode] at still
    · simp [Phase.next, newline]
  | blockComment => by_cases star : c = '*' <;> simp [Phase.next, star, rest]
  | star =>
    by_cases slash : c = '/'
    · simp [Phase.next, slash, isCode] at still
    · by_cases star : c = '*' <;> simp [Phase.next, slash, star, rest]
  | quoted quote =>
    by_cases backslash : c = '\\'
    · simp [Phase.next, backslash, rest]
    · by_cases closes : c = quote
      · subst closes
        simp [Phase.next, backslash, isCode] at still
      · simp [Phase.next, backslash, closes]
  | escaped quote => rfl

theorem rest_after {text : List Char} (inside : phase.isCode = false)
    (still : phase.stays text = true) : (phase.after text).rest = phase.rest := by
  induction text generalizing phase with
  | nil => rfl
  | cons c text ih =>
    rw [stays, Bool.and_eq_true, Bool.not_eq_true'] at still
    rw [after, List.foldl_cons, ← rest_next inside still.1]
    exact ih still.1 still.2

theorem next_of_isCode (code : phase.isCode = true) (quoted : isQuote c = true) :
    phase.next c = .quoted c := by
  have slash : c ≠ '/' := by rintro rfl; exact absurd quoted (by decide)
  have star : c ≠ '*' := by rintro rfl; exact absurd quoted (by decide)
  cases phase with
  | code => simp [Phase.next, slash, quoted]
  | slash => simp [Phase.next, slash, star, quoted]
  | _ => cases code

theorem eq_of_next_eq_quoted (code : phase.isCode = true) (opens : phase.next c = .quoted quote) :
    c = quote := by
  cases phase with
  | code =>
    simp only [Phase.next] at opens
    split at opens
    · cases opens
    · split at opens <;> cases opens
      rfl
  | slash =>
    simp only [Phase.next] at opens
    split at opens
    · cases opens
    · split at opens
      · cases opens
      · split at opens <;> cases opens
        rfl
  | _ => cases code

theorem next_eq_of_rest (code : phase.isCode = true) (opens : (phase.next c).rest = .quoted quote) :
    phase.next c = .quoted quote := by
  cases reached : phase.next c with
  | quoted other =>
    rw [reached] at opens
    exact opens
  | escaped other =>
    -- No character leads from code to an escape.
    cases phase with
    | code =>
      simp only [Phase.next] at reached
      split at reached
      · cases reached
      · split at reached <;> cases reached
    | slash =>
      simp only [Phase.next] at reached
      split at reached
      · cases reached
      · split at reached
        · cases reached
        · split at reached <;> cases reached
    | _ => cases code
  | _ =>
    rw [reached] at opens
    cases opens

end Phase

theorem isQuote_of_isPlainQuote {c : Char} (plain : isPlainQuote c = true) : isQuote c = true := by
  simp only [isPlainQuote, isQuote, Bool.or_eq_true] at plain ⊢
  exact .inl plain.symm

theorem isPlainQuote_iff {c : Char} (quote : isQuote c = true) :
    isPlainQuote c = true ↔ c ≠ '\x60' := by
  simp only [isPlainQuote, isQuote, Bool.or_eq_true, beq_iff_eq] at quote ⊢
  rcases quote with (rfl | rfl) | rfl <;> simp

/-- The search for quoted texts along a walk; in a quoted text its content began at `opened`. -/
def quotedWalk : (opened offset : Nat) → Phase → List Char → List Span
  | _, _, _, [] => []
  | opened, offset, phase, c :: rest =>
    let later := quotedWalk (if phase.isCode then offset + c.utf8Size else opened)
      (offset + c.utf8Size) (phase.next c) rest
    if phase = .quoted c ∧ isPlainQuote c then ⟨opened, offset⟩ :: later else later

section Walk

variable {opened opened' offset : Nat} {phase : Phase} {c : Char} {text : List Char}

/-- Outside quoted texts it does not matter where the last one began. -/
theorem quotedWalk_opened (outside : ∀ quote, phase.rest ≠ .quoted quote)
    (opened opened' offset : Nat) (text : List Char) :
    quotedWalk opened offset phase text = quotedWalk opened' offset phase text := by
  induction text generalizing phase offset with
  | nil => rfl
  | cons c text ih =>
    have unquoted : ¬ (phase = .quoted c ∧ isPlainQuote c = true) := by
      rintro ⟨rfl, -⟩
      exact outside c rfl
    rw [quotedWalk, quotedWalk, if_neg unquoted, if_neg unquoted]
    cases code : phase.isCode with
    | true => rfl
    | false =>
      by_cases still : (phase.next c).isCode = false
      · apply ih
        rwa [Phase.rest_next code still]
      · -- A comment that is over leads back to code.
        apply ih
        intro quote quoted
        cases reached : phase.next c <;> rw [reached] at still quoted <;> first
          | exact absurd rfl still
          | cases quoted

theorem quotedWalk_slash (plain : ∀ c ∈ text.head?, c ≠ '/' ∧ c ≠ '*') :
    quotedWalk opened offset .slash text = quotedWalk opened offset .code text := by
  cases text with
  | nil => rfl
  | cons c text =>
    obtain ⟨first, second⟩ := plain c rfl
    simp [quotedWalk, Phase.isCode, Phase.next, first, second]

theorem quotedWalk_star (open' : ∀ c ∈ text.head?, c ≠ '/') :
    quotedWalk opened offset .star text = quotedWalk opened offset .blockComment text := by
  cases text with
  | nil => rfl
  | cons c text => simp [quotedWalk, Phase.isCode, Phase.next, open' c rfl]

theorem quotedWalk_code (code : phase.isCode = true) :
    quotedWalk opened offset phase (c :: text) =
      quotedWalk (offset + c.utf8Size) (offset + c.utf8Size) (phase.next c) text := by
  have unquoted : ¬ (phase = .quoted c ∧ isPlainQuote c = true) := by
    rintro ⟨rfl, -⟩
    cases code
  rw [quotedWalk, if_neg unquoted, if_pos code]

theorem quotedWalk_inside (inside : phase.isCode = false) (still : phase ≠ .quoted c) :
    quotedWalk opened offset phase (c :: text) =
      quotedWalk opened (offset + c.utf8Size) (phase.next c) text := by
  rw [quotedWalk, if_neg (fun closes => still closes.1), inside]
  rfl

theorem quotedWalk_blockComment (open' : ∀ more, c = '*' → text = '/' :: more → False) :
    quotedWalk opened offset .blockComment (c :: text) =
      quotedWalk opened (offset + c.utf8Size) .blockComment text := by
  rw [quotedWalk_inside rfl (by simp)]
  by_cases star : c = '*'
  · subst star
    exact quotedWalk_star fun d next => ne_of_mem_head? next fun more => open' more rfl
  · simp [Phase.next, star]

theorem ne_backslash_of_isQuote {quote : Char} (quoted : isQuote quote = true) : quote ≠ '\\' := by
  rintro rfl
  exact absurd quoted (by decide)

theorem quotedWalk_escape {quote : Char} (quoted : isQuote quote = true) :
    quotedWalk opened offset (.quoted quote) ('\\' :: c :: text) =
      quotedWalk opened (offset + 1 + c.utf8Size) (.quoted quote) text := by
  have backslash : quotedWalk opened offset (.quoted quote) ('\\' :: c :: text) =
      quotedWalk opened (offset + 1) (.escaped quote) (c :: text) :=
    quotedWalk_inside rfl (by simpa using ne_backslash_of_isQuote quoted)
  rw [backslash, quotedWalk_inside rfl (by simp)]
  rfl

theorem quotedWalk_quoted {quote : Char} (quoted : isQuote quote = true)
    (last : ∀ d more, c = '\\' → text = d :: more → False) :
    quotedWalk opened offset (.quoted quote) (c :: text) =
      if c = quote then
        if quote = '\x60' then quotedWalk opened (offset + c.utf8Size) .code text
        else ⟨opened, offset⟩ :: quotedWalk opened (offset + c.utf8Size) .code text
      else quotedWalk opened (offset + c.utf8Size) (.quoted quote) text := by
  by_cases closes : c = quote
  · subst closes
    have ends : (Phase.quoted c).next c = .code := by
      simp [Phase.next, ne_backslash_of_isQuote quoted]
    rw [if_pos rfl, quotedWalk, ends]
    by_cases tick : c = '\x60'
    · rw [if_pos tick, if_neg fun plain => (isPlainQuote_iff quoted).mp plain.2 tick]
      rfl
    · rw [if_neg tick, if_pos ⟨rfl, (isPlainQuote_iff quoted).mpr tick⟩]
      rfl
  · rw [if_neg closes, quotedWalk_inside rfl (by simpa using Ne.symm closes)]
    by_cases escape : c = '\\'
    · cases text with
      | nil => rfl
      | cons d rest => exact (last d rest escape rfl).elim
    · simp [Phase.next, escape, closes]

theorem quotedWalk_comment {comment : Phase}
    (begins : c = '/' ∧ comment = .lineComment ∨ c = '*' ∧ comment = .blockComment) :
    quotedWalk opened offset .code ('/' :: c :: text) =
      quotedWalk opened (offset + 2) comment text := by
  have reached : quotedWalk opened offset .code ('/' :: c :: text) =
      quotedWalk (offset + 2) (offset + 2) comment text := by
    rcases begins with ⟨rfl, rfl⟩ | ⟨rfl, rfl⟩ <;> rfl
  have outside : ∀ quote, comment.rest ≠ .quoted quote := by
    rcases begins with ⟨-, rfl⟩ | ⟨-, rfl⟩ <;> simp [Phase.rest]
  rw [reached, quotedWalk_opened outside opened]

theorem quotedWalk_plain (line : ∀ more, c = '/' → text = '/' :: more → False)
    (block : ∀ more, c = '/' → text = '*' :: more → False) :
    quotedWalk opened offset .code (c :: text) =
      if isQuote c then
        quotedWalk (offset + c.utf8Size) (offset + c.utf8Size) (.quoted c) text
      else quotedWalk opened (offset + c.utf8Size) .code text := by
  rw [quotedWalk_code rfl]
  by_cases quote : isQuote c = true
  · rw [if_pos quote, Phase.next_of_isCode rfl quote]
  · have reopened : quotedWalk opened (offset + c.utf8Size) .code text =
        quotedWalk (offset + c.utf8Size) (offset + c.utf8Size) .code text :=
      quotedWalk_opened (by simp [Phase.rest]) _ _ _ _
    rw [if_neg quote, reopened]
    by_cases slash : c = '/'
    · subst slash
      exact quotedWalk_slash fun d next => ⟨ne_of_mem_head? next fun more => line more rfl,
        ne_of_mem_head? next fun more => block more rfl⟩
    · simp [Phase.next, slash, quote]

theorem quotedFrom_blockComment (open' : ∀ more, c = '*' → text = '/' :: more → False) :
    quotedFrom opened offset .blockComment (c :: text) =
      quotedFrom opened (offset + c.utf8Size) .blockComment text := by
  rw [quotedFrom]
  exact open'

theorem quotedFrom_quoted {quote : Char} (last : ∀ d more, c = '\\' → text = d :: more → False) :
    quotedFrom opened offset (.quoted quote) (c :: text) =
      if c = quote then
        if quote = '\x60' then quotedFrom opened (offset + c.utf8Size) .code text
        else ⟨opened, offset⟩ :: quotedFrom opened (offset + c.utf8Size) .code text
      else quotedFrom opened (offset + c.utf8Size) (.quoted quote) text := by
  rw [quotedFrom]
  exact last

theorem quotedFrom_code (line : ∀ more, c = '/' → text = '/' :: more → False)
    (block : ∀ more, c = '/' → text = '*' :: more → False) :
    quotedFrom opened offset .code (c :: text) =
      if isQuote c then
        quotedFrom (offset + c.utf8Size) (offset + c.utf8Size) (.quoted c) text
      else quotedFrom opened (offset + c.utf8Size) .code text := by
  rw [quotedFrom]
  · exact line
  · exact block

theorem quotedFrom_eq_quotedWalk (opened offset : Nat) (mode : Mode) (text : List Char)
    (proper : (Phase.ofMode mode).Proper) :
    quotedFrom opened offset mode text = quotedWalk opened offset (.ofMode mode) text := by
  induction mode, text using Mode.reading_induction generalizing opened offset with
  | nil mode => cases mode <;> rfl
  | lineComment c rest ih =>
    rw [quotedFrom, ih _ _ (by split <;> trivial), Phase.ofMode, quotedWalk_inside rfl (by simp)]
    by_cases newline : c = '\n' <;> simp [newline, Phase.next, Phase.ofMode]
  | commentEnd rest ih =>
    rw [quotedFrom, ih _ _ trivial]
    rfl
  | blockComment c rest open' ih =>
    rw [quotedFrom_blockComment open', ih _ _ trivial]
    exact (quotedWalk_blockComment open').symm
  | escape quote c rest ih =>
    rw [quotedFrom, ih _ _ proper]
    exact (quotedWalk_escape proper).symm
  | quoted quote c rest last ih =>
    -- Only a quote that closes its text adds a span.
    rw [quotedFrom_quoted last, Phase.ofMode, quotedWalk_quoted proper last]
    by_cases closes : c = quote
    · rw [if_pos closes] at ih
      simp only [if_pos closes, ih _ _ trivial, Phase.ofMode]
    · rw [if_neg closes] at ih
      rw [if_neg closes, if_neg closes, ih _ _ proper, Phase.ofMode]
  | lineStart rest ih =>
    rw [quotedFrom, ih _ _ trivial]
    exact (quotedWalk_comment (.inl ⟨rfl, rfl⟩)).symm
  | blockStart rest ih =>
    rw [quotedFrom, ih _ _ trivial]
    exact (quotedWalk_comment (.inr ⟨rfl, rfl⟩)).symm
  | code c rest line block ih =>
    rw [quotedFrom_code line block, Phase.ofMode, quotedWalk_plain line block]
    by_cases quote : isQuote c = true
    · rw [if_pos quote] at ih
      rw [if_pos quote, if_pos quote, ih _ _ quote, Phase.ofMode]
    · rw [if_neg quote] at ih
      rw [if_neg quote, if_neg quote, ih _ _ trivial, Phase.ofMode]

structure IsContent (quote : Char) (inner : List Char) : Prop where
  stays : (Phase.quoted quote).stays inner = true
  closes : (Phase.quoted quote).after inner = .quoted quote

structure Quotes (phase : Phase) (text front : List Char) (quote : Char) (inner back : List Char) :
    Prop where
  whole : text = front ++ quote :: (inner ++ quote :: back)
  plain : isPlainQuote quote = true
  code : (phase.after front).isCode = true
  content : IsContent quote inner

theorem mem_quotedWalk_cons {span : Span} :
    span ∈ quotedWalk opened offset phase (c :: text) ↔
      (phase = .quoted c ∧ isPlainQuote c = true ∧ span = ⟨opened, offset⟩) ∨
      span ∈ quotedWalk (if phase.isCode then offset + c.utf8Size else opened)
        (offset + c.utf8Size) (phase.next c) text := by
  rw [quotedWalk]
  split
  · next closes => simp [closes]
  · next open' =>
    rw [not_and] at open'
    simp only [iff_or_self]
    exact fun closes => absurd closes.2.1 (open' closes.1)

/-- The spans are those of the quoted text that is open at first, once it is closed, and of all that
are opened later and closed. -/
theorem mem_quotedWalk_iff {span : Span} :
    span ∈ quotedWalk opened offset phase text ↔
      (∃ quote inner back, text = inner ++ quote :: back ∧ isPlainQuote quote = true ∧
        phase.isCode = false ∧ phase.stays inner = true ∧ phase.after inner = .quoted quote ∧
        span = ⟨opened, offset + byteLength inner⟩) ∨
      ∃ front quote inner back, Quotes phase text front quote inner back ∧
        span = ⟨offset + byteLength (front ++ [quote]),
          offset + byteLength (front ++ quote :: inner)⟩ := by
  induction text generalizing opened offset phase with
  | nil =>
    simp only [quotedWalk, List.not_mem_nil, false_iff, not_or, not_exists]
    exact ⟨by simp, fun front quote inner back shape => by simpa using shape.1.whole⟩
  | cons c text ih =>
    rw [mem_quotedWalk_cons, ih]
    constructor
    · rintro (⟨rfl, plain, rfl⟩ | ⟨quote, inner, back, rfl, plain, still, stays, closes, rfl⟩ |
        ⟨front, quote, inner, back, shape, rfl⟩)
      · exact .inl ⟨c, [], text, rfl, plain, rfl, rfl, rfl, rfl⟩
      · cases code : phase.isCode with
        | true =>
          -- The quoted text that is closed later was opened by this character.
          have reached := Phase.rest_after still stays
          rw [closes] at reached
          have opens := Phase.next_eq_of_rest code reached.symm
          cases Phase.eq_of_next_eq_quoted code opens
          rw [opens] at stays closes
          exact .inr ⟨[], c, inner, back, ⟨rfl, plain, code, ⟨stays, closes⟩⟩, by
            simp [Nat.add_assoc]⟩
        | false =>
          refine .inl ⟨quote, c :: inner, back, rfl, plain, rfl, ?_, closes, ?_⟩
          · rw [Phase.stays, still, stays]
            rfl
          · simp [Nat.add_assoc]
      · obtain ⟨rfl, plain, code, content⟩ := shape
        exact .inr ⟨c :: front, quote, inner, back, ⟨rfl, plain, code, content⟩, by
          simp [Nat.add_assoc]⟩
    · rintro (⟨quote, inner, back, whole, plain, inside, stays, closes, rfl⟩ |
        ⟨front, quote, inner, back, ⟨whole, plain, code, content⟩, rfl⟩)
      · cases inner with
        | nil =>
          obtain ⟨rfl, rfl⟩ := List.cons_eq_cons.mp whole
          exact .inl ⟨closes, plain, rfl⟩
        | cons d inner =>
          obtain ⟨rfl, rfl⟩ := List.cons_eq_cons.mp whole
          rw [Phase.stays, Bool.and_eq_true, Bool.not_eq_true'] at stays
          refine .inr (.inl ⟨quote, inner, back, rfl, plain, stays.1, stays.2, closes, ?_⟩)
          simp [inside, Nat.add_assoc]
      · cases front with
        | nil =>
          obtain ⟨rfl, rfl⟩ := List.cons_eq_cons.mp whole
          have code : phase.isCode = true := code
          have opens := Phase.next_of_isCode code (isQuote_of_isPlainQuote plain)
          refine .inr (.inl ⟨c, inner, back, rfl, plain, ?_, ?_, ?_, ?_⟩)
          · rw [opens]
            rfl
          · rw [opens]
            exact content.stays
          · rw [opens]
            exact content.closes
          · simp [code, Nat.add_assoc]
        | cons d front =>
          obtain ⟨rfl, rfl⟩ := List.cons_eq_cons.mp whole
          exact .inr (.inr ⟨front, quote, inner, back, ⟨rfl, plain, code, content⟩, by
            simp [Nat.add_assoc]⟩)

/-- Spans come in order, with the closing quote of one before the opening quote of the next. -/
theorem quotedWalk_apart (opened offset : Nat) (phase : Phase) (text : List Char)
    (before : opened ≤ offset) :
    (∀ span ∈ quotedWalk opened offset phase text, opened ≤ span.start ∧ span.start ≤ span.stop ∧
      (phase.isCode = true → offset < span.start)) ∧
    (quotedWalk opened offset phase text).Pairwise fun first second =>
      first.stop + 1 < second.start := by
  induction text generalizing opened offset phase with
  | nil => exact ⟨by simp [quotedWalk], .nil⟩
  | cons c text ih =>
    have positive := c.utf8Size_pos
    cases code : phase.isCode with
    | true =>
      rw [quotedWalk_code code]
      obtain ⟨places, apart⟩ := ih _ (offset + c.utf8Size) (phase.next c) (Nat.le_refl _)
      refine ⟨fun span member => ?_, apart⟩
      obtain ⟨from', ordered, -⟩ := places span member
      exact ⟨by omega, ordered, fun _ => by omega⟩
    | false =>
      obtain ⟨places, apart⟩ := ih opened (offset + c.utf8Size) (phase.next c) (by omega)
      have later : ∀ span ∈ quotedWalk opened (offset + c.utf8Size) (phase.next c) text,
          opened ≤ span.start ∧ span.start ≤ span.stop ∧ (false = true → offset < span.start) :=
        fun span member => ⟨(places span member).1, (places span member).2.1, by simp⟩
      by_cases closes : phase = .quoted c ∧ isPlainQuote c = true
      · have backslash : c ≠ '\\' := by
          rintro rfl
          exact absurd closes.2 (by decide)
        -- The closing quote leads back to code, and from there on spans begin behind it.
        have returns : (phase.next c).isCode = true := by
          rw [closes.1]
          simp [Phase.next, backslash, Phase.isCode]
        rw [quotedWalk, if_pos closes, code]
        refine ⟨List.forall_mem_cons.mpr ⟨⟨Nat.le_refl _, before, by simp⟩, later⟩,
          List.pairwise_cons.mpr ⟨fun span member => ?_, apart⟩⟩
        have behind := (places span member).2.2 returns
        simp only
        omega
      · rw [quotedWalk, if_neg closes, code]
        exact ⟨later, apart⟩

end Walk

section Spans

variable {front inner back : List Char}

theorem skipTo_append (offset : Nat) (front rest : List Char) :
    skipTo (offset + byteLength front) offset (front ++ rest) =
      (offset + byteLength front, rest) := by
  induction front generalizing offset with
  | nil => cases rest <;> simp [skipTo]
  | cons c front ih =>
    have positive := c.utf8Size_pos
    rw [List.cons_append, skipTo, if_pos (by simp only [byteLength_cons]; omega), byteLength_cons,
      ← Nat.add_assoc, ih]

theorem takeBytes_append (inner back : List Char) :
    takeBytes (byteLength inner) (inner ++ back) = inner := by
  induction inner with
  | nil =>
    cases back with
    | nil => rfl
    | cons c back =>
      have positive := c.utf8Size_pos
      rw [List.nil_append, takeBytes, byteLength_nil, if_neg (by omega)]
  | cons c inner ih =>
    rw [List.cons_append, takeBytes, byteLength_cons, if_pos (by omega), Nat.add_sub_cancel_left,
      ih]

theorem window_append (front inner back : List Char) :
    window (front ++ (inner ++ back)) (byteLength front) (byteLength (front ++ inner)) =
      (byteLength front, inner) := by
  have skipped := skipTo_append 0 front (inner ++ back)
  rw [Nat.zero_add] at skipped
  rw [window, skipped]
  simp only [byteLength_append, Nat.add_sub_cancel_left, takeBytes_append]

theorem mem_quotedSpans_iff_of_window {text : List Char} {start stop : Nat} {span : Span}
    (between : window text start stop = (byteLength front, inner)) :
    span ∈ quotedSpans text start stop ↔
      ∃ head quote content tail, Quotes .code inner head quote content tail ∧
        span = ⟨byteLength (front ++ (head ++ [quote])),
          byteLength (front ++ (head ++ quote :: content))⟩ := by
  have proper : (Phase.ofMode .code).Proper := trivial
  rw [quotedSpans, between]
  simp only
  rw [quotedFrom_eq_quotedWalk _ _ _ _ proper, mem_quotedWalk_iff]
  simp [Phase.ofMode, Phase.isCode]

theorem mem_quotedSpans_iff {span : Span} :
    span ∈ quotedSpans (front ++ (inner ++ back)) (byteLength front) (byteLength (front ++ inner)) ↔
      ∃ head quote content tail, Quotes .code inner head quote content tail ∧
        span = ⟨byteLength (front ++ (head ++ [quote])),
          byteLength (front ++ (head ++ quote :: content))⟩ :=
  mem_quotedSpans_iff_of_window (window_append front inner back)

theorem quotedSpans_pairwise (text : List Char) (start stop : Nat) :
    (quotedSpans text start stop).Pairwise fun first second => first.stop + 1 < second.start := by
  have proper : (Phase.ofMode .code).Proper := trivial
  unfold quotedSpans
  simp only
  rw [quotedFrom_eq_quotedWalk _ _ _ _ proper]
  exact (quotedWalk_apart _ _ _ _ (Nat.le_refl _)).2

end Spans

end ColorTokens.Source
