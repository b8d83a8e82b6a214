import ColorTokens.Proofs.Source.QuotedText
import Mathlib.Data.List.Induction

/-! Where quoted texts lie. Whatever part of a text is searched, the spans that are found are in
bounds and in order, each between two quotes of one kind, and a quote of that kind within one has an
odd number of backslashes before it. -/

set_option autoImplicit false

namespace ColorTokens.Source

open ColorTokens.Text

section Escapes

/-- Whether a character is escaped that stands behind a text: by the last one of an odd number of
backslashes. -/
def isEscapedBehind (front : List Char) : Bool :=
  (front.reverse.takeWhile (· == '\\')).length % 2 == 1

theorem isEscapedBehind_backslash (front : List Char) :
    isEscapedBehind (front ++ ['\\']) = !isEscapedBehind front := by
  simp only [isEscapedBehind, List.reverse_append, List.reverse_singleton, List.singleton_append,
    List.takeWhile_cons, beq_self_eq_true, if_true, List.length_cons]
  grind

theorem isEscapedBehind_of_ne (front : List Char) {c : Char} (other : c ≠ '\\') :
    isEscapedBehind (front ++ [c]) = false := by
  simp [isEscapedBehind, other]

variable {quote : Char} {text inner front back : List Char}

/-- Within a quoted text the reader waits for what is escaped exactly behind an odd number of
backslashes. -/
theorem Phase.after_quoted (stays : (Phase.quoted quote).stays text = true) :
    (Phase.quoted quote).after text =
      if isEscapedBehind text then .escaped quote else .quoted quote := by
  induction text using List.reverseRecOn with
  | nil => rfl
  | append_singleton front c ih =>
    rw [stays_append, Bool.and_eq_true] at stays
    obtain ⟨before, last⟩ := stays
    rw [ih before, Phase.stays, Bool.and_eq_true, Bool.not_eq_true'] at last
    rw [after_append, ih before]
    change Phase.next _ c = _
    by_cases backslash : c = '\\'
    · subst backslash
      rw [isEscapedBehind_backslash]
      cases isEscapedBehind front <;> rfl
    · rw [isEscapedBehind_of_ne front backslash]
      cases escaped : isEscapedBehind front with
      | true => rfl
      | false =>
        -- The quote itself would lead back to code.
        have open' : c ≠ quote := by
          rintro rfl
          simp [escaped, Phase.next, backslash, isCode] at last
        simp [Phase.next, backslash, open']

theorem IsContent.isEscapedBehind_eq_false (content : IsContent quote inner) :
    isEscapedBehind inner = false := by
  have closes := content.closes
  rw [Phase.after_quoted content.stays] at closes
  split at closes
  · cases closes
  · next plain => exact Bool.eq_false_iff.mpr plain

theorem IsContent.isEscapedBehind_of_quote (content : IsContent quote (front ++ quote :: back))
    (proper : quote ≠ '\\') : isEscapedBehind front = true := by
  have stays := content.stays
  rw [Phase.stays_append, Bool.and_eq_true] at stays
  obtain ⟨before, last⟩ := stays
  rw [Phase.after_quoted before, Phase.stays, Bool.and_eq_true, Bool.not_eq_true'] at last
  by_contra plain
  simp [plain, Phase.next, proper, Phase.isCode] at last

end Escapes

section Windows

/-- The characters of a text that lie whole between two byte offsets: those in front of them begin
before the first offset, and those behind them end behind the second. -/
structure IsWindow (text : List Char) (start stop : Nat) (front inner back : List Char) : Prop where
  whole : text = front ++ (inner ++ back)
  before : ∀ init c, front = init ++ [c] → byteLength init < start
  starts : inner ≠ [] → start ≤ byteLength front
  stops : inner ≠ [] → byteLength (front ++ inner) ≤ stop
  behind : ∀ c rest, back = c :: rest → stop < byteLength (front ++ (inner ++ [c]))

theorem exists_skipTo (start offset : Nat) (text : List Char) :
    ∃ front rest, text = front ++ rest ∧
      skipTo start offset text = (offset + byteLength front, rest) ∧
      (∀ init c, front = init ++ [c] → offset + byteLength init < start) ∧
      (rest ≠ [] → start ≤ offset + byteLength front) := by
  induction text generalizing offset with
  | nil => exact ⟨[], [], rfl, rfl, by simp, by simp⟩
  | cons c text ih =>
    rw [skipTo]
    by_cases early : offset < start
    · rw [if_pos early]
      obtain ⟨front, rest, rfl, skipped, before, starts⟩ := ih (offset + c.utf8Size)
      refine ⟨c :: front, rest, rfl, ?_, fun init d whole => ?_, fun more => ?_⟩
      · rw [skipped, byteLength_cons, Nat.add_assoc]
      · cases init with
        | nil => exact early
        | cons e init =>
          obtain ⟨rfl, rfl⟩ := List.cons_eq_cons.mp whole
          rw [byteLength_cons, ← Nat.add_assoc]
          exact before init d rfl
      · rw [byteLength_cons, ← Nat.add_assoc]
        exact starts more
    · rw [if_neg early]
      exact ⟨[], c :: text, rfl, rfl, by simp, fun _ => Nat.le_of_not_lt early⟩

theorem exists_isWindow (text : List Char) (start stop : Nat) :
    ∃ front inner back, IsWindow text start stop front inner back ∧
      window text start stop = (byteLength front, inner) := by
  obtain ⟨front, rest, rfl, skipped, before, starts⟩ := exists_skipTo start 0 text
  obtain ⟨back, parted, within, behind⟩ := exists_takeBytes (stop - byteLength front) rest
  simp only [Nat.zero_add] at skipped before starts
  refine ⟨front, takeBytes (stop - byteLength front) rest, back,
    ⟨by rw [← parted], before, fun some => starts ?_, fun some => ?_, fun c more first => ?_⟩, ?_⟩
  · rw [parted]
    exact List.append_ne_nil_of_left_ne_nil some back
  · have positive := byteLength_pos some
    rw [byteLength_append]
    omega
  · have further := behind c more first
    rw [byteLength_append]
    omega
  · rw [window, skipped]

end Windows

section Delimiters

/-- A content between two quotes of one kind: those within it are escaped and the closing one is
not. -/
structure Delimited (text : List Char) (span : Span) (quote : Char) (content : List Char) :
    Prop where
  plain : quote = '\'' ∨ quote = '"'
  opens : slice? text (span.start - 1) span.start = some [quote]
  holds : slice? text span.start span.stop = some content
  closes : slice? text span.stop (span.stop + 1) = some [quote]
  escaped : ∀ front back, content = front ++ quote :: back → isEscapedBehind front = true
  unescaped : isEscapedBehind content = false

variable {text front inner back head content tail : List Char} {start stop : Nat} {quote : Char}

theorem plain_of_isPlainQuote (plain : isPlainQuote quote = true) : quote = '\'' ∨ quote = '"' := by
  simpa [isPlainQuote, or_comm] using plain

theorem utf8Size_of_isPlainQuote (plain : isPlainQuote quote = true) : quote.utf8Size = 1 := by
  rcases plain_of_isPlainQuote plain with rfl | rfl <;> rfl

theorem IsWindow.bounds (between : IsWindow text start stop front inner back)
    (quotes : Quotes .code inner head quote content tail) :
    start < byteLength (front ++ (head ++ [quote])) ∧
      byteLength (front ++ (head ++ [quote])) ≤ byteLength (front ++ (head ++ quote :: content)) ∧
      byteLength (front ++ (head ++ quote :: content)) < min stop (byteLength text) := by
  have nonempty : inner ≠ [] := by simp [quotes.whole]
  have starts := between.starts nonempty
  have stops := between.stops nonempty
  have size := utf8Size_of_isPlainQuote quotes.plain
  rw [quotes.whole] at stops
  rw [between.whole, quotes.whole]
  simp only [byteLength_append, byteLength_cons, byteLength_nil, size] at stops ⊢
  omega

theorem IsWindow.delimited (between : IsWindow text start stop front inner back)
    (quotes : Quotes .code inner head quote content tail) :
    Delimited text ⟨byteLength (front ++ (head ++ [quote])),
      byteLength (front ++ (head ++ quote :: content))⟩ quote content := by
  have size := utf8Size_of_isPlainQuote quotes.plain
  have proper : quote ≠ '\\' := by
    rcases plain_of_isPlainQuote quotes.plain with rfl | rfl <;> decide
  have whole : text = front ++ (head ++ quote :: (content ++ quote :: (tail ++ back))) := by
    rw [between.whole, quotes.whole]
    simp
  refine ⟨plain_of_isPlainQuote quotes.plain, ?_, ?_, ?_, ?_,
    quotes.content.isEscapedBehind_eq_false⟩
  · refine slice?_eq_some_iff.mpr ⟨front ++ head, content ++ quote :: (tail ++ back), ?_, ?_, ?_⟩
    · simp [whole]
    · simp [size]
    · simp
  · refine slice?_eq_some_iff.mpr ⟨front ++ (head ++ [quote]), quote :: (tail ++ back), ?_, ?_, ?_⟩
    · simp [whole]
    · rfl
    · simp
  · refine slice?_eq_some_iff.mpr ⟨front ++ (head ++ quote :: content), tail ++ back, ?_, ?_, ?_⟩
    · simp [whole]
    · rfl
    · simp [size]
      omega
  · rintro before after rfl
    exact quotes.content.isEscapedBehind_of_quote proper

end Delimiters

/-- The spans of quoted texts are ordered, in bounds and delimited, whatever the offsets between
which they are searched; and they are those of all quoted texts that begin where the characters
between the offsets are read as code. -/
theorem quotedSpans_delimited (text : List Char) (start stop : Nat) :
    (min stop (byteLength text) ≤ start → quotedSpans text start stop = []) ∧
    (∀ span ∈ quotedSpans text start stop,
      start < span.start ∧ span.start ≤ span.stop ∧ span.stop < min stop (byteLength text) ∧
      ∃ quote content, Delimited text span quote content) ∧
    ((quotedSpans text start stop).Pairwise fun first second => first.stop < second.start - 1) ∧
    ∃ front inner back, IsWindow text start stop front inner back ∧
      ∀ span, span ∈ quotedSpans text start stop ↔
        ∃ head quote content tail, Quotes .code inner head quote content tail ∧
          span = ⟨byteLength (front ++ (head ++ [quote])),
            byteLength (front ++ (head ++ quote :: content))⟩ := by
  obtain ⟨front, inner, back, between, found⟩ := exists_isWindow text start stop
  have members : ∀ span ∈ quotedSpans text start stop,
      start < span.start ∧ span.start ≤ span.stop ∧ span.stop < min stop (byteLength text) ∧
      ∃ quote content, Delimited text span quote content := by
    intro span member
    obtain ⟨head, quote, content, tail, quotes, rfl⟩ :=
      (mem_quotedSpans_iff_of_window found).mp member
    obtain ⟨low, ordered, high⟩ := between.bounds quotes
    exact ⟨low, ordered, high, quote, content, between.delimited quotes⟩
  refine ⟨fun outside => ?_, members, ?_, front, inner, back, between,
    fun span => mem_quotedSpans_iff_of_window found⟩
  · refine List.eq_nil_iff_forall_not_mem.mpr fun span member => ?_
    obtain ⟨low, ordered, high, -⟩ := members span member
    omega
  · exact (quotedSpans_pairwise text start stop).imp fun apart => by omega

end ColorTokens.Source
