import ColorTokens.Report.ColorMap
import ColorTokens.Proofs.Text.Position
import ColorTokens.Proofs.Token.Numbering
import ColorTokens.Proofs.Tokenization

/-! The colour map of a run. A run has its occurrences by path and by byte, the map orders its rows
by path, line and column, and that is the same order: positions of one text come in the order of
their bytes. What the map counts are the rows it has, and each row has the token of its colour. -/

set_option autoImplicit false

namespace ColorTokens

open ColorTokens.Text

structure Place where
  file : String
  position : Position
  deriving DecidableEq, Repr

def Place.Before (first second : Place) : Prop :=
  compare first.file second.file = .lt ∨
    first.file = second.file ∧ first.position.Before second.position

def Occurrence.place (occurrence : Occurrence) : Place :=
  ⟨occurrence.file, occurrence.position⟩

def OccurrenceRow.place (row : OccurrenceRow) : Place :=
  ⟨row.file, row.position⟩

theorem Place.ne_of_before {first second : Place} (before : first.Before second) :
    first ≠ second := by
  rintro rfl
  rcases before with lesser | ⟨-, before⟩
  · exact Keyed.not_lt_self _ lesser
  · exact Position.Before.irrefl _ before

theorem Assignment.Assigns.exists_token_and_origin {index : ColorIndex} {naming : Naming}
    {numbers : Nat → Nat} {colors : List String} {assignment : Assignment}
    (assigns : Assigns index naming numbers colors assignment) {color : String}
    (given : color ∈ colors) : ∃ (identifier : String) (origin : Origin),
      assignment.tokens[color]? = some identifier ∧ assignment.origins[color]? = some origin := by
  cases indexed : index[color]? with
  | some identifier => exact ⟨identifier, .existing, assigns.reused color given identifier indexed⟩
  | none =>
    -- A colour that is not indexed stands somewhere among the fresh ones, which are all minted.
    have unknown : color ∈ fresh index assignment.order := by
      rw [fresh, List.mem_filter]
      exact ⟨(assigns.mem_order_iff color).mpr given, by simp [indexed]⟩
    obtain ⟨i, listed⟩ := List.mem_iff_getElem?.mp unknown
    exact ⟨_, .generated, assigns.minted i color listed⟩

namespace Tokenizer

section Rows

variable {tokenizer : Tokenizer} {files : List SourceFile} {sheet : String} {outcome : Outcome}

/-- The literals of a file keep apart, so their positions come in the order of their spans. -/
theorem scanFile_before (tokenizer : Tokenizer) (file : SourceFile) :
    (tokenizer.scanFile file).occurrences.Pairwise fun first second =>
      first.position.Before second.position := by
  have placed := placed_settle tokenizer.rules file.kind file.text.toList
  apply List.pairwise_map.mpr
  refine placed.apart.imp_of_mem fun {first second} member member' ordered => ?_
  have found := placed.found first member
  have found' := placed.found second member'
  exact Position.ofOffset_before_of_stands found.stands found'.stands
    (Nat.lt_of_lt_of_le found.nonempty ordered)

theorem arrange_values_sorted {scanned : List ScannedFile}
    {arranged : Std.TreeMap String ScannedFile} (done : arrange scanned = .ok arranged) :
    arranged.values.Pairwise fun first second => compare first.path second.path = .lt := by
  have sorted : arranged.toList.Pairwise fun a b => compare a.1 b.1 = .lt :=
    Std.TreeMap.ordered_keys_toList
  have keyed : ∀ entry ∈ arranged.toList, entry.1 = entry.2.path := by
    intro entry member
    obtain ⟨file, -, rfl⟩ := List.mem_map.mp ((arrange_perm done).mem_iff.mp member)
    rfl
  -- Files stand under their own paths, so the order of the keys is that of the paths.
  rw [Keyed.values_eq, List.pairwise_map]
  refine sorted.imp_of_mem fun {first second} member member' lesser => ?_
  rwa [← keyed first member, ← keyed second member']

theorem occurrences_before (ran : tokenizer.run files sheet = .ok outcome) :
    (outcome.occurrences.map (·.place)).Pairwise Place.Before := by
  obtain ⟨arranged, _, _, done, _, _, _, rfl⟩ := finish_eq_ok_iff.mp ran
  have scanned : ∀ file ∈ arranged.values, ∃ source, tokenizer.scanFile source = file := by
    intro file member
    obtain ⟨source, -, made⟩ := List.mem_map.mp ((arrange_values_perm done).mem_iff.mp member)
    exact ⟨source, made⟩
  have own : ∀ file ∈ arranged.values, ∀ occurrence ∈ file.occurrences,
      occurrence.file = file.path := by
    intro file member
    obtain ⟨source, rfl⟩ := scanned file member
    exact (sound_scanFile tokenizer source).own
  rw [List.pairwise_map, List.pairwise_flatMap]
  constructor
  -- Within a file the positions decide, between two files the paths do.
  · intro file member
    have paths := own file member
    obtain ⟨source, rfl⟩ := scanned file member
    refine (scanFile_before tokenizer source).imp_of_mem fun {first second} listed listed' before => ?_
    exact .inr ⟨(paths first listed).trans (paths second listed').symm, before⟩
  · refine (arrange_values_sorted done).imp_of_mem fun {file file'} member member' lesser => ?_
    intro first listed second listed'
    left
    rwa [Occurrence.place, Occurrence.place, own file member first listed,
      own file' member' second listed']

theorem assigns_of_run (ran : tokenizer.run files sheet = .ok outcome) :
    Assignment.Assigns (TokenSheet.ofText sheet).index tokenizer.naming
      (Assignment.openNumber (TokenSheet.ofText sheet).reserved tokenizer.naming)
      (outcome.occurrences.map (·.color)) outcome.assignment := by
  rw [assignment_of_run ran]
  exact Assignment.assigns_assign ..

theorem counts_of_run (ran : tokenizer.run files sheet = .ok outcome) :
    outcome.assignment.uniqueCount =
      outcome.assignment.reusedCount + outcome.assignment.generatedCount := by
  rw [assignment_of_run ran, Nat.add_comm]
  exact (Assignment.records_assign ..).generated_add_reused.symm

end Rows

end Tokenizer

namespace ColorMap

theorem rowLe_of_before {first second : OccurrenceRow}
    (before : first.place.Before second.place) : rowLe first second = true := by
  rw [rowLe]
  rcases before with lesser | ⟨same, before⟩
  · have order : compare first.file second.file = .lt := lesser
    rw [order]
    rfl
  · have order : compare first.file second.file = .eq := Std.compare_eq_iff_eq.mpr same
    rw [order]
    rcases before with earlier | ⟨same', earlier⟩
    · have line : compare first.position.line second.position.line = .lt :=
        Nat.compare_eq_lt.mpr earlier
      rw [line]
      rfl
    · have line : compare first.position.line second.position.line = .eq :=
        Nat.compare_eq_eq.mpr same'
      have column : compare first.position.column second.position.column = .lt :=
        Nat.compare_eq_lt.mpr earlier
      rw [line, column]
      rfl

/-- What a colour map says of a run, and nothing of it is against the run or against itself. -/
structure Agrees (map : ColorMap) (outcome : Outcome) : Prop where
  rows : map.occurrences = outcome.occurrences.map (occurrenceRow outcome.assignment)
  increasing : (map.occurrences.map (·.place)).Pairwise Place.Before
  apart : (map.occurrences.map (·.place)).Nodup
  matches_rows : map.matchCount = map.occurrences.length
  matches_sum : map.matchCount = (map.mappings.map (·.occurrences)).sum
  colors_mappings : map.uniqueColors = map.mappings.length
  colors_sum : map.uniqueColors = map.reusedTokens + map.newTokens
  /-- A colour has one mapping. -/
  distinct : (map.mappings.map (·.color)).Nodup
  counted : ∀ mapping ∈ map.mappings,
    mapping.occurrences = (map.occurrences.map (·.color)).count mapping.color
  explained : ∀ row ∈ map.occurrences, ∃ mapping ∈ map.mappings, mapping.color = row.color ∧
    row.token = mapping.token ∧ row.origin = mapping.origin
  /-- No row falls back on a default. -/
  assigned : ∀ row ∈ map.occurrences, outcome.assignment.tokens[row.color]? = some row.token ∧
    outcome.assignment.origins[row.color]? = some row.origin

section Agreement

variable {tokenizer : Tokenizer} {files : List SourceFile} {sheet : String} {outcome : Outcome}
  (ran : tokenizer.run files sheet = .ok outcome)

include ran

theorem occurrenceRow_before :
    ((outcome.occurrences.map (occurrenceRow outcome.assignment)).map (·.place)).Pairwise
      Place.Before := by
  rw [List.map_map]
  exact Tokenizer.occurrences_before ran

theorem occurrences_ofOutcome (mode : String) (settings : Settings) :
    (ofOutcome mode settings outcome).occurrences =
      outcome.occurrences.map (occurrenceRow outcome.assignment) := by
  apply List.mergeSort_of_pairwise
  exact (List.pairwise_map.mp (occurrenceRow_before ran)).imp fun before => rowLe_of_before before

theorem count_mappingRow {color : String} (listed : color ∈ outcome.assignment.order) :
    (mappingRow outcome.assignment color).occurrences =
      (outcome.occurrences.map (·.color)).count color := by
  have assigns := Tokenizer.assigns_of_run ran
  rw [mappingRow, Std.TreeMap.getD_eq_getD_getElem?, assigns.frequency_eq,
    if_pos ((assigns.mem_order_iff color).mp listed), Option.getD_some]

theorem sum_mappingRow :
    ((outcome.assignment.order.map (mappingRow outcome.assignment)).map (·.occurrences)).sum =
      outcome.occurrences.length := by
  have assigns := Tokenizer.assigns_of_run ran
  rw [List.map_map]
  calc (outcome.assignment.order.map fun color =>
        (mappingRow outcome.assignment color).occurrences).sum
      = (outcome.assignment.order.map (outcome.occurrences.map (·.color)).count).sum :=
        congrArg List.sum (List.map_congr_left fun _ listed => count_mappingRow ran listed)
    _ = (outcome.occurrences.map (·.color)).length :=
        Assignment.sum_map_count assigns.nodup_order assigns.mem_order_iff
    _ = outcome.occurrences.length := List.length_map _

theorem assigned_of_run {color : String} (given : color ∈ outcome.occurrences.map (·.color)) :
    outcome.assignment.tokens[color]? = some (tokenOf outcome.assignment color) ∧
      outcome.assignment.origins[color]? = some (originOf outcome.assignment color) := by
  obtain ⟨identifier, origin, token, known⟩ :=
    (Tokenizer.assigns_of_run ran).exists_token_and_origin given
  rw [tokenOf, originOf, Std.TreeMap.getD_eq_getD_getElem?, Std.TreeMap.getD_eq_getD_getElem?, token,
    known]
  exact ⟨rfl, rfl⟩

end Agreement

/-- The map of a run agrees with it. Its rows are the occurrences in their own order, each at a place
behind the one before; its counts are those of the rows and of the colours; and every row has the
token and the origin that the one mapping of its colour has. -/
theorem ofOutcome_agrees (tokenizer : Tokenizer) (files : List SourceFile) (sheet : String)
    (outcome : Outcome) (ran : tokenizer.run files sheet = .ok outcome) (mode : String)
    (settings : Settings) : (ofOutcome mode settings outcome).Agrees outcome := by
  have assigns := Tokenizer.assigns_of_run ran
  have rows := occurrences_ofOutcome ran mode settings
  have before : ((ofOutcome mode settings outcome).occurrences.map (·.place)).Pairwise
      Place.Before := by
    rw [rows]
    exact occurrenceRow_before ran
  have colors : (ofOutcome mode settings outcome).occurrences.map (·.color) =
      outcome.occurrences.map (·.color) := by
    rw [rows, List.map_map]
    rfl
  -- Every row is of a colour that the assignment knows.
  have given : ∀ row ∈ (ofOutcome mode settings outcome).occurrences,
      row.color ∈ outcome.occurrences.map (·.color) := fun _ member =>
    colors ▸ List.mem_map_of_mem member
  exact {
    rows
    increasing := before
    apart := before.imp Place.ne_of_before
    matches_rows := by
      rw [rows, List.length_map]
      rfl
    matches_sum := (sum_mappingRow ran).symm
    colors_mappings := (List.length_map _).symm
    colors_sum := Tokenizer.counts_of_run ran
    distinct := by
      have own : outcome.assignment.order.map (fun color =>
          (mappingRow outcome.assignment color).color) = outcome.assignment.order := List.map_id _
      rw [ofOutcome, List.map_map]
      exact own.symm ▸ assigns.nodup_order
    counted := by
      intro mapping member
      obtain ⟨color, listed, rfl⟩ := List.mem_map.mp member
      rw [colors]
      exact count_mappingRow ran listed
    explained := by
      intro row member
      have listed := (assigns.mem_order_iff row.color).mpr (given row member)
      obtain ⟨occurrence, -, rfl⟩ := List.mem_map.mp (rows ▸ member)
      exact ⟨_, List.mem_map_of_mem listed, rfl, rfl, rfl⟩
    assigned := by
      intro row member
      have known := assigned_of_run ran (given row member)
      obtain ⟨occurrence, -, rfl⟩ := List.mem_map.mp (rows ▸ member)
      exact known }

theorem ofOutcome_agrees_two_files :
    ∃ outcome, Tokenizer.standard.run
        [⟨"b.css", "b\x7bcolor:#fff;\x7d", .styleModule⟩,
          ⟨"a.css", "a\x7b\n  color: é #FFF;\x7d", .styleModule⟩] "" = .ok outcome ∧
      (ofOutcome "apply" .standard outcome).Agrees outcome ∧
      (ofOutcome "apply" .standard outcome).occurrences.map (fun row => (row.place, row.token)) =
        [(⟨"a.css", ⟨2, 12⟩⟩, "--c-raw-000"), (⟨"b.css", ⟨1, 9⟩⟩, "--c-raw-000")] := by
  obtain ⟨outcome, ran⟩ : ∃ outcome, Tokenizer.standard.run
      [⟨"b.css", "b\x7bcolor:#fff;\x7d", .styleModule⟩,
        ⟨"a.css", "a\x7b\n  color: é #FFF;\x7d", .styleModule⟩] "" = .ok outcome :=
    Tokenizer.exists_run (by simp) (by decide) _
  have agrees := ofOutcome_agrees _ _ _ outcome ran "apply" .standard
  have listed : (Tokenizer.standard.run
      [⟨"b.css", "b\x7bcolor:#fff;\x7d", .styleModule⟩,
        ⟨"a.css", "a\x7b\n  color: é #FFF;\x7d", .styleModule⟩] "").toOption.map
        (fun outcome => outcome.occurrences.map fun occurrence =>
          (occurrence.place, tokenOf outcome.assignment occurrence.color)) =
      some [(⟨"a.css", ⟨2, 12⟩⟩, "--c-raw-000"), (⟨"b.css", ⟨1, 9⟩⟩, "--c-raw-000")] := by
    decide +kernel
  rw [ran] at listed
  refine ⟨outcome, ran, agrees, ?_⟩
  rw [agrees.rows, List.map_map]
  exact Option.some.inj listed

end ColorMap

end ColorTokens
