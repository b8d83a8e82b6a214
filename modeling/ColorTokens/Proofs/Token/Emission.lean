import ColorTokens.Proofs.Color.FixedPoint
import ColorTokens.Proofs.Token.Insertion

/-! A sheet of minted tokens alone. The notice that it begins with opens no block and selects
nothing, and the lines leave the walk through the block where it was; so the block is all of them,
and each is read back as it was written. -/

set_option autoImplicit false

namespace ColorTokens

open ColorTokens.Text
open ColorTokens.Source

namespace MintedTokens

def sheetHead : List Char :=
  notice.toList ++ "\n:root ".toList

theorem toList_sheet (minted : MintedTokens) :
    minted.sheet.toList = sheetHead ++ '{' :: ('\n' :: linesOf minted.toList ++ '}' :: ['\n']) := by
  simp [sheet, sheetHead, rootOpening, rootClosing, toList_lines]

theorem exists_opens_sheetHead : ∃ front behind, Opens sheetHead front behind := by
  have whole : sheetHead = (notice.toList ++ ['\n']) ++ (":root".toList ++ [' ']) := by
    simp [sheetHead]
  have bare : '{' ∉ sheetHead := by decide
  refine exists_opens whole rfl fun front behind parted _ brace => bare ?_
  rw [parted]
  simp [brace]

variable {minted : MintedTokens}

theorem exists_rootBlock?_sheet (writable : ∀ entry ∈ minted.toList, Writable entry.1 entry.2) :
    ∃ block, rootBlock? minted.sheet.toList = some block ∧
      block.inner = '\n' :: linesOf minted.toList := by
  obtain ⟨front, behind, opens⟩ := exists_opens_sheetHead
  have walked : walk (1, .code) ('\n' :: linesOf minted.toList) = some (1, .code) :=
    walk_linesOf writable 1
  refine ⟨_, rootBlock?_eq_some_iff.mpr ⟨sheetHead, front, behind, '\n' :: linesOf minted.toList,
    ['\n'], .code, ?_, opens, walked, rfl, rfl⟩, rfl⟩
  exact toList_sheet minted

theorem rootTokens_sheet (writable : ∀ entry ∈ minted.toList, Writable entry.1 entry.2) :
    rootTokens minted.sheet.toList = minted.toList.map fun entry => ⟨entry.1, entry.2⟩ := by
  obtain ⟨block, found, inner⟩ := exists_rootBlock?_sheet writable
  have rest : tokenDeclaration.Reads [] [] := .nil
  have lines := reads_linesOf (fun entry member => (writable entry member).legible) rest
  rw [List.append_nil, List.append_nil] at lines
  -- No declaration begins with the newline behind the brace.
  have reads := lines.pass (c := '\n') fun _ => tokenDeclaration_cons (by decide) _
  have read : rootTokens minted.sheet.toList =
      (tokenDeclaration.findAll block.inner).map Prod.snd := by
    rw [rootTokens, found]
  rw [read, inner]
  exact reads.map_snd_findAll

theorem sheetColors_sheet (writable : ∀ entry ∈ minted.toList, Writable entry.1 entry.2) :
    sheetColors minted.sheet.toList = minted.toList.map Prod.swap := by
  rw [sheetColors, rootTokens_sheet writable]
  exact colorsOf_legible fun entry member => (writable entry member).legible

/-- A sheet of minted tokens reads back as the tokens it was written from, in their order. Where no
two of them have one colour, its index leads from each colour to its identifier and holds no more. -/
theorem sheet_reads_back (minted : MintedTokens)
    (tokens : ∀ entry ∈ minted.toList, IsCustomProperty entry.1.toList)
    (colors : ∀ entry ∈ minted.toList, ∃ raw, Color.normalize? raw = some entry.2)
    (bare : ∀ entry ∈ minted.toList, ∀ c ∈ entry.2.toList,
      c ∉ [';', '{', '}', '\'', '"', '\x60']) :
    rootTokens minted.sheet.toList = (minted.toList.map fun entry => ⟨entry.1, entry.2⟩) ∧
    (minted.values.Nodup → ∀ color identifier : String,
      (ColorIndex.ofSheet minted.sheet.toList)[color]? = some identifier ↔
        minted[identifier]? = some color) := by
  have writable : ∀ entry ∈ minted.toList, Writable entry.1 entry.2 := by
    intro entry member
    obtain ⟨raw, made⟩ := colors entry member
    exact ⟨tokens entry member, Color.normalize?_fixed made, bare entry member⟩
  refine ⟨rootTokens_sheet writable, fun distinct color identifier => ?_⟩
  rw [getElem?_ofSheet, sheetColors_sheet writable]
  exact lookup_swap_of_nodup distinct

/-- A text that would open a comment is spaced so that it does not, and a property may be all
dashes. -/
theorem sheet_reads_back_slashed :
    rootTokens (sheet (Std.TreeMap.ofList [("--9-A", "rgb( / *é)"), ("---", "#00ff00")])).toList =
      [⟨"---", "#00ff00"⟩, ⟨"--9-A", "rgb( / *é)"⟩] ∧
    (ColorIndex.ofSheet (sheet (Std.TreeMap.ofList
      [("--9-A", "rgb( / *é)"), ("---", "#00ff00")])).toList)["rgb( / *é)"]? = some "--9-A" := by
  have listed : (Std.TreeMap.ofList [("--9-A", "rgb( / *é)"), ("---", "#00ff00")]).toList =
      [("---", "#00ff00"), ("--9-A", "rgb( / *é)")] := by
    decide +kernel
  have tokens : ∀ entry ∈ [("---", "#00ff00"), ("--9-A", "rgb( / *é)")],
      IsCustomProperty entry.1.toList := by
    have dashes : ∀ c ∈ "---".toList, isPropertyChar c = true := List.all_eq_true.mp (by decide)
    have mixed : ∀ c ∈ "--9-A".toList, isPropertyChar c = true := List.all_eq_true.mp (by decide)
    simp only [List.forall_mem_cons, List.not_mem_nil, false_implies, implies_true, and_true]
    exact ⟨⟨by decide, by decide, dashes⟩, ⟨by decide, by decide, mixed⟩⟩
  have colors : ∀ entry ∈ [("---", "#00ff00"), ("--9-A", "rgb( / *é)")],
      ∃ raw, Color.normalize? raw = some entry.2 := by
    simp only [List.forall_mem_cons, List.not_mem_nil, false_implies, implies_true, and_true]
    exact ⟨⟨"#0F0", by decide +kernel⟩, ⟨" RGB(/*É)", by decide +kernel⟩⟩
  obtain ⟨read, index⟩ := sheet_reads_back
    (Std.TreeMap.ofList [("--9-A", "rgb( / *é)"), ("---", "#00ff00")])
    (by rwa [listed]) (by rwa [listed]) (by rw [listed]; simp)
  rw [listed] at read
  exact ⟨read, (index (by decide +kernel) _ _).mpr (by decide +kernel)⟩

end MintedTokens

end ColorTokens
