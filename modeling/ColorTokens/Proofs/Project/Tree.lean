import ColorTokens.Project.Tree
import ColorTokens.Proofs.Path
import Mathlib.Data.Option.Basic
import Std.Data.TreeMap

/-! What writing does to a tree. A path leads to one place, a text that is written stands at that
place, and besides it only directories that were missing come into being. -/

set_option autoImplicit false

namespace ColorTokens.Tree

/-- Where a path leads, whether or not the way is there. -/
def destination (tree : Tree) (path : String) : Location :=
  Path.destination tree.workingDirectory path

section Entries

variable {tree : Tree} {location other : Location} {entry : Entry}

theorem put_of_isNamed (proper : location.isNamed = true) :
    (tree.put location entry).entries = tree.entries.insert location entry := by
  rw [put, dif_pos proper]

theorem put_of_not_isNamed (improper : ¬ location.isNamed = true) :
    tree.put location entry = tree := by
  rw [put, dif_neg improper]

@[simp]
theorem workingDirectory_put (tree : Tree) (location : Location) (entry : Entry) :
    (tree.put location entry).workingDirectory = tree.workingDirectory := by
  unfold put
  split <;> rfl

theorem entry?_put_of_ne (apart : other ≠ location) :
    Tree.entry? (tree.put location entry) other = tree.entry? other := by
  by_cases proper : location.isNamed = true
  · unfold entry?
    simp only [put_of_isNamed proper, Std.TreeMap.get?_eq_getElem?, Std.TreeMap.getElem?_insert,
      Std.compare_eq_iff_eq, Ne.symm apart, if_false]
  · rw [put_of_not_isNamed proper]

theorem entry?_put_self (below : location ≠ []) (proper : location.isNamed = true) :
    Tree.entry? (tree.put location entry) location = some entry := by
  unfold entry?
  simp [put_of_isNamed proper, below]

theorem isNamed_destination (tree : Tree) (path : String) :
    (tree.destination path).isNamed = true :=
  Path.all_isName_destination path tree.startNamed

theorem isDirectoryAt_iff : tree.isDirectoryAt location = true ↔
    tree.entry? location = some .directory := by
  simp [isDirectoryAt]

end Entries

/-- A tree after writing at some places: directories stay, and so do files elsewhere. -/
structure Keeps (places : List Location) (before after : Tree) : Prop where
  workingDirectory : after.workingDirectory = before.workingDirectory
  directory : ∀ location, before.entry? location = some .directory →
    after.entry? location = some .directory
  file : ∀ location ∉ places, ∀ content, before.entry? location = some (.file content) →
    after.entry? location = some (.file content)

namespace Keeps

variable {places more : List Location} {before middle after : Tree}

theorem refl (places : List Location) (tree : Tree) : Keeps places tree tree :=
  ⟨rfl, fun _ there => there, fun _ _ _ there => there⟩

theorem trans (first : Keeps places before middle) (second : Keeps more middle after) :
    Keeps (places ++ more) before after where
  workingDirectory := second.workingDirectory.trans first.workingDirectory
  directory location there := second.directory location (first.directory location there)
  file location apart content there := by
    rw [List.mem_append, not_or] at apart
    exact second.file location apart.2 content (first.file location apart.1 content there)

theorem destination_eq (keeps : Keeps places before after) (path : String) :
    after.destination path = before.destination path := by
  rw [destination, destination, keeps.workingDirectory]

end Keeps

section Following

variable {tree : Tree} {places : List Location} {after : Tree}

theorem follow_eq {here location : Location} {components : List Path.Component}
    (followed : tree.follow here components = some location) :
    location = components.foldl Path.Component.step here := by
  induction components generalizing here with
  | nil => exact (Option.some.inj followed).symm
  | cons component rest ih =>
    cases component with
    | root => exact ih followed
    | current => exact ih followed
    | parent =>
      rw [follow, Option.ite_none_right_eq_some] at followed
      exact ih followed.2
    | name name =>
      rw [follow, Option.ite_none_right_eq_some] at followed
      exact ih followed.2

theorem Keeps.isDirectoryAt (keeps : Keeps places tree after) {here : Location}
    (there : tree.isDirectoryAt here = true) : after.isDirectoryAt here = true :=
  isDirectoryAt_iff.mpr (keeps.directory here (isDirectoryAt_iff.mp there))

theorem Keeps.follow {here location : Location} {components : List Path.Component}
    (keeps : Keeps places tree after) (followed : tree.follow here components = some location) :
    after.follow here components = some location := by
  induction components generalizing here with
  | nil => exact followed
  | cons component rest ih =>
    cases component with
    | root => exact ih followed
    | current => exact ih followed
    | parent =>
      rw [Tree.follow, Option.ite_none_right_eq_some] at followed ⊢
      exact ⟨keeps.isDirectoryAt followed.1, ih followed.2⟩
    | name name =>
      rw [Tree.follow, Option.ite_none_right_eq_some] at followed ⊢
      exact ⟨keeps.isDirectoryAt followed.1, ih followed.2⟩

theorem locate?_eq {path : String} {location : Location}
    (located : tree.locate? path = some location) : location = tree.destination path := by
  rw [locate?, Option.ite_none_left_eq_some] at located
  exact follow_eq located.2

theorem Keeps.locate? {path : String} {location : Location} (keeps : Keeps places tree after)
    (located : tree.locate? path = some location) : after.locate? path = some location := by
  rw [Tree.locate?, Option.ite_none_left_eq_some] at located ⊢
  rw [keeps.workingDirectory]
  exact ⟨located.1, keeps.follow located.2⟩

theorem content?_eq_some_iff {path : String} {content : Content} :
    tree.content? path = some content ↔
      tree.locate? path = some (tree.destination path) ∧ namesDirectory path = false ∧
        tree.entry? (tree.destination path) = some (.file content) := by
  unfold content? lookup?
  cases located : tree.locate? path with
  | none => simp
  | some location =>
    have place := locate?_eq located
    subst place
    cases found : tree.entry? (tree.destination path) with
    | none => simp [found]
    | some entry =>
      cases entry with
      | directory => simp [found, guard]
      | file content' => cases named : namesDirectory path <;> simp [found, guard, failure]

theorem Keeps.content? {path : String} {content : Content} (keeps : Keeps places tree after)
    (read : tree.content? path = some content) (apart : tree.destination path ∉ places) :
    after.content? path = some content := by
  obtain ⟨located, named, found⟩ := content?_eq_some_iff.mp read
  rw [content?_eq_some_iff, keeps.destination_eq]
  exact ⟨keeps.locate? located, named, keeps.file _ apart content found⟩

end Following

section Writing

variable {tree after : Tree} {path text : String}

theorem makeFrom_keeps (here : Location) (components : List Path.Component) (tree : Tree) :
    Keeps [] tree (tree.makeFrom here components).1 := by
  induction components generalizing tree here with
  | nil => exact .refl [] tree
  | cons component rest ih =>
    cases component with
    | root => exact ih [] tree
    | current => exact ih here tree
    | parent => exact ih here.dropLast tree
    | name name =>
      rw [makeFrom]
      cases found : tree.entry? (here ++ [name]) with
      | some entry =>
        cases entry with
        | directory => exact ih (here ++ [name]) tree
        | file content => exact .refl [] tree
      | none =>
        -- The new directory stands where nothing was.
        have made : Keeps [] tree (tree.put (here ++ [name]) .directory) := by
          have apart {location : Location} {entry : Entry}
              (there : tree.entry? location = some entry) : location ≠ here ++ [name] := by
            rintro rfl
            rw [found] at there
            cases there
          refine ⟨workingDirectory_put .., fun location there => ?_,
            fun location _ content there => ?_⟩
          · rwa [entry?_put_of_ne (apart there)]
          · rwa [entry?_put_of_ne (apart there)]
        exact made.trans (ih _ _)

theorem putText_keeps (tree : Tree) (path text : String) :
    Keeps [tree.destination path] tree (tree.putText path text).1 := by
  unfold putText
  cases located : tree.locate? path with
  | none => exact .refl _ tree
  | some location =>
    have place := locate?_eq located
    subst place
    simp only
    split
    · exact .refl _ tree
    · next free =>
      refine ⟨workingDirectory_put .., fun location there => ?_,
        fun location apart content there => ?_⟩
      · rw [entry?_put_of_ne]
        · exact there
        · rintro rfl
          simp [isDirectoryAt_iff.mpr there] at free
      · rw [List.mem_singleton] at apart
        rwa [entry?_put_of_ne apart]

theorem entry?_of_putText (done : tree.putText path text = (after, .ok ())) :
    after.entry? (tree.destination path) = some (.file (.text text)) := by
  unfold putText at done
  cases located : tree.locate? path with
  | none =>
    rw [located] at done
    cases done
  | some location =>
    have place := locate?_eq located
    subst place
    rw [located] at done
    simp only at done
    split at done
    · cases done
    · next free =>
      cases done
      refine entry?_put_self ?_ (isNamed_destination tree path)
      intro top
      have directory : tree.isDirectoryAt (tree.destination path) = true := by
        rw [top]
        rfl
      simp [directory] at free

theorem makeDirectories_keeps (tree : Tree) (directory : String) :
    Keeps [] tree (tree.makeDirectories directory).1 := by
  unfold makeDirectories
  split
  · exact .refl [] tree
  · exact makeFrom_keeps _ _ tree

/-- A text is written in a tree that has the same files as before. -/
theorem writeText_cases (tree : Tree) (path text : String) :
    ∃ made, Keeps [] tree made ∧ (tree.writeText path text = made.putText path text ∨
      ∃ directory, tree.writeText path text = (made, .error (.uncreatable directory))) := by
  cases above : Path.parent? path with
  | none => exact ⟨tree, .refl [] tree, .inl (by simp only [writeText, above])⟩
  | some directory =>
    have kept := makeDirectories_keeps tree directory
    cases complete : tree.makeDirectories directory with
    | mk made there =>
      rw [complete] at kept
      cases there with
      | true => exact ⟨made, kept, .inl (by simp only [writeText, above, complete])⟩
      | false => exact ⟨made, kept, .inr ⟨directory, by simp only [writeText, above, complete]⟩⟩

/-- Besides the place of the file, writing only makes directories that were missing. -/
theorem writeText_keeps (tree : Tree) (path text : String) :
    Keeps [tree.destination path] tree (tree.writeText path text).1 := by
  obtain ⟨made, kept, written | ⟨directory, failed⟩⟩ := writeText_cases tree path text
  · rw [written, ← kept.destination_eq]
    exact kept.trans (putText_keeps made path text)
  · rw [failed]
    exact kept.trans (.refl _ made)

theorem entry?_of_writeText (done : tree.writeText path text = (after, .ok ())) :
    after.entry? (tree.destination path) = some (.file (.text text)) := by
  obtain ⟨made, kept, written | ⟨directory, failed⟩⟩ := writeText_cases tree path text
  · rw [← kept.destination_eq]
    exact entry?_of_putText (written.symm.trans done)
  · rw [failed] at done
    cases done

end Writing

end ColorTokens.Tree
