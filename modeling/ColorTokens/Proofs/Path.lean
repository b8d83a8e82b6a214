import ColorTokens.Path
import Mathlib.Data.List.TakeWhile

/-! Where paths lead. A path is a way from a place, whatever stands there; to join two paths is to
go one way after the other, and the part of a path below a base leads on from the base. -/

set_option autoImplicit false

namespace ColorTokens.Path

open Component

def Component.step (here : List String) : Component → List String
  | .root => []
  | .current => here
  | .parent => here.dropLast
  | .name text => here ++ [text]

def destination (start : List String) (path : String) : List String :=
  (components path).foldl Component.step start

/-- The components of a text that are not special to its beginning. -/
def body (text : List Char) : List Component :=
  (pieces text).filterMap Component.ofPiece?

theorem components_eq (path : String) :
    components path = (leading? path.toList).toList ++ body path.toList := rfl

section Pieces

theorem pieces_ne_nil (text : List Char) : pieces text ≠ [] := by
  cases text with
  | nil => simp [pieces]
  | cons c rest =>
    unfold pieces
    split
    · simp
    · split <;> simp

theorem pieces_append_slash (front rest : List Char) :
    pieces (front ++ '/' :: rest) = pieces front ++ pieces rest := by
  induction front with
  | nil => rfl
  | cons c front ih =>
    by_cases slash : c = '/'
    · simp [pieces, slash, ih]
    · rw [List.cons_append, pieces, pieces, ih]
      cases shape : pieces front with
      | nil => exact absurd shape (pieces_ne_nil front)
      | cons piece more => simp [slash]

theorem pieces_of_notMem {run : List Char} (bare : '/' ∉ run) : pieces run = [run] := by
  induction run with
  | nil => rfl
  | cons c run ih =>
    rw [List.mem_cons, not_or] at bare
    simp [pieces, Ne.symm bare.1, ih bare.2]

theorem notMem_of_mem_pieces {text piece : List Char} (member : piece ∈ pieces text) :
    '/' ∉ piece := by
  induction text generalizing piece with
  | nil => simp_all [pieces]
  | cons c rest ih =>
    rw [pieces] at member
    by_cases slash : c = '/'
    · rcases List.mem_cons.mp (by simpa [slash] using member) with rfl | later
      · exact List.not_mem_nil
      · exact ih later
    · cases shape : pieces rest with
      | nil => exact absurd shape (pieces_ne_nil rest)
      | cons first more =>
        rw [shape] at member ih
        rcases List.mem_cons.mp (by simpa [slash] using member) with rfl | later
        · rw [List.mem_cons, not_or]
          exact ⟨Ne.symm slash, ih List.mem_cons_self⟩
        · exact ih (List.mem_cons_of_mem _ later)

@[simp]
theorem body_nil : body [] = [] := rfl

@[simp]
theorem body_dot : body ['.'] = [] := rfl

theorem body_append_slash (front rest : List Char) :
    body (front ++ '/' :: rest) = body front ++ body rest := by
  rw [body, pieces_append_slash, List.filterMap_append]
  rfl

@[simp]
theorem body_slash (rest : List Char) : body ('/' :: rest) = body rest :=
  body_append_slash [] rest

@[simp]
theorem body_dot_slash (rest : List Char) : body ('.' :: '/' :: rest) = body rest :=
  body_append_slash ['.'] rest

theorem body_of_notMem {run : List Char} (bare : '/' ∉ run) :
    body run = (ofPiece? run).toList := by
  rw [body, pieces_of_notMem bare]
  cases shape : ofPiece? run <;> simp [shape]

theorem eq_of_mem_body {text : List Char} {component : Component} (member : component ∈ body text) :
    component = .parent ∨ ∃ name, component = .name name := by
  obtain ⟨piece, -, read⟩ := List.mem_filterMap.mp member
  unfold ofPiece? at read
  split at read
  · cases read
  · split at read <;> cases read
    · exact .inl rfl
    · exact .inr ⟨_, rfl⟩

theorem isName_ofPiece? {piece : List Char} {name : String} (bare : '/' ∉ piece)
    (read : ofPiece? piece = some (.name name)) : isName name = true := by
  have whole : body piece = [.name name] := by rw [body_of_notMem bare, read]; rfl
  have spelled : name.toList = piece ∧ leading? piece = none := by
    unfold ofPiece? at read
    split at read
    · cases read
    · next proper =>
      split at read
      · cases read
      · cases read
        refine ⟨String.toList_ofList, ?_⟩
        unfold leading?
        split <;> simp_all
  rw [isName, components_eq, spelled.1, spelled.2, whole]
  exact beq_self_eq_true _

theorem isName_of_mem_components {path name : String} (member : .name name ∈ components path) :
    isName name = true := by
  rw [components_eq, List.mem_append, Option.mem_toList] at member
  rcases member with first | later
  · unfold leading? at first
    split at first <;> cases first
  · obtain ⟨piece, listed, read⟩ := List.mem_filterMap.mp later
    exact isName_ofPiece? (notMem_of_mem_pieces listed) read

end Pieces

section Trimming

variable (text : List Char)

@[simp]
theorem body_trimLeading : body (trimLeading text) = body text := by
  fun_induction trimLeading text with
  | case1 rest ih => rw [ih, body_slash]
  | case2 => rfl
  | case3 rest ih => rw [ih, body_dot_slash]
  | case4 => rfl

@[simp]
theorem leading?_trimLeading : leading? (trimLeading text) = none := by
  fun_induction trimLeading text with
  | case1 rest ih => exact ih
  | case2 => rfl
  | case3 rest ih => exact ih
  | case4 text slash dot dotSlash =>
    unfold leading?
    split
    · exact (slash _ rfl).elim
    · exact (dot rfl).elim
    · exact (dotSlash _ rfl).elim
    · rfl

theorem trimTrailingReversed_suffix : trimTrailingReversed text <:+ text := by
  fun_induction trimTrailingReversed text with
  | case1 rest ih => exact ih.trans (List.suffix_cons _ _)
  | case2 rest ih => exact ih.trans ((List.suffix_cons _ _).trans (List.suffix_cons _ _))
  | case3 => exact List.suffix_rfl

theorem body_reverse_trimTrailingReversed :
    body (trimTrailingReversed text).reverse = body text.reverse := by
  fun_induction trimTrailingReversed text with
  | case1 rest ih => rw [ih, List.reverse_cons, body_append_slash, body_nil, List.append_nil]
  | case2 rest ih =>
    rw [ih, List.reverse_cons, List.reverse_cons, List.append_assoc, List.singleton_append,
      body_append_slash, body_dot, List.append_nil]
  | case3 => rfl

@[simp]
theorem body_trimTrailing : body (trimTrailing text) = body text := by
  have trimmed := body_reverse_trimTrailingReversed text.reverse
  rw [List.reverse_reverse] at trimmed
  unfold trimTrailing
  simp only
  split
  · next bare =>
    rw [Bool.and_eq_true, List.isEmpty_iff] at bare
    rw [← trimmed, bare.2]
    rfl
  · exact trimmed

theorem head?_trimTrailing : (trimTrailing text).head? = some '/' ↔ text.head? = some '/' := by
  have kept : (trimTrailingReversed text.reverse).reverse <+: text := by
    have reversed := List.reverse_prefix.mpr (trimTrailingReversed_suffix text.reverse)
    rwa [List.reverse_reverse] at reversed
  unfold trimTrailing
  simp only
  cases shape : (trimTrailingReversed text.reverse).reverse with
  | nil => by_cases absolute : text.head? = some '/' <;> simp [absolute]
  | cons c rest =>
    obtain ⟨tail, rfl⟩ := shape ▸ kept
    simp

theorem body_dropWhile {text : List Char} {first : Component} {others : List Component}
    (bare : leading? text = none) (shape : body text = first :: others) :
    body (text.dropWhile (· != '/')) = others := by
  have whole := List.takeWhile_append_dropWhile (p := (· != '/')) (l := text)
  have run : '/' ∉ text.takeWhile (· != '/') := by
    intro member
    simpa using List.mem_takeWhile_imp member
  generalize text.takeWhile (· != '/') = front at whole run
  cases rest : text.dropWhile (· != '/') with
  | nil =>
    rw [rest, List.append_nil] at whole
    rw [← whole, body_of_notMem run] at shape
    cases read : ofPiece? front <;> rw [read] at shape <;> cases shape
    rfl
  | cons c rest' =>
    have slash : c = '/' := by
      have stopped := List.head?_dropWhile_not (· != '/') text
      simpa [rest] using stopped
    subst slash
    rw [rest] at whole
    rw [← whole, body_append_slash, body_of_notMem run] at shape
    rw [body_slash]
    cases read : ofPiece? front with
    | some component =>
      rw [read] at shape
      exact (List.cons.inj shape).2
    | none =>
      -- An empty piece or a dot in front of the slash would be special to the beginning.
      unfold ofPiece? at read
      split at read
      · next void =>
        rw [Bool.or_eq_true, List.isEmpty_iff, beq_iff_eq] at void
        rcases void with rfl | rfl <;> rw [← whole] at bare <;> cases bare
      · split at read <;> cases read

theorem body_foldl_dropComponent {text : List Char} {front others : List Component}
    (shape : body text = front ++ others) :
    body (front.foldl (fun text component => dropComponent component text) text) = others := by
  induction front generalizing text with
  | nil => exact shape
  | cons first front ih =>
    have dropped : dropComponent first text = (trimLeading text).dropWhile (· != '/') := by
      have member : first ∈ body text := by simp [shape]
      rcases eq_of_mem_body member with rfl | ⟨name, rfl⟩ <;> rfl
    rw [List.foldl_cons]
    apply ih
    rw [dropped]
    exact body_dropWhile (leading?_trimLeading text) (by rw [body_trimLeading, shape]; rfl)

end Trimming

section Destinations

variable {start : List String} {root base path rest : String}

/-- Where a text leads depends on whether it begins at the top and on its body. -/
theorem destination_eq (start : List String) (path : String) :
    destination start path =
      (body path.toList).foldl Component.step (if isAbsolute path then [] else start) := by
  rw [destination, components_eq, List.foldl_append, isAbsolute]
  congr 1
  unfold leading?
  split
  · next shape => simp [shape, Component.step]
  · next shape => simp [shape, Component.step]
  · next shape => simp [shape, Component.step]
  · next slash _ _ =>
    rw [if_neg]
    · rfl
    · simp only [beq_iff_eq]
      intro head
      obtain ⟨more, shape⟩ := List.head?_eq_some_iff.mp head
      exact slash more shape

theorem destination_of_absolute (absolute : isAbsolute path = true) (start start' : List String) :
    destination start path = destination start' path := by
  rw [destination_eq, destination_eq, if_pos absolute, if_pos absolute]

theorem exists_join (relative : isAbsolute path = false) (nonempty : base ≠ "") :
    ∃ trunk, (join base path).toList = trunk ++ '/' :: path.toList ∧
      (base.toList = trunk ++ ['/'] ∨ base.toList = trunk ∧ trunk ≠ []) := by
  have filled : base.toList ≠ [] := by simpa using nonempty
  have notEmpty : base.isEmpty = false := by simpa using nonempty
  unfold join
  rw [relative, notEmpty]
  by_cases slash : base.toList.getLast? = some '/'
  · obtain ⟨trunk, shape⟩ := List.getLast?_eq_some_iff.mp slash
    exact ⟨trunk, by simp [shape], .inl shape⟩
  · exact ⟨base.toList, by simp [slash], .inr ⟨rfl, filled⟩⟩

theorem leading?_append_slash (trunk rest : List Char) :
    leading? (trunk ++ '/' :: rest) = leading? (trunk ++ ['/']) := by
  rcases trunk with _ | ⟨c, _ | ⟨d, trunk⟩⟩
  · rfl
  · by_cases dot : c = '.' <;> by_cases slash : c = '/' <;> simp_all [leading?]
  · by_cases dot : c = '.' <;> by_cases slash : c = '/' <;> by_cases second : d = '/' <;>
      simp_all [leading?]

theorem leading?_append_last {trunk : List Char} (nonempty : trunk ≠ []) :
    leading? (trunk ++ ['/']) = leading? trunk := by
  rcases trunk with _ | ⟨c, _ | ⟨d, trunk⟩⟩
  · exact absurd rfl nonempty
  · by_cases dot : c = '.' <;> by_cases slash : c = '/' <;> simp_all [leading?]
  · by_cases dot : c = '.' <;> by_cases slash : c = '/' <;> by_cases second : d = '/' <;>
      simp_all [leading?]

theorem components_join (relative : isAbsolute path = false) (nonempty : base ≠ "") :
    components (join base path) = components base ++ body path.toList := by
  obtain ⟨trunk, joined, shape⟩ := exists_join relative nonempty
  rw [components_eq, components_eq, joined, leading?_append_slash, body_append_slash,
    List.append_assoc]
  rcases shape with shape | ⟨shape, filled⟩
  · rw [shape, body_append_slash, body_nil, List.append_nil]
  · rw [shape, leading?_append_last filled]

theorem isAbsolute_join (relative : isAbsolute path = false) (nonempty : base ≠ "") :
    isAbsolute (join base path) = isAbsolute base := by
  obtain ⟨trunk, joined, shape⟩ := exists_join relative nonempty
  unfold isAbsolute
  rw [joined]
  rcases shape with shape | ⟨shape, filled⟩
  · rw [shape]
    cases trunk <;> rfl
  · obtain ⟨c, trunk, rfl⟩ := List.exists_cons_of_ne_nil filled
    rw [shape]
    rfl

theorem join_of_absolute (absolute : isAbsolute path = true) : join base path = path := by
  unfold join
  rw [absolute]
  rfl

theorem join_empty (path : String) : join "" path = path := by
  unfold join
  rw [show "".isEmpty = true from rfl, Bool.or_true]
  rfl

/-- To follow a joined path is to follow one path after the other. -/
theorem destination_join (start : List String) (base path : String) :
    destination start (join base path) = destination (destination start base) path := by
  cases absolute : isAbsolute path with
  | true =>
    rw [join_of_absolute absolute]
    exact destination_of_absolute absolute _ _
  | false =>
    by_cases nonempty : base = ""
    · subst nonempty
      rw [join_empty]
      rfl
    · rw [destination, components_join absolute nonempty, List.foldl_append,
        destination_eq _ path, absolute]
      rfl

theorem dropComponents_spec {text : List Char} {front others : List Component} (nonempty : front ≠ [])
    (shape : (leading? text).toList ++ body text = front ++ others) :
    body (dropComponents front text) = others ∧ leading? (dropComponents front text) = none := by
  unfold dropComponents
  rw [if_neg (by simpa using nonempty), body_trimLeading]
  refine ⟨?_, leading?_trimLeading _⟩
  obtain ⟨first, front, rfl⟩ := List.exists_cons_of_ne_nil nonempty
  -- Only the component that is special to the beginning is dropped as one character.
  have opened : leading? text = some first ∧ dropComponent first text = text.drop 1 ∧
      body (text.drop 1) = body text ∨ leading? text = none := by
    unfold leading?
    split
    · next rest =>
      cases List.cons.inj shape |>.1
      exact .inl ⟨rfl, rfl, (body_slash rest).symm⟩
    · cases List.cons.inj shape |>.1
      exact .inl ⟨rfl, rfl, rfl⟩
    · next rest =>
      cases List.cons.inj shape |>.1
      exact .inl ⟨rfl, rfl, by simp⟩
    · exact .inr rfl
  rcases opened with ⟨read, dropped, kept⟩ | bare
  · rw [read] at shape
    rw [List.foldl_cons, dropped]
    apply body_foldl_dropComponent
    rw [kept]
    exact (List.cons.inj shape).2
  · rw [bare] at shape
    exact body_foldl_dropComponent shape

theorem below?_eq_some (found : below? base path = some rest) :
    components base <+: components path ∧
      rest.toList = trimTrailing (dropComponents (components base) path.toList) := by
  unfold below? at found
  simp only [List.isPrefixOf_iff_prefix, Option.ite_none_right_eq_some, Option.some.injEq] at found
  obtain ⟨begins, rfl⟩ := found
  exact ⟨begins, by simp⟩

theorem below?_eq_none_iff :
    below? base path = none ↔ ¬ components base <+: components path := by
  unfold below?
  simp [List.isPrefixOf_iff_prefix]

theorem destination_below? (start : List String) (found : below? base path = some rest) :
    destination (destination start base) rest = destination start path := by
  obtain ⟨⟨others, shape⟩, written⟩ := below?_eq_some found
  by_cases none : components base = []
  · have still : destination start base = start := by rw [destination, none]; rfl
    have trimmed : rest.toList = trimTrailing path.toList := by
      rw [written, none]
      rfl
    have absolute : isAbsolute rest = isAbsolute path := by
      unfold isAbsolute
      rw [trimmed, Bool.eq_iff_iff, beq_iff_eq, beq_iff_eq]
      exact head?_trimTrailing _
    rw [still, destination_eq, destination_eq, absolute, trimmed, body_trimTrailing]
  · obtain ⟨left, bare⟩ := dropComponents_spec none (by rw [← components_eq, shape])
    have relative : isAbsolute rest = false := by
      unfold isAbsolute
      rw [written, beq_eq_false_iff_ne, ne_eq, head?_trimTrailing]
      intro slash
      obtain ⟨more, whole⟩ := List.head?_eq_some_iff.mp slash
      rw [whole] at bare
      cases bare
    rw [destination_eq _ rest, relative, written, body_trimTrailing, left, destination, destination,
      ← shape, List.foldl_append]
    rfl

/-- A path that begins at the root of a project or at the top of the tree. -/
def Anchored (root path : String) : Prop :=
  components root <+: components path ∨ isAbsolute path = true

theorem anchored_self (root : String) : Anchored root root :=
  .inl List.prefix_rfl

theorem Anchored.join (anchored : Anchored root base) (path : String) :
    Anchored root (join base path) := by
  cases absolute : isAbsolute path with
  | true =>
    rw [join_of_absolute absolute]
    exact .inr absolute
  | false =>
    by_cases nonempty : base = ""
    · subst nonempty
      rw [join_empty]
      rcases anchored with begins | absolute
      · rw [show components "" = [] from rfl, List.prefix_nil] at begins
        exact .inl (by simp [begins])
      · cases absolute
    · rcases anchored with begins | absolute'
      · rw [Anchored, components_join absolute nonempty]
        exact .inl (begins.trans (List.prefix_append _ _))
      · rw [Anchored, isAbsolute_join absolute nonempty]
        exact .inr absolute'

theorem Anchored.foldl_join (anchored : Anchored root path) (names : List String) :
    Anchored root (names.foldl Path.join path) := by
  induction names generalizing path with
  | nil => exact anchored
  | cons name names ih => exact ih (anchored.join name)

/-- A path that is shown below the root leads, from the root, where it led. -/
theorem destination_shown (start : List String) (anchored : Anchored root path) :
    destination start (join root ((below? root path).getD path)) = destination start path := by
  cases shown : below? root path with
  | some rest =>
    rw [Option.getD_some, destination_join]
    exact destination_below? start shown
  | none =>
    rw [Option.getD_none, join_of_absolute (anchored.resolve_left (below?_eq_none_iff.mp shown))]

theorem all_isName_foldl_step {components : List Component}
    (named : ∀ name, .name name ∈ components → isName name = true)
    (proper : start.all isName = true) :
    (components.foldl Component.step start).all isName = true := by
  induction components generalizing start with
  | nil => exact proper
  | cons component rest ih =>
    refine ih (fun name member => named name (List.mem_cons_of_mem _ member)) ?_
    cases component with
    | root => rfl
    | current => exact proper
    | parent =>
      rw [List.all_eq_true] at proper ⊢
      exact fun name member => proper name (List.dropLast_subset _ member)
    | name name =>
      have last := named name List.mem_cons_self
      simp_all [Component.step]

theorem all_isName_destination (path : String) (proper : start.all isName = true) :
    (destination start path).all isName = true :=
  all_isName_foldl_step (fun _ => isName_of_mem_components) proper

theorem destination_of_isName (start : List String) (named : isName path = true) :
    destination start path = start ++ [path] := by
  rw [destination, beq_iff_eq.mp named]
  rfl

theorem destination_foldl_join (start : List String) {names : List String}
    (named : ∀ name ∈ names, isName name = true) :
    destination start (names.foldl join path) = destination start path ++ names := by
  induction names generalizing path with
  | nil => exact (List.append_nil _).symm
  | cons name names ih =>
    obtain ⟨first, others⟩ := List.forall_mem_cons.mp named
    rw [List.foldl_cons, ih others, destination_join, destination_of_isName _ first,
      List.append_assoc]
    rfl

theorem forwardSlashes_eq (plain : '\\' ∉ path.toList) : forwardSlashes path = path := by
  have same : path.toList.map (fun c => if c == '\\' then '/' else c) = path.toList.map id := by
    apply List.map_congr_left
    intro c member
    have other : c ≠ '\\' := fun same => plain (same ▸ member)
    simp [other]
  rw [forwardSlashes, same, List.map_id, String.ofList_toList]

end Destinations

end ColorTokens.Path
