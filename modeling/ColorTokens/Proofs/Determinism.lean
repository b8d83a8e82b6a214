import ColorTokens.Proofs.Tokenization

/-! What a run depends on. Files are arranged by path before any token is given, so the order they
come in does not matter; a path that comes twice is the one thing that makes a run fail. -/

set_option autoImplicit false

namespace ColorTokens

namespace Tokenizer

section Order

variable {scanned scanned' : List ScannedFile} {arranged arranged' : Std.TreeMap String ScannedFile}

theorem arrange_values_eq (perm : scanned.Perm scanned') (done : arrange scanned = .ok arranged)
    (done' : arrange scanned' = .ok arranged') : arranged.values = arranged'.values := by
  have entries : arranged.toList.Perm arranged'.toList :=
    ((arrange_perm done).trans (perm.map _)).trans (arrange_perm done').symm
  rw [Keyed.values_eq, Keyed.values_eq, Keyed.toList_eq_of_perm entries]

theorem finish_eq_of_values (tokenizer : Tokenizer) (sheet : TokenSheet)
    (done : arrange scanned = .ok arranged) (done' : arrange scanned' = .ok arranged')
    (same : arranged.values = arranged'.values) :
    tokenizer.finish scanned sheet = tokenizer.finish scanned' sheet := by
  unfold finish
  rw [done, done']
  simp only [bind, Except.bind, same]

theorem run_eq_of_perm (tokenizer : Tokenizer) (sheet : String) {files files' : List SourceFile}
    (perm : files'.Perm files) (distinct : (files.map (·.path)).Nodup) :
    tokenizer.run files' sheet = tokenizer.run files sheet := by
  have distinct' : (files'.map (·.path)).Nodup :=
    (perm.map SourceFile.path).nodup_iff.mpr distinct
  rw [← map_path_scanFile tokenizer] at distinct distinct'
  obtain ⟨arranged, done⟩ := exists_arrange distinct
  obtain ⟨arranged', done'⟩ := exists_arrange distinct'
  apply finish_eq_of_values tokenizer _ done' done
  exact arrange_values_eq (perm.map _) done' done

end Order

section Repeats

theorem exists_first_repeat {files : List SourceFile} (repeats : ¬ (files.map (·.path)).Nodup) :
    ∃ front file back, files = front ++ file :: back ∧ (front.map (·.path)).Nodup ∧
      file.path ∈ front.map (·.path) := by
  -- From the end: either the files before the last one repeat already, or the last one does.
  induction files using List.reverseRecOn with
  | nil => exact absurd List.nodup_nil repeats
  | append_singleton files last ih =>
    by_cases earlier : (files.map (·.path)).Nodup
    · refine ⟨files, last, [], rfl, earlier, ?_⟩
      by_contra new
      apply repeats
      rw [List.map_append]
      exact earlier.append (List.nodup_singleton _) (by simpa using new)
    · obtain ⟨front, file, back, rfl, distinct, member⟩ := ih earlier
      exact ⟨front, file, back ++ [last], by simp, distinct, member⟩

theorem arrange_eq_error {front back : List ScannedFile} {file : ScannedFile}
    (distinct : (front.map (·.path)).Nodup) (member : file.path ∈ front.map (·.path)) :
    arrange (front ++ file :: back) = .error (.duplicatePath file.path) := by
  obtain ⟨arranged, done⟩ := exists_arrange distinct
  have present : arranged.contains file.path = true := by
    have keys := (arrange_perm done).map Prod.fst
    rw [Std.TreeMap.map_fst_toList_eq_keys, List.map_map] at keys
    rw [Std.TreeMap.contains_iff_mem, ← Std.TreeMap.mem_keys]
    exact keys.mem_iff.mpr member
  have refused : arrangeOne arranged file = .error (.duplicatePath file.path) := if_pos present
  rw [arrange_eq_foldlM] at done ⊢
  rw [List.foldlM_append, done]
  simp only [bind, Except.bind, List.foldlM_cons, refused]

theorem run_eq_error (tokenizer : Tokenizer) (sheet : String) {front back : List SourceFile}
    {file : SourceFile} (distinct : (front.map (·.path)).Nodup)
    (member : file.path ∈ front.map (·.path)) :
    tokenizer.run (front ++ file :: back) sheet = .error (.duplicatePath file.path) := by
  rw [← map_path_scanFile tokenizer] at distinct member
  have refused : arrange (front.map tokenizer.scanFile ++ tokenizer.scanFile file ::
      back.map tokenizer.scanFile) = .error (.duplicatePath file.path) :=
    arrange_eq_error distinct member
  rw [run, List.map_append, List.map_cons, finish, refused]
  rfl

end Repeats

end Tokenizer

end ColorTokens
