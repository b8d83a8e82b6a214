import ColorTokens.Token.Assignment
import ColorTokens.Proofs.Keyed
import Mathlib.Data.List.Perm.Subperm

/-! What the check of an assignment says, of whatever maps it is made. It passes exactly those
whose minted colours each have a free identifier that is declared with that colour, while nothing
else is declared. Of any other it names the least colour at fault, or, where no colour is, the least
identifier that is declared for none. -/

set_option autoImplicit false

namespace ColorTokens.Assignment

def Mints (assignment : Assignment) (color identifier : String) : Prop :=
  assignment.origins[color]? = some .generated ∧ assignment.tokens[color]? = some identifier

def Declares (assignment : Assignment) (reserved : Std.TreeSet String) (color : String) : Prop :=
  ∃ identifier : String, assignment.tokens[color]? = some identifier ∧ identifier ∉ reserved ∧
    assignment.generated[identifier]? = some color

/-- Every minted colour is declared, and what is declared are the identifiers of these colours. -/
structure Consistent (assignment : Assignment) (reserved : Std.TreeSet String) : Prop where
  declared : ∀ color : String, assignment.origins[color]? = some .generated →
    assignment.Declares reserved color
  mem_generated_iff : ∀ identifier : String, identifier ∈ assignment.generated ↔
    ∃ color, assignment.Mints color identifier

structure FirstFault (assignment : Assignment) (reserved : Std.TreeSet String) (color : String) :
    Prop where
  minted : assignment.origins[color]? = some .generated
  undeclared : ¬ assignment.Declares reserved color
  least : ∀ other : String, compare other color = .lt →
    assignment.origins[other]? = some .generated → assignment.Declares reserved other

/-- An identifier that a colour cannot have: it is reserved, or a lesser minted colour has it. -/
def Taken (assignment : Assignment) (reserved : Std.TreeSet String) (color identifier : String) :
    Prop :=
  identifier ∈ reserved ∨ ∃ lesser, compare lesser color = .lt ∧ assignment.Mints lesser identifier

structure FirstStray (assignment : Assignment) (identifier : String) : Prop where
  declared : identifier ∈ assignment.generated
  unused : ∀ color, ¬ assignment.Mints color identifier
  least : ∀ other : String, compare other identifier = .lt → other ∈ assignment.generated →
    ∃ color, assignment.Mints color other

/-- What is wrong with an assignment. A colour at fault counts before any identifier that is
declared for none. -/
inductive Refused (assignment : Assignment) (reserved : Std.TreeSet String) :
    AssignmentError → Prop where
  | taken {color identifier : String} : assignment.FirstFault reserved color →
      assignment.tokens[color]? = some identifier → assignment.Taken reserved color identifier →
      Refused assignment reserved (.collision identifier)
  | undeclared {color : String} : assignment.FirstFault reserved color →
      (∀ identifier, assignment.tokens[color]? = some identifier →
        ¬ assignment.Taken reserved color identifier) →
      Refused assignment reserved (.undeclared color)
  | stray {identifier : String} :
      (∀ color : String, assignment.origins[color]? = some .generated →
        assignment.Declares reserved color) →
      assignment.FirstStray identifier → Refused assignment reserved (.collision identifier)

variable {assignment : Assignment} {reserved : Std.TreeSet String}

theorem declares_iff_of_token {color identifier : String}
    (token : assignment.tokens[color]? = some identifier) :
    assignment.Declares reserved color ↔
      identifier ∉ reserved ∧ assignment.generated[identifier]? = some color := by
  simp [Declares, token]

section Unique

theorem eq_of_not_lt {a b : String} (first : ¬ compare a b = .lt) (second : ¬ compare b a = .lt) :
    a = b := by
  cases order : compare a b with
  | lt => exact absurd order first
  | eq => exact Std.compare_eq_iff_eq.mp order
  | gt => exact absurd (Std.OrientedCmp.gt_iff_lt.mp order) second

theorem FirstFault.unique {color color' : String} (fault : assignment.FirstFault reserved color)
    (fault' : assignment.FirstFault reserved color') : color = color' :=
  eq_of_not_lt (fun lesser => fault.undeclared (fault'.least color lesser fault.minted))
    (fun lesser => fault'.undeclared (fault.least color' lesser fault'.minted))

theorem FirstStray.unique {identifier identifier' : String}
    (stray : assignment.FirstStray identifier) (stray' : assignment.FirstStray identifier') :
    identifier = identifier' := by
  apply eq_of_not_lt
  · intro lesser
    obtain ⟨color, mints⟩ := stray'.least identifier lesser stray.declared
    exact stray.unused color mints
  · intro lesser
    obtain ⟨color, mints⟩ := stray.least identifier' lesser stray'.declared
    exact stray'.unused color mints

theorem Refused.not_consistent {error : AssignmentError}
    (refused : assignment.Refused reserved error) : ¬ assignment.Consistent reserved := by
  intro consistent
  cases refused with
  | taken fault _ _ => exact fault.undeclared (consistent.declared _ fault.minted)
  | undeclared fault _ => exact fault.undeclared (consistent.declared _ fault.minted)
  | stray _ stray =>
    obtain ⟨color, mints⟩ := (consistent.mem_generated_iff _).mp stray.declared
    exact stray.unused color mints

theorem Refused.unique {error error' : AssignmentError}
    (refused : assignment.Refused reserved error) (refused' : assignment.Refused reserved error') :
    error = error' := by
  -- Both are about the one least colour at fault, or there is none and both are about the one stray.
  cases refused with
  | taken fault token taken =>
    cases refused' with
    | taken fault' token' _ =>
      cases fault.unique fault'
      rw [token] at token'
      cases token'
      rfl
    | undeclared fault' free =>
      cases fault.unique fault'
      exact absurd taken (free _ token)
    | stray declared _ => exact absurd (declared _ fault.minted) fault.undeclared
  | undeclared fault free =>
    cases refused' with
    | taken fault' token taken =>
      cases fault.unique fault'
      exact absurd taken (free _ token)
    | undeclared fault' _ => rw [fault.unique fault']
    | stray declared _ => exact absurd (declared _ fault.minted) fault.undeclared
  | stray declared stray =>
    cases refused' with
    | taken fault _ _ => exact absurd (declared _ fault.minted) fault.undeclared
    | undeclared fault _ => exact absurd (declared _ fault.minted) fault.undeclared
    | stray _ stray' => rw [stray.unique stray']

end Unique

section Loop

/-- What is known once the entries of a list have passed: `minted` are the identifiers of the
minted ones, each listed once. -/
structure Passed (assignment : Assignment) (reserved : Std.TreeSet String)
    (done : List (String × Origin)) (minted : List String) : Prop where
  declared : ∀ color, (color, .generated) ∈ done → assignment.Declares reserved color
  mem_iff : ∀ identifier, identifier ∈ minted ↔
    ∃ color, (color, .generated) ∈ done ∧ assignment.tokens[color]? = some identifier
  nodup : minted.Nodup

variable {done rest : List (String × Origin)} {minted : List String} {color identifier : String}

theorem passed_nil : assignment.Passed reserved [] [] := by
  refine ⟨?_, ?_, .nil⟩ <;> simp

theorem Passed.existing (passed : assignment.Passed reserved done minted) (color : String) :
    assignment.Passed reserved (done ++ [(color, .existing)]) minted := by
  have same : ∀ other, (other, Origin.generated) ∈ done ++ [(color, .existing)] ↔
      (other, .generated) ∈ done := by
    simp
  refine ⟨fun other member => passed.declared other ((same other).mp member), ?_, passed.nodup⟩
  intro identifier
  simp only [same, passed.mem_iff]

theorem Passed.generated (passed : assignment.Passed reserved done minted)
    (token : assignment.tokens[color]? = some identifier) (free : identifier ∉ reserved)
    (unused : identifier ∉ minted) (made : assignment.generated[identifier]? = some color) :
    assignment.Passed reserved (done ++ [(color, .generated)]) (identifier :: minted) := by
  refine ⟨?_, ?_, List.nodup_cons.mpr ⟨unused, passed.nodup⟩⟩
  · intro other member
    rcases List.mem_append.mp member with earlier | last
    · exact passed.declared other earlier
    · cases List.mem_singleton.mp last
      exact ⟨identifier, token, free, made⟩
  · intro other
    rw [List.mem_cons, passed.mem_iff]
    constructor
    · rintro (rfl | ⟨earlier, member, token'⟩)
      · exact ⟨color, by simp, token⟩
      · exact ⟨earlier, List.mem_append_left _ member, token'⟩
    · rintro ⟨other', member, token'⟩
      rcases List.mem_append.mp member with earlier | last
      · exact .inr ⟨other', earlier, token'⟩
      · cases List.mem_singleton.mp last
        rw [token] at token'
        cases token'
        exact .inl rfl

section Fault

variable (passed : assignment.Passed reserved done minted)
  (parted : assignment.origins.toList = done ++ (color, .generated) :: rest)

include passed parted

theorem Passed.firstFault (undeclared : ¬ assignment.Declares reserved color) :
    assignment.FirstFault reserved color where
  minted := by
    rw [← Std.TreeMap.mem_toList_iff_getElem?_eq_some, parted]
    simp
  undeclared := undeclared
  least other lesser minted :=
    passed.declared other ((Keyed.mem_front_iff parted).mpr ⟨minted, lesser⟩)

/-- The identifiers seen so far are those that lesser colours have. -/
theorem Passed.taken_iff :
    assignment.Taken reserved color identifier ↔ identifier ∈ reserved ∨ identifier ∈ minted := by
  -- The entries come in text order, so those that have passed are the lesser colours.
  simp only [Taken, Mints, passed.mem_iff, Keyed.mem_front_iff parted]
  grind

theorem Passed.refused_of_unnamed (unnamed : assignment.tokens[color]? = none) :
    assignment.Refused reserved (.undeclared color) := by
  refine .undeclared (passed.firstFault parted ?_) ?_
  · rintro ⟨identifier, token, -⟩
    rw [unnamed] at token
    cases token
  · intro identifier token
    rw [unnamed] at token
    cases token

theorem Passed.refused_of_taken (token : assignment.tokens[color]? = some identifier)
    (taken : identifier ∈ reserved ∨ identifier ∈ minted) :
    assignment.Refused reserved (.collision identifier) := by
  refine .taken (passed.firstFault parted ?_) token ((passed.taken_iff parted).mpr taken)
  rw [declares_iff_of_token token]
  rintro ⟨free, made⟩
  rcases taken with held | seen
  · exact free held
  -- The lesser colour that has the identifier is declared under it, and only one can be.
  · obtain ⟨lesser, member, token'⟩ := (passed.mem_iff identifier).mp seen
    obtain ⟨-, made'⟩ := (declares_iff_of_token token').mp (passed.declared lesser member)
    rw [made] at made'
    cases made'
    exact Keyed.not_lt_self color ((Keyed.mem_front_iff parted).mp member).2

theorem Passed.refused_of_other (token : assignment.tokens[color]? = some identifier)
    (free : identifier ∉ reserved) (unused : identifier ∉ minted)
    (other : assignment.generated[identifier]? ≠ some color) :
    assignment.Refused reserved (.undeclared color) := by
  refine .undeclared (passed.firstFault parted ?_) ?_
  · rw [declares_iff_of_token token]
    exact fun declared => other declared.2
  · intro identifier' token' taken
    rw [token] at token'
    cases token'
    exact ((passed.taken_iff parted).mp taken).elim free unused

end Fault

/-- The loop passes all entries, or it stops at the least colour that is at fault. -/
theorem Passed.checkMinted (passed : assignment.Passed reserved done minted)
    (parted : assignment.origins.toList = done ++ rest) :
    (∃ all, assignment.checkMinted reserved minted rest = .ok all ∧
      assignment.Passed reserved assignment.origins.toList all) ∨
    ∃ error, assignment.checkMinted reserved minted rest = .error error ∧
      assignment.Refused reserved error := by
  induction rest generalizing done minted with
  | nil =>
    rw [List.append_nil] at parted
    exact .inl ⟨minted, rfl, parted ▸ passed⟩
  | cons entry rest ih =>
    obtain ⟨color, origin⟩ := entry
    have parted' := parted
    rw [List.append_cons] at parted'
    cases origin with
    | existing => exact ih (passed.existing color) parted'
    | generated =>
      simp only [Assignment.checkMinted, Std.TreeMap.get?_eq_getElem?]
      cases token : assignment.tokens[color]? with
      | none => exact .inr ⟨_, rfl, passed.refused_of_unnamed parted token⟩
      | some identifier =>
        simp only [Bool.or_eq_true, Std.TreeSet.contains_iff_mem, List.contains_iff_mem]
        by_cases taken : identifier ∈ reserved ∨ identifier ∈ minted
        · rw [if_pos taken]
          exact .inr ⟨_, rfl, passed.refused_of_taken parted token taken⟩
        · rw [if_neg taken]
          obtain ⟨free, unused⟩ := not_or.mp taken
          by_cases made : assignment.generated[identifier]? = some color
          · rw [if_neg (by simp [made])]
            exact ih (passed.generated token free unused made) parted'
          · rw [if_pos (by simpa using made)]
            exact .inr ⟨_, rfl, passed.refused_of_other parted token free unused made⟩

end Loop

section Strays

variable {minted : List String}
  (passed : assignment.Passed reserved assignment.origins.toList minted)

include passed

theorem Passed.declares {color : String} (origin : assignment.origins[color]? = some .generated) :
    assignment.Declares reserved color :=
  passed.declared color (Std.TreeMap.mem_toList_iff_getElem?_eq_some.mpr origin)

theorem Passed.mem_iff_mints {identifier : String} :
    identifier ∈ minted ↔ ∃ color, assignment.Mints color identifier := by
  simp only [passed.mem_iff, Std.TreeMap.mem_toList_iff_getElem?_eq_some, Mints]

theorem Passed.subset_keys : minted ⊆ assignment.generated.keys := by
  intro identifier member
  obtain ⟨color, origin, token⟩ := passed.mem_iff_mints.mp member
  obtain ⟨-, made⟩ := (declares_iff_of_token token).mp (passed.declares origin)
  rw [Std.TreeMap.mem_keys, Std.TreeMap.mem_iff_isSome_getElem?, made]
  rfl

theorem Passed.consistent (complete : assignment.generated.keys ⊆ minted) :
    assignment.Consistent reserved where
  declared _ origin := passed.declares origin
  mem_generated_iff identifier := by
    rw [← passed.mem_iff_mints, ← Std.TreeMap.mem_keys]
    exact ⟨fun member => complete member, fun member => passed.subset_keys member⟩

theorem Passed.keys_subset_of_length (same : minted.length = assignment.generated.size) :
    assignment.generated.keys ⊆ minted := by
  have within : minted.Subperm assignment.generated.keys := passed.nodup.subperm passed.subset_keys
  have length : assignment.generated.keys.length ≤ minted.length :=
    Nat.le_of_eq (Std.TreeMap.length_keys.trans same.symm)
  exact (within.perm_of_length_le length).symm.subset

theorem Passed.firstStray {identifier : String}
    (found : assignment.generated.keys.find? (!minted.contains ·) = some identifier) :
    assignment.FirstStray identifier := by
  rw [List.find?_eq_some_iff_append] at found
  obtain ⟨missing, front, back, parted, passedOver⟩ := found
  have sorted : assignment.generated.keys.Pairwise fun a b => compare a b = .lt :=
    Std.TreeMap.ordered_keys
  have member : identifier ∈ assignment.generated.keys := by simp [parted]
  refine ⟨Std.TreeMap.mem_keys.mp member, ?_, ?_⟩
  · intro color mints
    have listed := passed.mem_iff_mints.mpr ⟨color, mints⟩
    simp [listed] at missing
  · intro other lesser declared
    -- A lesser key stands in front, and what stands in front was passed over.
    have front := Keyed.mem_front_of_lt sorted parted (Std.TreeMap.mem_keys.mpr declared) lesser
    have listed := passedOver other front
    simp only [Bool.not_not, List.contains_iff_mem] at listed
    exact passed.mem_iff_mints.mp listed

end Strays

theorem verify_cases (assignment : Assignment) (reserved : Std.TreeSet String) :
    assignment.verify reserved = .ok () ∧ assignment.Consistent reserved ∨
      ∃ error, assignment.verify reserved = .error error ∧ assignment.Refused reserved error := by
  rw [verify]
  rcases passed_nil.checkMinted (List.nil_append assignment.origins.toList).symm with
    ⟨all, checked, passed⟩ | ⟨error, checked, refused⟩
  · rw [checked]
    simp only [bind, Except.bind]
    -- As many identifiers as declarations leave none over; otherwise the search for one decides.
    by_cases same : all.length = assignment.generated.size
    · rw [if_neg (by simpa using same)]
      exact .inl ⟨rfl, passed.consistent (passed.keys_subset_of_length same)⟩
    · rw [if_pos (by simpa using same)]
      cases found : assignment.generated.keys.find? (!all.contains ·) with
      | none =>
        refine .inl ⟨rfl, passed.consistent fun identifier member => ?_⟩
        rw [List.find?_eq_none] at found
        simpa using found identifier member
      | some identifier =>
        refine .inr ⟨.collision identifier, rfl, .stray ?_ (passed.firstStray found)⟩
        exact fun color origin => passed.declares origin
  · rw [checked]
    exact .inr ⟨error, rfl, refused⟩

theorem verify_eq_ok_iff :
    assignment.verify reserved = .ok () ↔ assignment.Consistent reserved := by
  rcases verify_cases assignment reserved with ⟨passes, consistent⟩ | ⟨error, fails, refused⟩
  · exact iff_of_true passes consistent
  · refine iff_of_false ?_ refused.not_consistent
    rw [fails]
    nofun

theorem verify_eq_error_iff {error : AssignmentError} :
    assignment.verify reserved = .error error ↔ assignment.Refused reserved error := by
  rcases verify_cases assignment reserved with ⟨passes, consistent⟩ | ⟨error', fails, refused⟩
  · refine iff_of_false ?_ fun refused => refused.not_consistent consistent
    rw [passes]
    nofun
  · rw [fails, Except.error.injEq]
    constructor
    · rintro rfl
      exact refused
    · exact refused.unique

/-- The check passes exactly the assignments that are consistent, and of any other it tells what is
wrong: an identifier that the least colour at fault cannot have, else that colour, and where no
colour is at fault the least identifier that is declared for none. -/
theorem verify_tells_first_fault (assignment : Assignment) (reserved : Std.TreeSet String) :
    (assignment.verify reserved = .ok () ↔ assignment.Consistent reserved) ∧
    ∀ error, assignment.verify reserved = .error error ↔ assignment.Refused reserved error :=
  ⟨verify_eq_ok_iff, fun _ => verify_eq_error_iff⟩

end ColorTokens.Assignment
