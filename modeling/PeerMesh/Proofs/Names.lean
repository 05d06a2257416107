import Mathlib.Data.List.TakeWhile
import PeerMesh.Name
import PeerMesh.Proofs.Words

/-! Sanitized names. A name that holds no blank and is not too long is left alone, and every sanitized
name is one, so that sanitizing again changes nothing. -/

namespace PeerMesh.Proofs.Names
open Text Words

private theorem head_plain {cs : List Char} (plain : ∀ c ∈ cs, isBlank c = false)
    (nonempty : 0 < cs.length) : ¬isBlank (cs.get ⟨0, nonempty⟩) = true := by
  rw [plain _ (List.get_mem _ _)]
  exact Bool.false_ne_true

theorem trim_of_plain {cs : List Char} (plain : ∀ c ∈ cs, isBlank c = false) : trim cs = cs := by
  have start : trimStart cs = cs := List.dropWhile_eq_self_iff.mpr (head_plain plain)
  have back : cs.reverse.dropWhile isBlank = cs.reverse :=
    List.dropWhile_eq_self_iff.mpr (head_plain fun c member => plain c (List.mem_reverse.mp member))
  rw [trim, start, trimEnd, back, List.reverse_reverse]

/-- A text with something to read in it is not trimmed away. -/
theorem trim_ne_nil {cs : List Char} (spelled : isAllBlank cs = false) : trim cs ≠ [] := by
  have start : trimStart cs ≠ [] := by
    intro empty
    obtain ⟨c, member, plain⟩ := isAllBlank_eq_false.mp spelled
    rw [List.dropWhile_eq_nil_iff.mp empty c member] at plain
    cases plain
  intro empty
  have blank := List.dropWhile_eq_nil_iff.mp (List.reverse_eq_nil_iff.mp empty)
  have first : 0 < (trimStart cs).length := List.length_pos_iff.mpr start
  exact List.dropWhile_get_zero_not isBlank cs first (blank _ (List.mem_reverse.mpr (List.get_mem _ _)))

theorem plain_sanitize (s : String) : ∀ c ∈ (Name.sanitize s).toList, isBlank c = false := by
  intro c member
  rw [Name.sanitize, String.toList_ofList] at member
  obtain ⟨d, -, rfl⟩ := List.mem_map.mp (List.mem_of_mem_take member)
  split
  · rfl
  next plain => exact Bool.eq_false_iff.mpr plain

theorem sanitize_of_plain {s : String} (plain : ∀ c ∈ s.toList, isBlank c = false)
    (short : s.toList.length ≤ Name.maxLength) : Name.sanitize s = s := by
  have kept : s.toList.map (fun c => if isBlank c then '_' else c) = s.toList := by
    refine (List.map_congr_left fun c member => ?_).trans (List.map_id _)
    rw [plain c member]
    rfl
  rw [Name.sanitize, Name.sanitizeList, trim_of_plain plain, kept, List.take_of_length_le short,
    String.ofList_toList]

theorem length_sanitize (s : String) : (Name.sanitize s).toList.length ≤ Name.maxLength := by
  rw [Name.sanitize, String.toList_ofList]
  exact List.length_take_le _ _

theorem sanitize_sanitize (s : String) : Name.sanitize (Name.sanitize s) = Name.sanitize s :=
  sanitize_of_plain (plain_sanitize s) (length_sanitize s)

theorem isClean_sanitize {s : String} (nonempty : (Name.sanitize s).isEmpty = false) :
    Name.isClean (Name.sanitize s) = true := by
  rw [Name.isClean, nonempty, sanitize_sanitize]
  simp

theorem sanitize_of_isClean {s : String} (clean : Name.isClean s = true) : Name.sanitize s = s :=
  eq_of_beq (Bool.and_eq_true_iff.mp clean).2

theorem word_of_isClean {s : String} (clean : Name.isClean s = true) : Word s := by
  refine ⟨fun empty => ?_, sanitize_of_isClean clean ▸ plain_sanitize s⟩
  rw [String.toList_eq_nil_iff] at empty
  subst empty
  cases clean

/-- A name is clean if it has a character, no blank, and no more characters than a name may have. -/
theorem isClean_iff {s : String} : Name.isClean s = true ↔
    s ≠ "" ∧ (∀ c ∈ s.toList, isBlank c = false) ∧ s.toList.length ≤ Name.maxLength := by
  constructor
  · intro clean
    have word := word_of_isClean clean
    refine ⟨fun empty => word.1 (String.toList_eq_nil_iff.mpr empty), word.2, ?_⟩
    have short := length_sanitize s
    rwa [sanitize_of_isClean clean] at short
  · rintro ⟨nonempty, plain, short⟩
    rw [Name.isClean, sanitize_of_plain plain short]
    simpa using nonempty

/-- What is left of a text with something to read in it is a name. -/
theorem isClean_of_spelled {s : String} (spelled : isBlankText s = false) :
    Name.isClean (Name.sanitize s) = true := by
  refine isClean_sanitize ?_
  rw [String.isEmpty_eq_false_iff]
  intro empty
  rw [Name.sanitize, String.ofList_eq_empty_iff, Name.sanitizeList] at empty
  rcases List.take_eq_nil_iff.mp empty with none | nothing
  · cases none
  · exact trim_ne_nil spelled (List.map_eq_nil_iff.mp nothing)

/-- Only a text with nothing to read in it leaves no name. -/
theorem isEmpty_sanitize (s : String) : (Name.sanitize s).isEmpty = isBlankText s := by
  cases blank : isBlankText s with
  | false => simpa using (Bool.and_eq_true_iff.mp (isClean_of_spelled blank)).1
  | true =>
    have start : trimStart s.toList = [] :=
      List.dropWhile_eq_nil_iff.mpr (List.all_eq_true.mp blank)
    rw [Name.sanitize, Name.sanitizeList, trim, start]
    rfl

theorem spelled_of_word {s : String} (word : Word s) : isBlankText s = false := by
  obtain ⟨c, member⟩ := List.exists_mem_of_ne_nil _ word.1
  exact isAllBlank_eq_false.mpr ⟨c, member, word.2 c member⟩

end PeerMesh.Proofs.Names
