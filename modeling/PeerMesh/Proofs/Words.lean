import PeerMesh.Text.Blank

/-! Where lines of text are cut. A line falls apart at its first mark and nowhere else, and words are
exactly the maximal stretches without a blank character, so what is joined by marks or blanks can be
taken apart again. -/

namespace PeerMesh.Proofs.Words
open Text

/-- A text that stands as one word of a line. -/
def Word (s : String) : Prop := s.toList ≠ [] ∧ ∀ c ∈ s.toList, isBlank c = false

instance (s : String) : Decidable (Word s) := inferInstanceAs (Decidable (_ ∧ _))

theorem isAllBlank_eq_false {cs : List Char} :
    isAllBlank cs = false ↔ ∃ c ∈ cs, isBlank c = false := by
  simp [isAllBlank]

private theorem keeps_unmarked {mark : Char} {cs : List Char} (absent : mark ∉ cs) :
    ∀ c ∈ cs, decide (c ≠ mark) = true :=
  fun _ member => decide_eq_true fun same => absent (same ▸ member)

theorem splitAtFirst_append {mark : Char} {front : List Char} (absent : mark ∉ front)
    (back : List Char) : splitAtFirst mark (front ++ mark :: back) = (front, some back) := by
  have keep := keeps_unmarked absent
  have stops : decide (mark ≠ mark) = false := by simp
  rw [splitAtFirst, List.takeWhile_append_of_pos keep, List.dropWhile_append_of_pos keep,
    List.takeWhile_cons, List.dropWhile_cons, stops]
  simp

theorem splitAtFirst_of_notMem {mark : Char} {cs : List Char} (absent : mark ∉ cs) :
    splitAtFirst mark cs = (cs, none) := by
  have front : (cs ++ []).takeWhile (· ≠ mark) = cs ++ [] :=
    List.takeWhile_append_of_pos (keeps_unmarked absent)
  have back : (cs ++ []).dropWhile (· ≠ mark) = [] :=
    List.dropWhile_append_of_pos (keeps_unmarked absent)
  rw [List.append_nil] at front back
  rw [splitAtFirst, front, back]
  rfl

theorem notMem_splitAtFirst (mark : Char) (cs : List Char) : mark ∉ (splitAtFirst mark cs).1 := by
  intro member
  have kept := List.all_eq_true.mp List.all_takeWhile mark member
  simp at kept

theorem runs_append {separator : Char → Bool} {word : List Char}
    (plain : ∀ c ∈ word, separator c = false) (rest current : List Char) :
    runs separator (word ++ rest) current = runs separator rest (word.reverse ++ current) := by
  induction word generalizing current with
  | nil => rfl
  | cons c word ih =>
    have inside : separator c = false := plain c (by simp)
    rw [List.cons_append, runs, if_neg (by simp [inside]), ih fun d member => plain d (by simp [member])]
    simp

/-- A word before a separator is cut off whole. -/
theorem runs_word {separator : Char → Bool} {word : List Char} (nonempty : word ≠ [])
    (plain : ∀ c ∈ word, separator c = false) {mark : Char} (ends : separator mark = true)
    (rest : List Char) :
    runs separator (word ++ mark :: rest) [] = word :: runs separator rest [] := by
  rw [runs_append plain, runs, if_pos ends, if_neg (by simpa using nonempty)]
  simp

theorem runs_last {separator : Char → Bool} {word : List Char} (nonempty : word ≠ [])
    (plain : ∀ c ∈ word, separator c = false) : runs separator word [] = [word] := by
  have all := runs_append plain [] []
  rw [List.append_nil, List.append_nil] at all
  rw [all]
  cases reversed : word.reverse with
  | nil => exact absurd (List.reverse_eq_nil_iff.mp reversed) nonempty
  | cons c rest => rw [runs, ← reversed, List.reverse_reverse]; simp

/-- What `runs` finds has a character in it and no separator. -/
theorem mem_runs {separator : Char → Bool} {cs current word : List Char}
    (plain : ∀ c ∈ current, separator c = false) (member : word ∈ runs separator cs current) :
    word ≠ [] ∧ ∀ c ∈ word, separator c = false := by
  induction cs generalizing current with
  | nil =>
    cases current with
    | nil => simp [runs] at member
    | cons c rest =>
      simp only [runs, List.mem_singleton] at member
      subst member
      exact ⟨by simp, fun d inside => plain d (List.mem_reverse.mp inside)⟩
  | cons c cs ih =>
    simp only [runs] at member
    split at member
    · split at member
      · exact ih (by simp) member
      next full =>
        rcases List.mem_cons.mp member with rfl | later
        · refine ⟨fun empty => full (by simpa using empty), fun d inside => ?_⟩
          exact plain d (List.mem_reverse.mp inside)
        · exact ih (by simp) later
    next inside =>
      refine ih (fun d found => ?_) member
      rcases List.mem_cons.mp found with rfl | earlier
      · simpa using inside
      · exact plain d earlier

theorem word_of_mem_words {s word : String} (member : word ∈ words s) : Word word := by
  obtain ⟨run, found, rfl⟩ := List.mem_map.mp member
  have facts := mem_runs (by simp) found
  simpa only [Word, String.toList_ofList] using facts

/-- A word before a space is the first of its line. -/
theorem words_append {first : String} (word : Word first) (rest : String) :
    words (first ++ " " ++ rest) = first :: words rest := by
  have blank : isBlank ' ' = true := rfl
  have spelled : (first ++ " " ++ rest).toList = first.toList ++ ' ' :: rest.toList := by simp
  rw [words, spelled, runs_word word.1 word.2 blank, List.map_cons, String.ofList_toList]
  rfl

theorem words_of_word {s : String} (word : Word s) : words s = [s] := by
  rw [words, runs_last word.1 word.2, List.map_singleton, String.ofList_toList]

/-- Three words with blanks between them are read as those three. -/
theorem words_three {first second third : String} (one : Word first) (two : Word second)
    (three : Word third) : words (first ++ " " ++ second ++ " " ++ third) = [first, second, third] := by
  have grouped : first ++ " " ++ second ++ " " ++ third = first ++ " " ++ (second ++ " " ++ third) := by
    simp only [String.append_assoc]
  rw [grouped, words_append one, words_append two, words_of_word three]

end PeerMesh.Proofs.Words
