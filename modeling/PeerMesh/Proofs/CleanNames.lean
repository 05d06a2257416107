import PeerMesh.Proofs.Spellings

/-! Clean names in lines of text. Sanitizing takes every text to a clean name, unless there is nothing
to read in it, and leaves clean names alone. A clean name is one field of a line, whether the line is
cut at every space or falls apart into its words, so that a command reads its names as they were. -/

namespace PeerMesh

/-- The names that stand as fields in the line of a command, behind its keyword. -/
def Command.names : Command → List String
  | .topic .mute output | .topic .unmute output | .topic .outputMuted output |
    .topic .outputUnmuted output => [output]
  | .set _ name _ => [name]
  | .map input agent output | .unmap input agent output => [input, agent, output]
  | _ => []

/-- The text that stands behind the names of a command. -/
def Command.value? : Command → Option String
  | .set _ _ value => some value
  | _ => none

/-- The fields of a line, one at each side of every space. -/
def Text.fields (line : String) : List String := (line.toList.splitOn ' ').map String.ofList

namespace Proofs.CleanNames
open CommandCodec Names Text Words

variable {cut : String → List String} {command : Command}

/-- A way of cutting lines that cuts off every word before a space. -/
structure CutsWords (cut : String → List String) : Prop where
  first {word : String} (isWord : Word word) (rest : String) :
    cut (word ++ " " ++ rest) = word :: cut rest
  last {word : String} (isWord : Word word) : cut word = [word]

theorem cutsWords_words : CutsWords words := ⟨words_append, words_of_word⟩

private theorem space_notMem {s : String} (word : Word s) : ' ' ∉ s.toList := fun member => by
  have plain := word.2 ' ' member
  cases plain

theorem cutsWords_fields : CutsWords fields where
  first {word} isWord rest := by
    have spelled : (word ++ " " ++ rest).toList = word.toList ++ ' ' :: rest.toList := by simp
    rw [fields, spelled, List.splitOn_append_cons_self_of_not_mem (space_notMem isWord), List.map_cons,
      String.ofList_toList]
    rfl
  last isWord := by
    rw [fields, List.splitOn_eq_singleton (space_notMem isWord), List.map_singleton,
      String.ofList_toList]

section Lines
variable {first second third fourth : String}

theorem CutsWords.two (cuts : CutsWords cut) (one : Word first) (two : Word second) :
    cut (first ++ " " ++ second) = [first, second] := by
  rw [cuts.first one, cuts.last two]

theorem CutsWords.four (cuts : CutsWords cut) (one : Word first) (two : Word second)
    (three : Word third) (four : Word fourth) :
    cut (first ++ " " ++ second ++ " " ++ third ++ " " ++ fourth) = [first, second, third, fourth] := by
  have grouped : first ++ " " ++ second ++ " " ++ third ++ " " ++ fourth =
      first ++ " " ++ (second ++ " " ++ (third ++ " " ++ fourth)) := by simp only [String.append_assoc]
  rw [grouped, cuts.first one, cuts.first two, cuts.two three four]

end Lines

/-- However its line is cut, a command has its names behind its keyword, each as one piece. -/
theorem cut_line (cuts : CutsWords cut) (named : command.names ≠ [])
    (words : ∀ name ∈ command.names, Word name) :
    cut command.line = command.keyword :: command.names ++ command.value?.toList.flatMap cut := by
  have keyword : Word command.keyword := word_keyword command
  cases command with
  | topic kind output =>
    cases kind with
    | mute | unmute | outputMuted | outputUnmuted =>
      have cutUp := cuts.two keyword (words output List.mem_cons_self)
      exact cutUp
    | _ => exact absurd rfl named
  | set kind name value =>
    have grouped : (Command.set kind name value).line =
        (Command.set kind name value).keyword ++ " " ++ (name ++ " " ++ value) := by
      simp only [Command.line, Command.keyword, String.append_assoc]
    have one : Word name := words name List.mem_cons_self
    rw [grouped, cuts.first keyword, cuts.first one]
    simp only [Command.names, Command.value?, Option.toList_some, List.flatMap_singleton,
      List.cons_append, List.nil_append]
  | map input agent output | unmap input agent output =>
    simp only [Command.names, List.forall_mem_cons] at words
    have cutUp := cuts.four keyword words.1 words.2.1 words.2.2.1
    exact cutUp
  | _ => exact absurd rfl named

theorem transmissible_of_names (named : command.names ≠ [])
    (words : ∀ name ∈ command.names, Word name) : Transmissible command := by
  cases command with
  | topic kind output =>
    cases kind with
    | mute | unmute | outputMuted | outputUnmuted =>
      exact isAllBlank_eq_false.mp (spelled_of_word (words output List.mem_cons_self))
    | _ => exact absurd rfl named
  | set kind name value =>
    have one : Word name := words name List.mem_cons_self
    exact ⟨one.1, space_notMem one⟩
  | map input agent output | unmap input agent output =>
    simp only [Command.names, List.forall_mem_cons] at words
    exact ⟨words.1, words.2.1, words.2.2.1⟩
  | _ => exact absurd rfl named

/-- Sanitizing takes a text to one without blanks and not too long, which is empty only for a text with
nothing to read in it, and a second time changes nothing. The clean names are those that are not empty,
have no blank and are not too long, and sanitizing takes every text with something to read in it to one of
them; agents are named in elements in the same way. However the line of a command is cut, its clean names
are single fields of it, and so the command is read from its frames as it was. -/
theorem sanitize_projects_onto_clean_names (s : String) :
    (∀ c ∈ (Name.sanitize s).toList, isBlank c = false) ∧
    (Name.sanitize s).length ≤ Name.maxLength ∧
    (Name.sanitize s = "" ↔ ∀ c ∈ s.toList, isBlank c = true) ∧
    Name.sanitize (Name.sanitize s) = Name.sanitize s ∧
    (Name.isClean s = true ↔
      s ≠ "" ∧ (∀ c ∈ s.toList, isBlank c = false) ∧ s.length ≤ Name.maxLength) ∧
    (Name.isClean (Name.sanitize s) = true ↔ ∃ c ∈ s.toList, isBlank c = false) ∧
    Element.sanitizeAgent s = Name.sanitize s ∧
    ∀ command : Command, command.names ≠ [] → (∀ name ∈ command.names, Name.isClean name = true) →
      fields command.line =
        command.keyword :: command.names ++ command.value?.toList.flatMap fields ∧
      words command.line = command.keyword :: command.names ++ command.value?.toList.flatMap words ∧
      Command.ofFrames command.toFrames = .ok command := by
  refine ⟨plain_sanitize s, length_sanitize s, ?_, sanitize_sanitize s, isClean_iff, ?_,
    Spellings.sanitizeAgent_eq s, fun command named clean => ?_⟩
  · rw [← String.isEmpty_iff, isEmpty_sanitize]
    exact List.all_eq_true
  · rw [← isAllBlank_eq_false]
    refine ⟨fun clean => ?_, isClean_of_spelled⟩
    have nonempty : (Name.sanitize s).isEmpty = false := by
      simpa using (isClean_iff.mp clean).1
    rwa [isEmpty_sanitize] at nonempty
  · have words : ∀ name ∈ command.names, Word name := fun name member =>
      word_of_isClean (clean name member)
    exact ⟨cut_line cutsWords_fields named words, cut_line cutsWords_words named words,
      ofFrames_toFrames (transmissible_of_names named words)⟩

/-- A value may have any spaces in it, and the name before it is found all the same. -/
theorem boiler_is_set_by_name :
    Name.sanitize " flow rate\n" = "flow_rate" ∧ Name.isClean "flow_rate" = true ∧
    fields (Command.set .output "flow_rate" " 3  4").line =
      ["SET_OUTPUT", "flow_rate", "", "3", "", "4"] ∧
    words (Command.set .output "flow_rate" " 3  4").line = ["SET_OUTPUT", "flow_rate", "3", "4"] ∧
    Command.ofFrames (Command.set .output "flow_rate" " 3  4").toFrames =
      .ok (.set .output "flow_rate" " 3  4") := by
  have clean : Name.isClean "flow_rate" = true := by decide +kernel
  obtain ⟨-, -, -, -, -, -, -, carried⟩ := sanitize_projects_onto_clean_names " flow rate\n"
  obtain ⟨spaces, blanks, read⟩ := carried (.set .output "flow_rate" " 3  4") (List.cons_ne_nil _ _)
    fun name member => by rw [List.mem_singleton.mp member]; exact clean
  have apart : fields " 3  4" = ["", "3", "", "4"] ∧ words " 3  4" = ["3", "4"] := by decide +kernel
  refine ⟨by decide +kernel, clean, spaces.trans ?_, blanks.trans ?_, read⟩
  · simp [Command.names, Command.value?, Command.keyword, Command.setKeyword, apart.1]
  · simp [Command.names, Command.value?, Command.keyword, Command.setKeyword, apart.2]

end Proofs.CleanNames
end PeerMesh
