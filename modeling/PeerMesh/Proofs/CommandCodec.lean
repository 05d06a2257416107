import Mathlib.Data.List.Basic
import PeerMesh.Proofs.DataMessages
import PeerMesh.Proofs.Outcomes
import PeerMesh.Proofs.Words

/-! Which commands survive their frames. The first frame is a line in one of two forms, the keyword
before a number sign and a document, or the keyword before a space and its argument. No keyword has
a number sign or a space, so the form of a line and its keyword can be told before anything else is
read. What then gets lost are arguments that are blank, names with a space, and elements whose names
are no words. -/

namespace PeerMesh.Proofs.CommandCodec
open Text Words Outcomes

/-- A command that its frames carry unchanged. -/
def Transmissible : Command → Prop
  | .topic _ text => ∃ c ∈ text.toList, isBlank c = false
  | .set _ name _ => name.toList ≠ [] ∧ ' ' ∉ name.toList
  | .map input agent output | .unmap input agent output => Word input ∧ Word agent ∧ Word output
  | .order _ | .flag .. | .enclosure .. | .listing .. | .state _ | .bus _ => True

private def keywordChar (c : Char) : Bool := !isBlank c && c != '#'

private theorem keyword_shape (command : Command) :
    (!command.keyword.toList.isEmpty && command.keyword.toList.all keywordChar) = true := by
  cases command with
  | order kind | topic kind | flag kind | enclosure kind | listing kind | set kind =>
    simp only [Command.keyword]
    cases kind <;> rfl
  | map | unmap | state | bus => simp only [Command.keyword]; rfl

private theorem keyword_plain (command : Command) :
    ∀ c ∈ command.keyword.toList, keywordChar c = true :=
  List.all_eq_true.mp (Bool.and_eq_true_iff.mp (keyword_shape command)).2

private theorem keyword_ne_nil (command : Command) : command.keyword.toList ≠ [] := by
  simpa using (Bool.and_eq_true_iff.mp (keyword_shape command)).1

theorem word_keyword (command : Command) : Word command.keyword := by
  refine ⟨keyword_ne_nil command, fun c member => ?_⟩
  have plain := keyword_plain command c member
  rw [keywordChar, Bool.and_eq_true_iff, Bool.not_eq_true'] at plain
  exact plain.1

private theorem notMem_keyword (command : Command) (mark : Char)
    (foreign : keywordChar mark = false) : mark ∉ command.keyword.toList := by
  intro member
  have plain := keyword_plain command mark member
  rw [foreign] at plain
  cases plain

theorem readEnclosure?_enclosed (enclosure : Enclosure) (document : List Char) :
    Command.readEnclosure? (enclosure.keyword.toList ++ '#' :: document) =
      some (.enclosure enclosure (String.ofList document)) := by
  cases enclosure <;> rfl

theorem enclosed_of_readEnclosure? {text : List Char} {command : Command}
    (read : Command.readEnclosure? text = some command) :
    ∃ (enclosure : Enclosure) (document : List Char),
      text = enclosure.keyword.toList ++ '#' :: document ∧
        command = .enclosure enclosure (String.ofList document) := by
  obtain ⟨enclosure, -, found⟩ := List.exists_of_findSome?_eq_some read
  obtain ⟨document, cut, rfl⟩ := Option.map_eq_some_iff.mp found
  refine ⟨enclosure, document, ?_, rfl⟩
  have joined := List.isPrefixOf?_eq_some_iff_append_eq.mp cut
  rw [← joined, String.toList_append, List.append_assoc]
  rfl

private theorem dropWhile_keyword (command : Command) (rest : List Char)
    (separated : ∀ c ∈ rest.head?, keywordChar c = false) :
    (command.keyword.toList ++ rest).dropWhile keywordChar = rest := by
  rw [List.dropWhile_append_of_pos (keyword_plain command)]
  cases rest with
  | nil => rfl
  | cons c rest => rw [List.dropWhile_cons, if_neg (by simp [separated c (by simp)])]

/-- A keyword before a space or at the end of its line is that of no enclosure. -/
private theorem readEnclosure?_keyword (command : Command) (rest : List Char)
    (separated : ∀ c ∈ rest.head?, c = ' ') :
    Command.readEnclosure? (command.keyword.toList ++ rest) = none := by
  cases read : Command.readEnclosure? (command.keyword.toList ++ rest) with
  | none => rfl
  | some found =>
    obtain ⟨enclosure, document, same, -⟩ := enclosed_of_readEnclosure? read
    have left := dropWhile_keyword command rest fun c first => by rw [separated c first]; rfl
    have right := dropWhile_keyword (.enclosure enclosure "") ('#' :: document) (by simp; rfl)
    have marked : rest = '#' :: document := by rw [← left, same]; exact right
    cases separated '#' (by simp [marked])

private theorem keyword_not_blank (command : Command) (rest : List Char) :
    isAllBlank (command.keyword.toList ++ rest) = false := by
  have word := word_keyword command
  obtain ⟨c, member⟩ := List.exists_mem_of_ne_nil _ word.1
  exact isAllBlank_eq_false.mpr ⟨c, List.mem_append_left _ member, word.2 c member⟩

/-- A line that is a keyword and, after a space, an argument falls apart into the two. -/
theorem ofLine_argument (command : Command) (argument : List Char) (frames : List Bytes)
    {line : String} (spelled : line.toList = command.keyword.toList ++ ' ' :: argument) :
    Command.ofLine line frames = Command.ofParts command.keyword argument frames := by
  have cut := splitAtFirst_append (notMem_keyword command ' ' rfl) argument
  rw [Command.ofLine, spelled]
  simp only [keyword_not_blank, readEnclosure?_keyword command (' ' :: argument) (by simp), cut]
  simp

theorem ofLine_keyword (command : Command) (frames : List Bytes) :
    Command.ofLine command.keyword frames = Command.ofParts command.keyword [] frames := by
  have cut := splitAtFirst_of_notMem (notMem_keyword command ' ' rfl)
  have blank := keyword_not_blank command []
  have form := readEnclosure?_keyword command [] (by simp)
  rw [List.append_nil] at blank form
  rw [Command.ofLine]
  simp only [blank, form, cut]
  simp

theorem ofLine_enclosed (enclosure : Enclosure) (document : String) (frames : List Bytes) :
    Command.ofLine (enclosure.keyword ++ "#" ++ document) frames =
      .ok (.enclosure enclosure document) := by
  have spelled : (enclosure.keyword ++ "#" ++ document).toList =
      enclosure.keyword.toList ++ '#' :: document.toList := by simp
  have blank := keyword_not_blank (.enclosure enclosure document) ('#' :: document.toList)
  rw [Command.keyword] at blank
  rw [Command.ofLine, spelled]
  simp only [blank, readEnclosure?_enclosed]
  simp

theorem ofParts_order (order : Order) (rest : List Char) (frames : List Bytes) :
    Command.ofParts order.keyword rest frames = .ok (.order order) := by
  cases order <;> rfl

theorem ofParts_topic (topic : Topic) (rest : List Char) (frames : List Bytes) :
    Command.ofParts topic.keyword rest frames =
      if isAllBlank rest then .error (.missingArgument topic.keyword .argument)
      else .ok (.topic topic (String.ofList rest)) := by
  cases topic <;> rfl

theorem ofParts_flag (flag : Flag) (on : Bool) (frames : List Bytes) :
    Command.ofParts flag.keyword (Command.flagText on).toList frames = .ok (.flag flag on) := by
  cases flag <;> cases on <;> rfl

theorem ofParts_listing (listing : Listing) (rest : List Char) (frames : List Bytes) :
    Command.ofParts listing.keyword rest frames =
      (Command.required listing.keyword .values (Command.valuesOfFrames? frames)).map
        fun values => .listing listing values := by
  cases listing <;> rfl

theorem ofParts_set (kind : SlotKind) (rest : List Char) (frames : List Bytes) :
    Command.ofParts (Command.setKeyword kind) rest frames =
      (Command.required (Command.setKeyword kind) .nameAndValue
        (Command.readNameAndValue? rest)).map fun (name, value) => .set kind name value := by
  cases kind <;> rfl

theorem ofParts_map (rest : List Char) (frames : List Bytes) :
    Command.ofParts "MAP" rest frames = Command.readTriple "MAP" .map rest := rfl

theorem ofParts_unmap (rest : List Char) (frames : List Bytes) :
    Command.ofParts "UNMAP" rest frames = Command.readTriple "UNMAP" .unmap rest := rfl

theorem ofParts_state (rest : List Char) (frames : List Bytes) :
    Command.ofParts "STATE" rest frames = .ok (.state (String.ofList rest)) := rfl

theorem ofParts_bus (rest : List Char) (frames : List Bytes) :
    Command.ofParts "BUS_MESSAGE" rest frames = .ok (.bus frames) := rfl

theorem readNameAndValue?_append {name : List Char} (nonempty : name ≠ []) (plain : ' ' ∉ name)
    (value : List Char) : Command.readNameAndValue? (name ++ ' ' :: value) =
      some (String.ofList name, String.ofList value) := by
  rw [Command.readNameAndValue?, splitAtFirst_append plain]
  cases name with
  | nil => exact absurd rfl nonempty
  | cons c rest => rfl

theorem readTriple_words {make : String → String → String → Command} (keyword : String)
    {input agent output : String} (one : Word input) (two : Word agent) (three : Word output) :
    Command.readTriple keyword make (input ++ " " ++ agent ++ " " ++ output).toList =
      .ok (make input agent output) := by
  simp only [Command.readTriple, String.ofList_toList, words_three one two three]

private theorem ofFrames_eq_ofLine (command : Command) :
    Command.ofFrames command.toFrames = Command.ofLine command.line command.furtherFrames := by
  simp only [Command.toFrames, Command.ofFrames, Utf8.decode?_toByteArray]

theorem ofFrames_toFrames {command : Command} (transmissible : Transmissible command) :
    Command.ofFrames command.toFrames = .ok command := by
  rw [ofFrames_eq_ofLine]
  cases command with
  | order order => exact (ofLine_keyword (.order order) _).trans (ofParts_order order _ _)
  | topic topic text =>
    have argued : isAllBlank text.toList = false := isAllBlank_eq_false.mpr transmissible
    rw [ofLine_argument (.topic topic text) text.toList _ (by simp [Command.line, Command.keyword]),
      Command.keyword, ofParts_topic, argued]
    simp
  | flag flag on =>
    rw [ofLine_argument (.flag flag on) (Command.flagText on).toList _
      (by simp [Command.line, Command.keyword])]
    exact ofParts_flag flag on _
  | enclosure enclosure document => exact ofLine_enclosed enclosure document _
  | listing listing values =>
    refine (ofLine_keyword (.listing listing values) _).trans ?_
    rw [Command.keyword, ofParts_listing, Command.furtherFrames,
      DataMessages.valuesOfFrames?_toFrames]
    rfl
  | set kind name value =>
    rw [ofLine_argument (.set kind name value) (name.toList ++ ' ' :: value.toList) _
      (by simp [Command.line, Command.keyword]), Command.keyword, ofParts_set,
      readNameAndValue?_append transmissible.1 transmissible.2]
    simp [Command.required, Except.map]
  | map input agent output =>
    rw [ofLine_argument (.map input agent output) (input ++ " " ++ agent ++ " " ++ output).toList _
      (by simp [Command.line, Command.keyword]), Command.keyword, ofParts_map]
    exact readTriple_words "MAP" transmissible.1 transmissible.2.1 transmissible.2.2
  | unmap input agent output =>
    rw [ofLine_argument (.unmap input agent output) (input ++ " " ++ agent ++ " " ++ output).toList
      _ (by simp [Command.line, Command.keyword]), Command.keyword, ofParts_unmap]
    exact readTriple_words "UNMAP" transmissible.1 transmissible.2.1 transmissible.2.2
  | state text =>
    rw [ofLine_argument (.state text) text.toList _ (by simp [Command.line, Command.keyword]),
      Command.keyword, ofParts_state, String.ofList_toList]
  | bus frames => exact (ofLine_keyword (.bus frames) _).trans (ofParts_bus _ _)

theorem ofFrames_topic_blank (topic : Topic) {text : String} (blank : isAllBlank text.toList = true) :
    Command.ofFrames (Command.topic topic text).toFrames =
      .error (.missingArgument topic.keyword .argument) := by
  rw [ofFrames_eq_ofLine, ofLine_argument (.topic topic text) text.toList _
    (by simp [Command.line, Command.keyword]), Command.keyword, ofParts_topic, if_pos blank]

private theorem ofParts_not_enclosure {keyword : String} {rest : List Char} {frames : List Bytes}
    {enclosure : Enclosure} {document : String} :
    Command.ofParts keyword rest frames ≠ .ok (.enclosure enclosure document) := by
  intro read
  have triple {make : String → String → String → Command} {keyword : String}
      (other : ∀ input agent output, make input agent output ≠ .enclosure enclosure document) :
      Command.readTriple keyword make rest ≠ .ok (.enclosure enclosure document) := by
    intro read
    unfold Command.readTriple at read
    split at read
    · exact other _ _ _ (Except.ok.inj read)
    · cases read
  unfold Command.ofParts at read
  split at read
  · cases read
  split at read
  · split at read <;> cases read
  split at read
  · obtain ⟨_, -, other⟩ := map_eq_ok.mp read
    cases other
  split at read
  · obtain ⟨_, -, other⟩ := map_eq_ok.mp read
    cases other
  split at read
  · obtain ⟨_, -, other⟩ := map_eq_ok.mp read
    cases other
  split at read
  · exact triple (fun _ _ _ other => by cases other) read
  split at read
  · exact triple (fun _ _ _ other => by cases other) read
  split at read
  · cases read
  split at read <;> cases read

theorem ofFrames_enclosure (enclosure : Enclosure) (document : String) :
    Command.ofFrames (Command.enclosure enclosure document).toFrames =
      .ok (.enclosure enclosure document) :=
  ofFrames_toFrames trivial

/-- Only the frames of an enclosure read as one. -/
theorem eq_enclosure_of_ofFrames {command : Command} {enclosure : Enclosure} {document : String}
    (read : Command.ofFrames command.toFrames = .ok (.enclosure enclosure document)) :
    command = .enclosure enclosure document := by
  have argued (argument : List Char)
      (spelled : command.line.toList = command.keyword.toList ++ ' ' :: argument) :
      command = .enclosure enclosure document := by
    rw [ofFrames_eq_ofLine, ofLine_argument command argument _ spelled] at read
    exact absurd read ofParts_not_enclosure
  have bare (spelled : command.line = command.keyword) :
      command = .enclosure enclosure document := by
    rw [ofFrames_eq_ofLine, spelled, ofLine_keyword] at read
    exact absurd read ofParts_not_enclosure
  cases command with
  | enclosure other text =>
    rw [ofFrames_enclosure] at read
    exact Except.ok.inj read
  | order | listing | bus => exact bare rfl
  | topic topic text => exact argued text.toList (by simp [Command.line, Command.keyword])
  | flag flag on =>
    exact argued (Command.flagText on).toList (by simp [Command.line, Command.keyword])
  | state text => exact argued text.toList (by simp [Command.line, Command.keyword])
  | set kind name value =>
    exact argued (name.toList ++ ' ' :: value.toList) (by simp [Command.line, Command.keyword])
  | map input agent output | unmap input agent output =>
    exact argued (input ++ " " ++ agent ++ " " ++ output).toList
      (by simp [Command.line, Command.keyword])

private theorem transmissible_of_readTriple (make : String → String → String → Command)
    {keyword : String} {rest : List Char} {command : Command}
    (words : ∀ input agent output, Word input → Word agent → Word output →
      Transmissible (make input agent output))
    (read : Command.readTriple keyword make rest = .ok command) : Transmissible command := by
  unfold Command.readTriple at read
  split at read
  next input agent output found =>
    cases read
    have member (word : String) (listed : word ∈ [input, agent, output]) : Word word :=
      word_of_mem_words (found ▸ listed)
    exact words _ _ _ (member input (by simp)) (member agent (by simp)) (member output (by simp))
  next => cases read

private theorem name_of_readNameAndValue? {rest : List Char} {name value : String}
    (read : Command.readNameAndValue? rest = some (name, value)) :
    name.toList ≠ [] ∧ ' ' ∉ name.toList := by
  unfold Command.readNameAndValue? at read
  split at read
  next c before after cut =>
    cases read
    have absent := notMem_splitAtFirst ' ' rest
    rw [cut] at absent
    rw [String.toList_ofList]
    exact ⟨List.cons_ne_nil _ _, absent⟩
  next => cases read

private theorem transmissible_of_ofParts {keyword : String} {rest : List Char} {frames : List Bytes}
    {command : Command} (read : Command.ofParts keyword rest frames = .ok command) :
    Transmissible command := by
  unfold Command.ofParts at read
  split at read
  · cases read; trivial
  split at read
  · split at read
    · cases read
    next argued =>
      cases read
      simpa [Transmissible, isAllBlank] using argued
  split at read
  · obtain ⟨on, -, rfl⟩ := map_eq_ok.mp read
    trivial
  split at read
  · obtain ⟨values, -, rfl⟩ := map_eq_ok.mp read
    trivial
  split at read
  · obtain ⟨⟨name, value⟩, found, rfl⟩ := map_eq_ok.mp read
    exact name_of_readNameAndValue? (required_eq_ok.mp found)
  split at read
  · exact transmissible_of_readTriple .map (fun _ _ _ one two three => ⟨one, two, three⟩) read
  split at read
  · exact transmissible_of_readTriple .unmap (fun _ _ _ one two three => ⟨one, two, three⟩) read
  split at read
  · cases read; trivial
  split at read
  · cases read; trivial
  · cases read

theorem transmissible_of_ofFrames {frames : List Bytes} {command : Command}
    (read : Command.ofFrames frames = .ok command) : Transmissible command := by
  unfold Command.ofFrames Command.ofLine at read
  split at read
  · cases read
  split at read
  · cases read
  dsimp only at read
  split at read
  · cases read
  split at read
  next found =>
    cases read
    obtain ⟨enclosure, document, -, rfl⟩ := enclosed_of_readEnclosure? found
    trivial
  next => exact transmissible_of_ofParts read

/-- Frames carry exactly the transmissible commands, and nothing else is ever read from frames, so
what has been read can be passed on unchanged. -/
theorem frames_carry_transmissible :
    (∀ command : Command,
      Command.ofFrames command.toFrames = .ok command ↔ Transmissible command) ∧
    ∀ (frames : List Bytes) (command : Command), Command.ofFrames frames = .ok command →
      Transmissible command ∧ Command.ofFrames command.toFrames = .ok command := by
  refine ⟨fun command => ⟨transmissible_of_ofFrames, ofFrames_toFrames⟩, fun frames command read => ?_⟩
  have transmissible := transmissible_of_ofFrames read
  exact ⟨transmissible, ofFrames_toFrames transmissible⟩

end PeerMesh.Proofs.CommandCodec
