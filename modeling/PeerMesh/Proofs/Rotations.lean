import PeerMesh.Proofs.JournalSlots

/-! What a journal keeps while its files are put aside in turn. As long as nothing fails, the files hold
the newest lines in their order, each once: the open file, the `n` files that are moved on, and the one
that the last of them is moved to. So one file more is kept than the number of those that are moved on. -/

namespace PeerMesh.Log

def joined : List Bytes → Bytes
  | [] => ByteArray.empty
  | line :: lines => line ++ joined lines

/-- The files that lines go to, the newest first, with one more line. A file that has reached the limit
gets no more lines. -/
def addLine (limit : Nat) (line : Bytes) : List (List Bytes) → List (List Bytes)
  | [] => [[line]]
  | live :: older =>
    if limit ≤ (joined live).size then [line] :: live :: older else (live ++ [line]) :: older

/-- The files that lines go to, the newest first. -/
def generations (limit : Nat) (lines : List Bytes) : List (List Bytes) :=
  lines.foldl (fun files line => addLine limit line files) [[]]

namespace Journal

def writeAll (j : Journal) (events : List Event) : Journal := events.foldl write j

/-- Whenever the file is put aside for an event, nothing fails. -/
def Undisturbed : Journal → List Event → Prop
  | _, [] => True
  | j, e :: rest => (j.isFull = true → Proofs.JournalSlots.Turns j) ∧ (j.write e).Undisturbed rest

instance decidableUndisturbed : (j : Journal) → (events : List Event) →
    Decidable (j.Undisturbed events)
  | _, [] => inferInstanceAs (Decidable True)
  | j, e :: rest =>
    have := decidableUndisturbed (j.write e) rest
    inferInstanceAs (Decidable (_ ∧ _))

end Journal
end PeerMesh.Log

namespace PeerMesh.Proofs.Rotations
open Files PeerMesh.Path FilePlaces Log Log.Journal JournalSlots

variable {f : Files} {j : Journal} {place : Path} {kept : List (List Bytes)} {lines : List Bytes}

theorem joined_concat (lines : List Bytes) (line : Bytes) :
    joined (lines ++ [line]) = joined lines ++ line := by
  induction lines with
  | nil => simp [joined]
  | cons first lines ih => rw [List.cons_append, joined, joined, ih, ByteArray.append_assoc]

theorem flatten_addLine (limit : Nat) (line : Bytes) (files : List (List Bytes)) :
    (addLine limit line files).reverse.flatten = files.reverse.flatten ++ [line] := by
  unfold addLine
  split
  · rfl
  · split
    · simp
    · simp

/-- Every line is in one file, in the order of the lines. -/
theorem flatten_generations (limit : Nat) (lines : List Bytes) :
    (generations limit lines).reverse.flatten = lines := by
  induction lines using List.reverseRecOn with
  | nil => rfl
  | append_singleton lines line ih =>
    rw [generations, List.foldl_append]
    exact (flatten_addLine limit line _).trans (by rw [← generations, ih])

/-- The lines of the newest files are the last lines. -/
theorem suffix_of_take (limit : Nat) (lines : List Bytes) (count : Nat) :
    ((generations limit lines).take count).reverse.flatten <:+ lines := by
  refine ⟨((generations limit lines).drop count).reverse.flatten, ?_⟩
  rw [← List.flatten_append, ← List.reverse_append, List.take_append_drop, flatten_generations]

/-- The journal is open, and its files hold lines. -/
structure Holds (j : Journal) (place : Path) (files : List (List Bytes)) : Prop where
  opened : Opened j place
  content : ∀ k, j.files.fileAt? (slot j.path k) =
    ((files.take (j.settings.backups + 2))[k]?).map joined

/-- There is no file at the way up. -/
theorem fileAt?_up (f : Files) (dirs : List String) : f.fileAt? (dirs ++ [".."]) = none := by
  unfold fileAt? at?
  cases led : f.place? (dirs ++ [".."]) with
  | error fault => rfl
  | ok place =>
    dsimp only
    rw [node?_up led]
    rfl

/-- What is put into the open file changes none of the others. -/
theorem fileAt?_put {text : String} (writable : f.writable text = .ok place) (content : Bytes) (k : Nat) :
    (f.put place content).fileAt? (slot (Path.ofText text) k) =
      if k = 0 then some content else f.fileAt? (slot (Path.ofText text) k) := by
  obtain ⟨dirs, base, parts, named, opens, fits, rfl, listed⟩ := parts_of_writable writable
  cases k with
  | zero =>
    obtain ⟨-, -, led, -⟩ := writable_eq_ok.mp (writable_put writable content)
    rw [if_pos rfl, slot, fileAt?_of_place? led, content?_eq, node?_put, if_pos ⟨listed, rfl⟩]
    rfl
  | succ k =>
    rw [if_neg (Nat.succ_ne_zero k), parts]
    by_cases stemmed : stem base = "."
    · rw [slot, backup_of_dot named stemmed, fileAt?_up, fileAt?_up]
    · have free := (writable_eq_ok.mp writable).2.2.2
      have puts := (shelf_put ⟨parts, named, stemmed, listed⟩ opens fits free content).2
      exact congrArg (Option.bind · FileNode.content?) (congrFun puts (k + 1))

/-- The open file holds the lines since it was opened. -/
theorem live_of_holds (holds : Holds j place kept) : ∃ live older, kept = live :: older ∧
    j.files.node? place = some (.file (joined live)) := by
  obtain ⟨content, file⟩ := holds.opened.file
  obtain ⟨-, -, led, -⟩ := writable_eq_ok.mp holds.opened.writable
  have first := holds.content 0
  rw [slot, path, fileAt?_of_place? led, content?_eq, file] at first
  cases kept with
  | nil => cases first
  | cons live older =>
    refine ⟨live, older, rfl, ?_⟩
    rw [file]
    exact congrArg (·.map FileNode.file) first

theorem holds_append {live : List Bytes} (holds : Holds j place (live :: kept)) (line : Bytes) :
    Holds { j with files := j.files.append place line } place ((live ++ [line]) :: kept) := by
  obtain ⟨_, _, same, file⟩ := live_of_holds holds
  cases same
  have appended : j.files.append place line = j.files.put place (joined (live ++ [line])) := by
    rw [append, content?, file, joined_concat]
    rfl
  rw [appended]
  refine ⟨opened_put holds.opened _, fun k => (fileAt?_put holds.opened.writable _ k).trans ?_⟩
  cases k with
  | zero => rfl
  | succ k => exact holds.content (k + 1)

/-- What the files put aside hold after they were shifted. -/
private theorem content?_shifted {slots : Nat → Option FileNode} {n : Nat}
    (before : ∀ k, (slots k).bind FileNode.content? = ((kept.take (n + 2))[k]?).map joined) (m : Nat) :
    (shifted n slots (m + 2)).bind FileNode.content? = ((kept.take (n + 1))[m + 1]?).map joined := by
  rw [shifted, if_neg (Nat.succ_ne_zero m), List.getElem?_take]
  rcases Nat.lt_or_ge n (m + 1) with beyond | within
  · rw [if_pos beyond, before, List.getElem?_take, if_neg (by omega), if_neg (by omega)]
  · have moved := before (m + 1)
    rw [List.getElem?_take, if_pos (by omega)] at moved
    rw [if_neg (by omega), if_pos (by omega : m + 1 < n + 1), ← moved]
    cases here : slots (m + 1) with
    | some node => rfl
    | none =>
      rw [here] at moved
      have oldest : kept.length ≤ m + 1 := by simpa using moved.symm
      rw [Option.none_or]
      split
      · rw [before, List.getElem?_take, List.getElem?_eq_none (by omega), ite_self]
        rfl
      · rfl

/-- All files move on when the open one is put aside. The last of them is lost. -/
theorem holds_putAside (holds : Holds j place kept) (turns : Turns j) :
    Holds j.putAside place ([] :: kept) := by
  obtain ⟨opened, settings, shifts⟩ := putAside_of_turns turns
  have led : place = onward [] j.path := place_of_writable holds.opened.writable
  have path : j.putAside.path = j.path := by rw [Journal.path, settings, Journal.path]
  refine ⟨led ▸ opened, fun k => ?_⟩
  have before (k : Nat) : (shelf j.files j.path k).bind FileNode.content? =
      ((kept.take (j.settings.backups + 2))[k]?).map joined := holds.content k
  have after := congrArg (Option.bind · FileNode.content?) (congrFun shifts k)
  rw [path, settings]
  refine Eq.trans after ?_
  match k with
  | 0 => rfl
  | 1 =>
    refine (before 0).trans ?_
    simp
  | m + 2 =>
    rw [if_neg (Nat.succ_ne_zero _), if_neg (by omega), List.take_succ_cons, List.getElem?_cons_succ]
    exact content?_shifted before m

theorem holds_write (holds : Holds j place kept) (rotates : j.settings.rotate = true)
    (turns : j.isFull = true → Turns j) (e : Event) :
    Holds (j.write e) place (addLine j.settings.maxBytes e.journalLine kept) := by
  obtain ⟨live, older, rfl, file⟩ := live_of_holds holds
  have full : j.isFull = decide (j.settings.maxBytes ≤ (joined live).size) := by
    rw [isFull_eq holds.opened.writable file, rotates, Bool.true_and]
  rw [addLine]
  by_cases limit : j.settings.maxBytes ≤ (joined live).size
  · rw [decide_eq_true limit] at full
    have turned : Holds j.rotateIfFull place ([] :: live :: older) := by
      rw [rotateIfFull, if_pos full]
      exact holds_putAside holds (turns full)
    rw [if_pos limit, write_of_open e turned.opened.target]
    exact holds_append turned e.journalLine
  · rw [decide_eq_false limit] at full
    have same : j.rotateIfFull = j := by rw [rotateIfFull, full]; rfl
    rw [if_neg limit, write_of_open e (same ▸ holds.opened.target), same]
    exact holds_append holds e.journalLine

theorem holds_writeAll (holds : Holds j place kept) (rotates : j.settings.rotate = true)
    {events : List Event} (undisturbed : j.Undisturbed events) :
    (j.writeAll events).settings = j.settings ∧ Holds (j.writeAll events) place
      ((events.map Event.journalLine).foldl (fun files line => addLine j.settings.maxBytes line files)
        kept) := by
  induction events generalizing j kept with
  | nil => exact ⟨rfl, holds⟩
  | cons e events ih =>
    obtain ⟨turns, others⟩ := undisturbed
    have settled := settings_write j e
    obtain ⟨same, after⟩ := ih (holds_write holds rotates turns e) (settled.symm ▸ rotates) others
    rw [settled] at same after
    exact ⟨same, after⟩

/-- A journal that finds no files of its own begins with an empty one. -/
theorem holds_start {settings : JournalSettings}
    (none : ∀ k, f.content? (onward [] (slot (Path.ofText settings.path) k)) = none)
    (opened : (start settings f).target.isSome = true) :
    ∃ place, Holds (start settings f) place [[]] := by
  obtain ⟨place, target⟩ := Option.isSome_iff_exists.mp opened
  obtain ⟨writable, same, opened⟩ := opened_openFile target
  have made (k : Nat) : (f.makeDirectories (Path.ofText settings.path).parent).1.content?
      (onward [] (slot (Path.ofText settings.path) k)) = Option.none :=
    (content?_makeFrom ..).trans (none k)
  have missing : (f.makeDirectories (Path.ofText settings.path).parent).1.content? place =
      Option.none := by
    rw [place_of_writable writable]
    exact made 0
  refine ⟨place, opened, fun k => ?_⟩
  rw [start, same]
  dsimp only
  rw [append_of_missing missing]
  refine (fileAt?_put writable ByteArray.empty k).trans ?_
  cases k with
  | zero => rfl
  | succ k =>
    refine Option.eq_none_iff_forall_ne_some.mpr fun content found => ?_
    have there := content?_of_fileAt? found
    rw [made] at there
    cases there

/-- A journal that starts without files of its own and puts its file aside without failures holds its
lines in the open file and in at most one file more than those that are moved on, numbered from the
newest to the oldest without gaps. Together they are the last of the lines, in their order and each once:
all but those of older files. -/
theorem newest_lines_are_kept {settings : JournalSettings} {files : Files} {events : List Event}
    (rotates : settings.rotate = true)
    (none : ∀ k, files.content? (onward [] (slot (Path.ofText settings.path) k)) = none)
    (opened : (start settings files).target.isSome = true)
    (undisturbed : (start settings files).Undisturbed events) :
    let after := (start settings files).writeAll events
    let lines := events.map Event.journalLine
    let kept := (generations settings.maxBytes lines).take (settings.backups + 2)
    (generations settings.maxBytes lines).reverse.flatten = lines ∧ kept.reverse.flatten <:+ lines ∧
      (∃ live older, kept = live :: older ∧ older.length ≤ settings.backups + 1) ∧
      ∀ k, after.files.fileAt? (slot (Path.ofText settings.path) k) = kept[k]?.map joined := by
  intro after lines kept
  obtain ⟨place, holds⟩ := holds_start none opened
  have same : (start settings files).settings = settings := settings_openFile _
  obtain ⟨settled, held⟩ := holds_writeAll holds (same.symm ▸ rotates) undisturbed
  rw [same] at settled
  have contents (k : Nat) :
      after.files.fileAt? (slot (Path.ofText settings.path) k) = kept[k]?.map joined := by
    have told := held.content k
    rw [Journal.path, settled, same] at told
    exact told
  refine ⟨flatten_generations _ _, suffix_of_take _ _ _, ?_, contents⟩
  obtain ⟨live, older, parts, -⟩ := live_of_holds held
  rw [same] at parts
  refine ⟨live, older.take (settings.backups + 1), ?_, List.length_take_le ..⟩
  change List.take _ (List.foldl _ _ _) = _
  rw [parts]
  rfl

private def meadow : JournalSettings := ⟨"log.jsonl", true, 1, 1⟩

private def note (text : String) : Event :=
  ⟨⟨0, 0, "s", none⟩, ⟨.info, "meadow", none, true, .system text none⟩⟩

private def notes : List Event := ["hay", "rain", "frost"].map note

private theorem content?_empty (place : Path) : Files.empty.content? place = none := by
  rw [content?_eq]
  by_cases known : place.Listed
  · rw [node?_of_listed known]
    rfl
  · rw [node?_of_not_listed known]
    rfl

private theorem generations_of_nonempty {first second third : Bytes} (one : 1 ≤ first.size)
    (two : 1 ≤ second.size) : generations 1 [first, second, third] = [[third], [second], [first]] := by
  simp [generations, addLine, joined, one, two]

/-- Only one file is moved on, and two are kept besides the open one. -/
theorem meadow_keeps_two_backups :
    let after := (start meadow Files.empty).writeAll notes
    meadow.rotate = true ∧
      (∀ k, Files.empty.content? (onward [] (slot (Path.ofText meadow.path) k)) = none) ∧
      (start meadow Files.empty).target.isSome = true ∧
      (start meadow Files.empty).Undisturbed notes ∧ meadow.backups = 1 ∧
      after.files.fileAt? ["log.jsonl"] = some (note "frost").journalLine ∧
      after.files.fileAt? ["log.jsonl.1"] = some (note "rain").journalLine ∧
      after.files.fileAt? ["log.jsonl.2"] = some (note "hay").journalLine ∧
      after.files.fileAt? ["log.jsonl.3"] = none := by
  have opened : (start meadow Files.empty).target.isSome = true := by decide +kernel
  have undisturbed : (start meadow Files.empty).Undisturbed notes := by decide +kernel
  obtain ⟨-, -, -, contents⟩ := newest_lines_are_kept rfl (fun k => content?_empty _) opened undisturbed
  have kept : generations meadow.maxBytes (notes.map Event.journalLine) =
      [[(note "frost").journalLine], [(note "rain").journalLine], [(note "hay").journalLine]] :=
    generations_of_nonempty (by decide +kernel) (by decide +kernel)
  have names : ([0, 1, 2, 3].map fun k => slot (Path.ofText meadow.path) k) =
      [["log.jsonl"], ["log.jsonl.1"], ["log.jsonl.2"], ["log.jsonl.3"]] := by
    decide +kernel
  simp only [List.map_cons, List.map_nil, List.cons.injEq, and_true] at names
  obtain ⟨live, first, second, third⟩ := names
  rw [kept] at contents
  refine ⟨rfl, fun k => content?_empty _, opened, undisturbed, rfl, ?_, ?_, ?_, ?_⟩
  · rw [← live, contents]
    simp [joined, meadow]
  · rw [← first, contents]
    simp [joined, meadow]
  · rw [← second, contents]
    simp [joined, meadow]
  · rw [← third, contents]
    rfl

end PeerMesh.Proofs.Rotations
