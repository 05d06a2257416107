import Mathlib.Logic.Function.Iterate
import PeerMesh.Proofs.Rotations

/-! What becomes of a journal whose file cannot be put aside. The journal has been closed before the move
that fails, and nothing opens it again but a move that succeeds: until then its lines are lost. The files
put aside before have been moved on by then, and each further attempt moves them on again. So as many
attempts as there are files leave only the newest of them. -/

namespace PeerMesh.Log.Journal

/-- The files put aside before have been moved on, the open file has not, and the journal is closed. -/
def giveUp (j : Journal) : Journal :=
  { j with files := moveAllOn j.settings.path j.settings.backups j.files, target := none }

/-- Writes an event. The system may refuse to move the open file, whatever the files are. -/
def handle (j : Journal) (step : Bool × Event) : Journal :=
  if step.1 && j.isFull then j.giveUp else j.write step.2

def handleAll (j : Journal) (steps : List (Bool × Event)) : Journal := steps.foldl handle j

/-- The open file cannot be moved: that is refused, or something is in the way. -/
def Fails (j : Journal) (refused : Bool) : Prop :=
  refused = true ∨
    (moveFirst j.settings (moveAllOn j.settings.path j.settings.backups j.files)).toOption = none

/-- Whenever the file is to be put aside, that fails. -/
def Blocked : Journal → List (Bool × Event) → Prop
  | _, [] => True
  | j, step :: rest => (j.isFull = true → j.Fails step.1) ∧ (j.handle step).Blocked rest

end PeerMesh.Log.Journal

namespace PeerMesh.Proofs.FailedRotations
open Files PeerMesh.Path FilePlaces Log Log.Journal JournalSlots Rotations

variable {f : Files} {dirs : List String} {text base : String} {j : Journal} {place : Path}
  {steps : List (Bool × Event)}

private theorem moveOn_of_dot (parts : Path.ofText text = dirs ++ [base]) (named : base ≠ "..")
    (dot : stem base = ".") (k : Nat) : moveOn text f (k + 1) = f := by
  unfold moveOn
  split
  next moved renamed =>
    have renamed := (moveTo_eq_ok.mp renamed).2
    rw [parts, backup_of_dot named dot (k + 1 + 1)] at renamed
    exact (not_renamed_up renamed).elim
  next => rfl

private theorem node?_moveOn (parts : Path.ofText text = dirs ++ [base]) (named : base ≠ "..")
    (listed : (onward [] dirs ++ [base]).Listed) (k : Nat) :
    (moveOn text f (k + 1)).node? (onward [] dirs ++ [base]) = f.node? (onward [] dirs ++ [base]) := by
  by_cases stemmed : stem base = "."
  · rw [moveOn_of_dot parts named stemmed]
  have regular : Regular text dirs base := ⟨parts, named, stemmed, listed⟩
  have other : k + 1 ≠ k + 2 := (Nat.succ_ne_self _).symm
  rcases moveOn_cases regular f k with ⟨same, -⟩ | ⟨-, renamed⟩
  · rw [same]
  · obtain ⟨-, -, -, moves, -⟩ := moves_of_renamed regular other renamed
    exact moves.keeps _ (isBelow_slotPlace (i := k + 1) (k := 0) (Nat.succ_ne_zero _) dirs base)
      (isBelow_slotPlace (i := k + 2) (k := 0) (Nat.succ_ne_zero _) dirs base)

theorem node?_moveAllOn (parts : Path.ofText text = dirs ++ [base]) (named : base ≠ "..")
    (listed : (onward [] dirs ++ [base]).Listed) (n : Nat) :
    (moveAllOn text n f).node? (onward [] dirs ++ [base]) = f.node? (onward [] dirs ++ [base]) := by
  induction n generalizing f with
  | zero => rfl
  | succ n ih => rw [moveAllOn_succ, ih, node?_moveOn parts named listed]

/-- A path names a file, at a place where one can be. -/
def Names (text : String) (place : Path) : Prop :=
  endsInDot text = false ∧ ∃ dirs base, Path.ofText text = dirs ++ [base] ∧ base ≠ ".." ∧
    base.utf8ByteSize ≤ maxNameSize ∧ place = onward [] dirs ++ [base] ∧ place.Listed

theorem names_of_opened (opened : Opened j place) : Names j.settings.path place := by
  obtain ⟨dirs, base, parts, named, -, fits, same, listed⟩ := parts_of_writable opened.writable
  obtain ⟨-, names, -⟩ := writable_eq_ok.mp opened.writable
  exact ⟨(Bool.or_eq_false_iff.mp names).1, dirs, base, parts, named, fits, same, listed⟩

theorem content?_giveUp (names : Names j.settings.path place) :
    j.giveUp.files.content? place = j.files.content? place := by
  obtain ⟨-, dirs, base, parts, named, -, rfl, listed⟩ := names
  rw [content?_eq, content?_eq, giveUp, node?_moveAllOn parts named listed]

theorem handle_of_fails (full : j.isFull = true) {refused : Bool} (fails : j.Fails refused) (e : Event) :
    j.handle (refused, e) = j.giveUp := by
  cases refused with
  | true => simp [handle, full]
  | false =>
    rcases fails with refused | blocked
    · cases refused
    have turned : j.rotateIfFull = j.giveUp := by
      rw [rotateIfFull, if_pos full, putAside]
      split
      next moved renamed =>
        rw [renamed] at blocked
        cases blocked
      next => rfl
    have closed : j.rotateIfFull.target = none := by
      rw [turned]
      rfl
    exact (write_of_closed e closed).trans turned

theorem handle_of_idle (idle : j.isFull = false) (refused : Bool) (e : Event) :
    j.handle (refused, e) = j.write e ∧ j.rotateIfFull = j := by
  refine ⟨?_, ?_⟩
  · simp [handle, idle]
  · rw [rotateIfFull, idle]
    rfl

theorem settings_handle (j : Journal) (step : Bool × Event) : (j.handle step).settings = j.settings := by
  unfold handle
  split
  · rfl
  · exact settings_write j step.2

theorem settings_handleAll (j : Journal) (steps : List (Bool × Event)) :
    (j.handleAll steps).settings = j.settings := by
  induction steps generalizing j with
  | nil => rfl
  | cons step steps ih => exact (ih (j.handle step)).trans (settings_handle j step)

/-- The path of a file that has to be put aside leads to its place. -/
theorem fileAt?_of_isFull (names : Names j.settings.path place) (full : j.isFull = true) :
    j.files.fileAt? j.path = j.files.content? place := by
  obtain ⟨-, dirs, base, parts, named, fits, rfl, -⟩ := names
  unfold isFull size? at full
  cases fault : textFault? j.settings.path with
  | some fault =>
    rw [fault] at full
    cases full
  | none =>
  rw [fault] at full
  dsimp only at full
  cases located : j.files.locate (Path.ofText j.settings.path) with
  | error fault =>
    rw [located] at full
    cases full
  | ok other =>
    rw [parts] at located
    rw [Journal.path, parts, fileAt?_of_place? ((place?_concat named).mpr ⟨(walk_concat.mp located).1, fits, rfl⟩)]

/-- Until its file has been put aside, a journal that is closed stays closed and loses every line. -/
theorem closed_handleAll (names : Names j.settings.path place) (closed : j.target = none) (blocked : j.Blocked steps) :
    (j.handleAll steps).target = none ∧
      (j.handleAll steps).files.content? place = j.files.content? place := by
  induction steps generalizing j with
  | nil => exact ⟨closed, rfl⟩
  | cons step steps ih =>
    obtain ⟨fails, others⟩ := blocked
    have same : (j.handle step).target = none ∧
        (j.handle step).files.content? place = j.files.content? place := by
      cases full : j.isFull with
      | true =>
        rw [handle_of_fails full (fails full)]
        exact ⟨rfl, content?_giveUp names⟩
      | false =>
        obtain ⟨writes, turned⟩ := handle_of_idle full step.1 step.2
        rw [writes, write_of_closed step.2 (turned.symm ▸ closed), turned]
        exact ⟨closed, rfl⟩
    obtain ⟨closed, kept⟩ := ih (by rwa [settings_handle]) same.1 others
    exact ⟨closed, kept.trans same.2⟩

def Reads (j : Journal) (place : Path) (content : Bytes) : Prop :=
  Opened j place ∧ j.files.content? place = some content

private theorem write_eq {content : Bytes} (reads : Reads j.rotateIfFull place content) (e : Event) :
    j.write e = { j.rotateIfFull with
      files := j.rotateIfFull.files.put place (content ++ e.journalLine) } := by
  rw [write_of_open e reads.1.target, append, reads.2]
  rfl

theorem reads_write {content : Bytes} (reads : Reads j.rotateIfFull place content) (e : Event) :
    Reads (j.write e) place (content ++ e.journalLine) := by
  obtain ⟨before, node⟩ := reads.1.file
  rw [write_eq reads]
  refine ⟨opened_put reads.1 _, ?_⟩
  rw [content?_eq, node?_put, if_pos ⟨listed_of_node? node, rfl⟩]
  rfl

/-- Lines are written until the file has to be put aside for the first time, and none after that. -/
theorem written_until_blocked {content : Bytes} (reads : Reads j place content)
    (blocked : j.Blocked steps) : ∃ written lost, steps = written ++ lost ∧
      (lost = [] ∧ Opened (j.handleAll steps) place ∨
        lost ≠ [] ∧ (j.handleAll written).isFull = true ∧ (j.handleAll steps).target = none) ∧
      (j.handleAll steps).files.content? place =
        some (content ++ joined (written.map fun step => step.2.journalLine)) := by
  induction steps generalizing j content with
  | nil => exact ⟨[], [], rfl, .inl ⟨rfl, reads.1⟩, by simpa [joined, handleAll] using reads.2⟩
  | cons step steps ih =>
    obtain ⟨fails, others⟩ := blocked
    cases full : j.isFull with
    | true =>
      have stuck := handle_of_fails full (fails full) step.2
      have names := names_of_opened reads.1
      obtain ⟨closed, kept⟩ := closed_handleAll (j := j.handle step) (by rwa [settings_handle])
        (by rw [stuck]; rfl) others
      have same : (j.handleAll (step :: steps)).files.content? place = some content := by
        rw [← reads.2, ← content?_giveUp names, ← stuck]
        exact kept
      refine ⟨[], step :: steps, rfl, .inr ⟨List.cons_ne_nil _ _, full, closed⟩, same.trans ?_⟩
      simp [joined]
    | false =>
      obtain ⟨writes, turned⟩ := handle_of_idle full step.1 step.2
      have next : Reads (j.handle step) place (content ++ step.2.journalLine) := by
        rw [writes]
        exact reads_write (turned.symm ▸ reads) step.2
      obtain ⟨written, lost, rfl, how, told⟩ := ih next others
      refine ⟨step :: written, lost, rfl, how, told.trans ?_⟩
      rw [List.map_cons, joined, ByteArray.append_assoc]

/-- Once the file has been put aside after all, the new one begins with the event that it was put aside
for. -/
theorem reads_after_turn (full : j.isFull = true) (turns : Turns j) (e : Event) :
    Reads (j.write e) (onward [] j.path) e.journalLine ∧
      (j.write e).files.fileAt? (backup j.path 1) = j.files.fileAt? j.path := by
  obtain ⟨opened, settings, shifts⟩ := putAside_of_turns turns
  have turned : j.rotateIfFull = j.putAside := by rw [rotateIfFull, if_pos full]
  have path : Path.ofText j.putAside.settings.path = j.path := by rw [settings]; rfl
  have led := (writable_eq_ok.mp opened.writable).2.2.1
  have empty : j.putAside.files.content? (onward [] j.path) = some ByteArray.empty := by
    rw [← fileAt?_of_place? led, path]
    exact congrArg (Option.bind · FileNode.content?) (congrFun shifts 0)
  have reads : Reads j.rotateIfFull (onward [] j.path) ByteArray.empty := by
    rw [turned]
    exact ⟨opened, empty⟩
  refine ⟨by simpa using reads_write reads e, ?_⟩
  rw [write_eq reads, turned]
  have other := fileAt?_put opened.writable (ByteArray.empty ++ e.journalLine) 1
  rw [path] at other
  exact other.trans (congrArg (Option.bind · FileNode.content?) (congrFun shifts 1))

theorem iterate_shifted {α : Type} {n k m : Nat} (slots : Nat → Option α) (first : 1 ≤ k)
    (last : k ≤ n) :
    (shifted n)^[m] slots k = if k ≤ m then none else slots (k - m) := by
  induction m generalizing slots with
  | zero => rw [if_neg (by omega)]; rfl
  | succ m ih =>
    rw [Function.iterate_succ_apply, ih]
    rcases Nat.lt_trichotomy k (m + 1) with gone | rfl | there
    · rw [if_pos (by omega), if_pos (by omega)]
    · rw [if_neg (by omega), if_pos (Nat.le_refl _), Nat.add_sub_cancel_left, shifted]
      simp [show ¬n < 0 by omega, show 0 ≠ n by omega]
    · obtain ⟨i, rfl⟩ := Nat.exists_eq_add_of_lt there
      rw [if_neg (by omega), if_neg (by omega), show m + 1 + i + 1 - m = i + 1 + 1 by omega,
        show m + 1 + i + 1 - (m + 1) = i + 1 by omega, shifted]
      simp [show ¬n < i + 1 by omega, show i + 1 ≠ n by omega]

/-- What is under the first number, up to some, under which there is anything. -/
def newest {α : Type} (slots : Nat → Option α) : Nat → Option α
  | 0 => none
  | k + 1 => (newest slots k).or (slots (k + 1))

private theorem newest_shifted {α : Type} (n : Nat) (slots : Nat → Option α) :
    newest (shifted n slots) (n + 1) = newest slots (n + 1) := by
  have below : ∀ k, k ≤ n → newest (shifted n slots) k = newest slots (k - 1) := by
    intro k
    induction k with
    | zero => exact fun _ => rfl
    | succ k ih =>
      intro last
      rw [newest, ih (by omega), shifted, if_neg (by omega), if_neg (by omega : k ≠ n)]
      cases k with
      | zero => rfl
      | succ k => simp [newest]
  rw [newest, below n (Nat.le_refl n), newest, shifted, if_neg (Nat.lt_irrefl n), if_pos rfl]
  cases n with
  | zero => rfl
  | succ n => simp [newest, Option.or_assoc]

private theorem newest_iterate {α : Type} (n m : Nat) (slots : Nat → Option α) :
    newest ((shifted n)^[m] slots) (n + 1) = newest slots (n + 1) := by
  induction m generalizing slots with
  | zero => rfl
  | succ m ih => rw [Function.iterate_succ_apply, ih, newest_shifted]

/-- As many moves as there are numbers leave only the newest. -/
theorem iterate_shifted_last {α : Type} {n m : Nat} (slots : Nat → Option α) (many : n ≤ m) :
    (shifted n)^[m] slots (n + 1) = newest slots (n + 1) := by
  have gone : ∀ k, k ≤ n → newest ((shifted n)^[m] slots) k = none := by
    intro k
    induction k with
    | zero => exact fun _ => rfl
    | succ k ih =>
      intro last
      rw [newest, ih (by omega), iterate_shifted slots (by omega) last, if_pos (by omega)]
      rfl
  rw [← newest_iterate n m, newest, gone n (Nat.le_refl n)]
  rfl

/-- Files that are moved on leave the way to them open. -/
private theorem opens_moveAllOn (regular : Regular text dirs base) {n : Nat} (opens : f.Opens [] dirs)
    (files : ∀ k, shelf f (dirs ++ [base]) (k + 1) ≠ some .directory)
    (moves : MovesAll text n f) : (moveAllOn text n f).Opens [] dirs := by
  induction n generalizing f with
  | zero => exact opens
  | succ n ih =>
    obtain ⟨movable, others⟩ := moves
    have still : (moveOn text f (n + 1)).Opens [] dirs := by
      have other : n + 1 ≠ n + 2 := (Nat.succ_ne_self _).symm
      rcases moveOn_cases regular f n with ⟨same, -⟩ | ⟨-, renamed⟩
      · rwa [same]
      · obtain ⟨-, found, -⟩ := shelf_of_rename regular other renamed
        rcases there : shelf f (dirs ++ [base]) (n + 1) with _ | ⟨content⟩ | _
        · exact absurd there found
        · exact opens_of_directories (fun _ => directories_of_rename renamed there) opens
        · exact absurd there (files n)
    rw [moveAllOn_succ]
    refine ih still (fun k => ?_) others
    rw [shelf_moveOn regular movable still]
    dsimp only
    split
    · intro directory
      rcases Option.or_eq_some_iff.mp directory with moved | ⟨-, stayed⟩
      · exact files n moved
      · exact files (n + 1) stayed
    · split
      · nofun
      · exact files k

private theorem shelf_stays {slots : Nat → Option FileNode} (none : ∀ k, slots (k + 1) = none) (n : Nat) :
    shifted n slots = slots := by
  funext k
  match k with
  | 0 => rfl
  | 1 => simp [shifted, none]
  | k + 2 => simp [shifted, none]

private theorem shifted_ne {slots : Nat → Option FileNode} {node : FileNode} (n : Nat)
    (other : ∀ k, slots (k + 1) ≠ some node) (k : Nat) : shifted n slots (k + 1) ≠ some node := by
  rw [shifted]
  split
  · exact other k
  · intro same
    rcases Option.or_eq_some_iff.mp same with moved | ⟨-, stayed⟩
    · cases k with
      | zero => cases moved
      | succ k => exact other k moved
    · split at stayed
      · exact other k stayed
      · cases stayed

/-- Files that can all be moved are shifted by one number, and can be reached afterwards as before. -/
theorem shift_of_files (parts : Path.ofText text = dirs ++ [base]) (named : base ≠ "..")
    (listed : (onward [] dirs ++ [base]).Listed) {n : Nat} (opens : f.Opens [] dirs)
    (files : ∀ k, shelf f (dirs ++ [base]) (k + 1) ≠ some .directory) (moves : MovesAll text n f) :
    (moveAllOn text n f).Opens [] dirs ∧
      shelf (moveAllOn text n f) (dirs ++ [base]) = shifted n (shelf f (dirs ++ [base])) := by
  by_cases stemmed : stem base = "."
  · have none : ∀ k, shelf f (dirs ++ [base]) (k + 1) = none := by
      intro k
      have nothing := fileAt?_up f dirs
      rw [← backup_of_dot named stemmed (k + 1)] at nothing
      rcases there : shelf f (dirs ++ [base]) (k + 1) with _ | ⟨content⟩ | _
      · rfl
      · cases (congrArg (Option.bind · FileNode.content?) there).symm.trans nothing
      · exact absurd there (files k)
    rw [moveAllOn_eq_self (moveOn_of_dot parts named stemmed), shelf_stays none]
    exact ⟨opens, rfl⟩
  · have regular : Regular text dirs base := ⟨parts, named, stemmed, listed⟩
    have still := opens_moveAllOn regular opens files moves
    exact ⟨still, shelf_moveAllOn regular moves still⟩

/-- Each time the move of the open file is refused, the others are shifted by one number. -/
theorem shelf_of_refused {content : Bytes} (writable : j.files.writable j.settings.path = .ok place)
    (file : j.files.node? place = some (.file content)) (full : j.isFull = true)
    (files : ∀ k, shelf j.files j.path (k + 1) ≠ some .directory) (events : List Event)
    (moves : ∀ i < events.length, MovesAll j.settings.path j.settings.backups
      ((moveAllOn j.settings.path j.settings.backups)^[i] j.files)) :
    shelf (j.handleAll (events.map fun e => (true, e))).files j.path =
      (shifted j.settings.backups)^[events.length] (shelf j.files j.path) := by
  induction events generalizing j with
  | nil => rfl
  | cons e events ih =>
    obtain ⟨dirs, base, parts, named, opens, fits, rfl, listed⟩ := parts_of_writable writable
    have path : j.path = dirs ++ [base] := parts
    obtain ⟨fault, names, led, free⟩ := writable_eq_ok.mp writable
    obtain ⟨still, shift⟩ := shift_of_files parts named listed opens (by rw [← path]; exact files)
      (moves 0 (Nat.succ_pos _))
    have given : j.handle (true, e) = j.giveUp := handle_of_fails full (.inl rfl) e
    have settings : j.giveUp.settings = j.settings := rfl
    have kept : j.giveUp.files.node? (onward [] dirs ++ [base]) = some (.file content) := by
      rw [giveUp, node?_moveAllOn parts named listed, file]
    have again : j.giveUp.files.writable j.settings.path = .ok (onward [] dirs ++ [base]) := by
      refine writable_eq_ok.mpr ⟨fault, names, ?_, by rw [kept]; nofun⟩
      rw [parts, giveUp]
      exact (place?_concat named).mpr ⟨still, fits, rfl⟩
    have shifts : shelf j.giveUp.files j.path = shifted j.settings.backups (shelf j.files j.path) := by
      rw [giveUp, path]
      exact shift
    have fullAgain : j.giveUp.isFull = true := by
      rw [isFull_eq again kept, settings, ← isFull_eq writable file]
      exact full
    have rest := ih (j := j.giveUp) again kept fullAgain
      (fun k => by rw [show j.giveUp.path = j.path from rfl, shifts]; exact shifted_ne _ files k)
      (fun i inside => by
        have next := moves (i + 1) (Nat.succ_lt_succ inside)
        rwa [Function.iterate_succ_apply] at next)
    rw [List.length_cons, Function.iterate_succ_apply, ← shifts, List.map_cons, handleAll, List.foldl_cons,
      given]
    exact rest

private theorem utf8ByteSize_digits {digits : List Char} (all : ∀ c ∈ digits, c.isDigit = true) :
    (String.ofList digits).utf8ByteSize = digits.length := by
  induction digits with
  | nil => rfl
  | cons c digits ih =>
    obtain ⟨digit, others⟩ := List.forall_mem_cons.mp all
    have one : c.utf8Size = 1 := by
      have range := Char.isDigit_iff_toNat.mp digit
      refine Char.utf8Size_eq_one_iff.mpr (UInt32.le_iff_toNat_le.mpr ?_)
      exact Nat.le_trans range.2 (by decide)
    rw [← List.singleton_append, String.ofList_append, String.utf8ByteSize_append, ih others,
      List.length_append, ← String.singleton_eq_ofList, String.utf8ByteSize_singleton, one]
    rfl

private theorem utf8ByteSize_toString (k : Nat) : (toString k).utf8ByteSize = k.repr.length := by
  have size := @utf8ByteSize_digits (toString k).toList fun c member =>
    digits_of_toString member
  rwa [String.ofList_toList, String.length_toList, Nat.toString_eq_repr] at size

/-- A file can have the name and the path with a number. -/
structure Fits (text base : String) (k : Nat) : Prop where
  name : (slotName base k).utf8ByteSize ≤ maxNameSize
  path : sizeWithExtension text (extension k) ≤ maxSize

/-- The name with a greater number is not shorter. -/
private theorem fits_of_succ {k : Nat} (fits : Fits text base (k + 1 + 1)) :
    Fits text base (k + 1) := by
  have longer : (toString (k + 1)).utf8ByteSize ≤ (toString (k + 1 + 1)).utf8ByteSize := by
    rw [utf8ByteSize_toString, utf8ByteSize_toString]
    have positive := Nat.length_repr_pos (n := k + 1 + 1)
    have below := (Nat.length_repr_le_iff positive).mp (Nat.le_refl (k + 1 + 1).repr.length)
    exact (Nat.length_repr_le_iff positive).mpr (by omega)
  obtain ⟨name, path⟩ := fits
  refine ⟨?_, ?_⟩
  · simp only [slotName, String.utf8ByteSize_append] at name ⊢
    omega
  · unfold sizeWithExtension at path ⊢
    split at path
    · simp only [extension, String.utf8ByteSize_append] at path ⊢
      omega
    · exact path

private theorem isNamed_slot (regular : Regular text dirs base) (k : Nat) :
    (slot (dirs ++ [base]) k).isNamed = true := by
  rw [slot_eq regular, isNamed, List.getLast?_concat, Option.any_some,
    decide_eq_true (slotName_ne_up regular k), Bool.true_and]
  refine decide_eq_true fun top => ?_
  obtain ⟨rfl, named⟩ := List.append_eq_singleton_iff.mp top |>.resolve_right (by simp)
  have listed := listed_slotPlace regular k
  simp [slotPlace, onward, Listed, List.cons.inj named] at listed

private theorem rename_of_free {i k : Nat} (regular : Regular text dirs base) (other : i ≠ k)
    (opens : f.Opens [] dirs) (fitsHere : (slotName base i).utf8ByteSize ≤ maxNameSize)
    (fitsThere : (slotName base k).utf8ByteSize ≤ maxNameSize)
    (found : shelf f (dirs ++ [base]) i ≠ none) (free : shelf f (dirs ++ [base]) k = none) :
    ∃ moved, f.rename (slot (dirs ++ [base]) i) (slot (dirs ++ [base]) k) = .ok moved := by
  have from_ := (place?_slot (f := f) regular i).mpr ⟨opens, fitsHere, rfl⟩
  have to_ := (place?_slot (f := f) regular k).mpr ⟨opens, fitsThere, rfl⟩
  have here : f.node? (slotPlace dirs base i) ≠ none := by
    rwa [shelf, at?, from_] at found
  have there : f.node? (slotPlace dirs base k) = none := by
    rwa [shelf, at?, to_] at free
  have beside := isBelow_slotPlace other dirs base
  have apart : slotPlace dirs base i ≠ slotPlace dirs base k := fun same =>
    ne_of_beside beside (congrArg Path.key same)
  unfold rename
  rw [from_, to_, isNamed_slot regular, isNamed_slot regular]
  dsimp only
  rw [there]
  rcases known : f.node? (slotPlace dirs base i) with _ | ⟨content⟩ | _
  · exact absurd known here
  · exact ⟨_, rfl⟩
  · simp [apart, beside]

/-- Where the last of the numbers is free, all files can be moved on, and leave the first one free. -/
private theorem free_of_moveAllOn (regular : Regular text dirs base) {n : Nat}
    (free : shelf f (dirs ++ [base]) (n + 1) = none) (fits : Fits text base (n + 1))
    (still : (moveAllOn text n f).Opens [] dirs) :
    shelf (moveAllOn text n f) (dirs ++ [base]) 1 = none ∧ Fits text base 1 := by
  induction n generalizing f with
  | zero => exact ⟨free, fits⟩
  | succ n ih =>
    rw [moveAllOn_succ] at still ⊢
    have between := opens_of_moveAllOn regular still
    have opens : f.Opens [] dirs := by
      by_contra blocked
      rw [moveOn_of_blocked regular blocked] at between
      exact blocked between
    have movable : Movable text f (n + 1) := by
      refine or_iff_not_imp_left.mpr fun found => ?_
      rw [regular.parts] at found ⊢
      obtain ⟨moved, renamed⟩ := rename_of_free (i := n + 1) (k := n + 2) regular
        (Nat.succ_ne_self _).symm opens (fits_of_succ fits).name fits.name found free
      rw [moveTo_eq_ok.mpr ⟨fits.path, by rw [regular.parts]; exact renamed⟩]
      rfl
    refine ih ?_ (fits_of_succ fits) still
    rw [shelf_moveOn regular movable between]
    simp

/-- Where the first number is taken after all the moves, there were none. -/
private theorem moveAllOn_of_taken (regular : Regular text dirs base) {n : Nat}
    (still : (moveAllOn text n f).Opens [] dirs)
    (taken : ¬(shelf (moveAllOn text n f) (dirs ++ [base]) 1 = none ∧ Fits text base 1)) :
    moveAllOn text n f = f := by
  induction n generalizing f with
  | zero => rfl
  | succ n ih =>
    rw [moveAllOn_succ] at still taken ⊢
    rcases moveOn_cases regular f n with ⟨same, -⟩ | ⟨path, renamed⟩
    · rw [same] at still taken ⊢
      exact ih still taken
    · have other : n + 1 ≠ n + 2 := (Nat.succ_ne_self _).symm
      obtain ⟨-, -, name, -, -⟩ := moves_of_renamed regular other renamed
      obtain ⟨-, -, after⟩ := shelf_of_rename regular other renamed
      refine absurd (free_of_moveAllOn regular ?_ (fits_of_succ ⟨name, path⟩) still) taken
      rw [after (opens_of_moveAllOn regular still)]
      simp

/-- Where something is in the way of the open file, nothing at all is moved. -/
theorem giveUp_of_obstacle (names : Names j.settings.path place) (fails : j.Fails false)
    (reached : (j.giveUp.files.fileAt? j.path).isSome = true) : j.giveUp = { j with target := none } := by
  obtain ⟨plain, dirs, base, parts, named, -, rfl, listed⟩ := names
  have blocked := fails.resolve_left Bool.false_ne_true
  obtain ⟨content, reached⟩ := Option.isSome_iff_exists.mp reached
  obtain ⟨node, there, -⟩ := Option.bind_eq_some_iff.mp reached
  unfold giveUp at there ⊢
  rw [Journal.path, parts] at there
  obtain ⟨opens, fits, found⟩ := (at?_concat named node).mp there
  have still : moveAllOn j.settings.path j.settings.backups j.files = j.files := by
    by_cases stemmed : stem base = "."
    · exact moveAllOn_eq_self (moveOn_of_dot parts named stemmed) _
    · have regular : Regular j.settings.path dirs base := ⟨parts, named, stemmed, listed⟩
      refine moveAllOn_of_taken regular opens ?_
      rintro ⟨free, first⟩
      have taken :
          shelf (moveAllOn j.settings.path j.settings.backups j.files) (dirs ++ [base]) 0 ≠ none := by
        rw [shelf, slot, there]
        exact Option.some_ne_none node
      obtain ⟨moved, renamed⟩ := rename_of_free (i := 0) (k := 1) regular (by decide) opens fits
        first.name taken free
      rw [slot, slot, ← parts] at renamed
      rw [moveFirst_eq_ok.mpr ⟨plain, first.path, renamed⟩] at blocked
      cases blocked
  rw [still]

/-- However often that is tried, all files stay as they were. -/
theorem files_of_obstacle (names : Names j.settings.path place) (full : j.isFull = true) (fails : j.Fails false)
    (reached : (j.giveUp.files.fileAt? j.path).isSome = true) (events : List Event) :
    (j.handleAll (events.map fun e => (false, e))).files = j.files := by
  induction events generalizing j with
  | nil => rfl
  | cons e events ih =>
    have stuck : j.handle (false, e) = { j with target := none } := by
      rw [handle_of_fails full fails, giveUp_of_obstacle names fails reached]
    rw [List.map_cons, handleAll, List.foldl_cons, stuck]
    exact ih (j := { j with target := none }) names full fails reached

/-- A journal loses the lines of all events from the first rotation that fails to the one before the first
that succeeds: its file stays as it was, and is then put aside without them. As long as something is in the
way of the file, no file changes. But when its move is refused again and again, the files put aside before
are shifted by one number each time, until only the newest of them is left. -/
theorem failed_rotation_loses_lines {j : Journal} {place : Path} {content : Bytes}
    (reads : Reads j place content) :
    (∀ steps, j.Blocked steps → ∃ written lost, steps = written ++ lost ∧
      (lost = [] ∧ Opened (j.handleAll steps) place ∨
        lost ≠ [] ∧ (j.handleAll written).isFull = true ∧ (j.handleAll steps).target = none) ∧
      let live := content ++ joined (written.map fun step => step.2.journalLine)
      (j.handleAll steps).files.content? place = some live ∧
      ∀ e, (j.handleAll steps).isFull = true → Turns (j.handleAll steps) →
        let after := (j.handleAll steps).handle (false, e)
        Reads after place e.journalLine ∧ after.files.fileAt? (backup j.path 1) = some live) ∧
    (j.isFull = true → j.Fails false → (j.giveUp.files.fileAt? j.path).isSome = true →
      ∀ events : List Event, (j.handleAll (events.map fun e => (false, e))).files = j.files) ∧
    ∀ events : List Event, j.isFull = true →
      (∀ k, shelf j.files j.path (k + 1) ≠ some .directory) →
      (∀ i < events.length, MovesAll j.settings.path j.settings.backups
        ((moveAllOn j.settings.path j.settings.backups)^[i] j.files)) →
      let after := shelf (j.handleAll (events.map fun e => (true, e))).files j.path
      (∀ k, 1 ≤ k → k ≤ j.settings.backups → after k =
        if k ≤ events.length then none else shelf j.files j.path (k - events.length)) ∧
      (j.settings.backups ≤ events.length → after (j.settings.backups + 1) =
        newest (shelf j.files j.path) (j.settings.backups + 1)) := by
  have names := names_of_opened reads.1
  refine ⟨fun steps blocked => ?_, files_of_obstacle names, fun events full files moves => ?_⟩
  · obtain ⟨written, lost, parts, how, told⟩ := written_until_blocked reads blocked
    refine ⟨written, lost, parts, how, told, fun e full turns => ?_⟩
    have settings := settings_handleAll j steps
    have path : (j.handleAll steps).path = j.path := by rw [Journal.path, settings, Journal.path]
    have led : place = onward [] j.path := place_of_writable reads.1.writable
    obtain ⟨next, aside⟩ := reads_after_turn full turns e
    rw [path, ← led] at next
    rw [path] at aside
    refine ⟨next, aside.trans ?_⟩
    rw [← path, fileAt?_of_isFull (by rwa [settings]) full, told]
  · obtain ⟨before, file⟩ := reads.1.file
    have shifts := shelf_of_refused reads.1.writable file full files events moves
    dsimp only
    rw [shifts]
    exact ⟨fun k first last => iterate_shifted _ first last, iterate_shifted_last _⟩

private def cellar : Journal where
  settings := ⟨"log.jsonl", true, 1, 1⟩
  target := some ["log.jsonl"]
  files := ⟨Table.ofList [("log.jsonl", .file ⟨#[1]⟩), ("log.jsonl.1", .file ⟨#[2]⟩),
    ("log.jsonl.2", .file ⟨#[3]⟩)]⟩

private def remark (text : String) : Event :=
  ⟨⟨0, 0, "s", none⟩, ⟨.info, "cellar", none, true, .system text none⟩⟩

/-- The directory that is made on the way to the file has the name that the file is to be put aside under. -/
private def loft : Journal := (start ⟨"loft.jsonl.1/../loft", true, 1, 0⟩ Files.empty).write (remark "mice")

private theorem reads_of_node? {content : Bytes} (target : j.target = some place)
    (writable : j.files.writable j.settings.path = .ok place)
    (file : j.files.node? place = some (.file content)) : Reads j place content :=
  ⟨⟨target, writable, content, file⟩, by rw [content?_eq, file]; rfl⟩

private theorem files_of_cellar (k : Nat) : shelf cellar.files cellar.path (k + 1) ≠ some .directory := by
  have regular : Regular cellar.settings.path [] "log.jsonl" :=
    ⟨by decide, by decide, by decide, by decide⟩
  have path : cellar.path = [] ++ ["log.jsonl"] := regular.parts
  intro directory
  rw [path, shelf, at?_slot regular] at directory
  obtain ⟨-, -, found⟩ := directory
  rw [node?_of_listed (listed_slotPlace regular (k + 1))] at found
  have member := Table.mem_of_get?_ofList found
  simp at member

private theorem reads_loft : Reads loft ["loft"] (remark "mice").journalLine := by
  have empty : Reads (start ⟨"loft.jsonl.1/../loft", true, 1, 0⟩ Files.empty).rotateIfFull ["loft"]
      ByteArray.empty :=
    reads_of_node? (by decide +kernel) (by decide +kernel) (by decide +kernel)
  have written := reads_write empty (remark "mice")
  rw [ByteArray.empty_append] at written
  exact written

/-- The first remark in the cellar is lost with the oldest file, and in the loft all but the first are. -/
theorem cellar_loses_a_remark :
    let refused := cellar.handleAll [(true, remark "mice")]
    let after := refused.handle (false, remark "damp")
    Reads cellar ["log.jsonl"] ⟨#[1]⟩ ∧
      refused.files.content? ["log.jsonl"] = some ⟨#[1]⟩ ∧
      refused.files.at? ["log.jsonl.1"] = none ∧
      refused.files.at? ["log.jsonl.2"] = some (.file ⟨#[2]⟩) ∧
      Reads after ["log.jsonl"] (remark "damp").journalLine ∧
      after.files.fileAt? ["log.jsonl.1"] = some ⟨#[1]⟩ ∧
      Reads loft ["loft"] (remark "mice").journalLine ∧
      ∀ events : List Event,
        (loft.handleAll (events.map fun e => (false, e))).files = loft.files := by
  have reads : Reads cellar ["log.jsonl"] ⟨#[1]⟩ :=
    reads_of_node? rfl (by decide +kernel) (by decide +kernel)
  have full : cellar.isFull = true := by decide +kernel
  have first : slot cellar.path 1 = ["log.jsonl.1"] := by decide +kernel
  have second : slot cellar.path 2 = ["log.jsonl.2"] := by decide +kernel
  have moves : ∀ i < 1, MovesAll cellar.settings.path cellar.settings.backups
      ((moveAllOn cellar.settings.path cellar.settings.backups)^[i] cellar.files) := by
    intro i inside
    obtain rfl := Nat.lt_one_iff.mp inside
    decide +kernel
  obtain ⟨lines, -, refusals⟩ := failed_rotation_loses_lines reads
  obtain ⟨written, lost, parts, how, told, turned⟩ :=
    lines [(true, remark "mice")] ⟨fun _ => .inl rfl, trivial⟩
  have nothing : written = [] := by
    rcases how with ⟨rfl, opened⟩ | ⟨nonempty, -⟩
    · have closed : (cellar.handleAll [(true, remark "mice")]).target = none := by decide +kernel
      cases closed.symm.trans opened.target
    · cases written with
      | nil => rfl
      | cons step written => simp [nonempty] at parts
  subst nothing
  obtain ⟨next, aside⟩ := turned (remark "damp") (by decide +kernel) (by decide +kernel)
  obtain ⟨others, last⟩ := refusals [remark "mice"] full files_of_cellar moves
  have grown : loft.isFull = true := by decide +kernel
  have fails : loft.Fails false := .inr (by decide +kernel)
  have reached : (loft.giveUp.files.fileAt? loft.path).isSome = true := by decide +kernel
  obtain ⟨-, stuck, -⟩ := failed_rotation_loses_lines reads_loft
  refine ⟨reads, told, ?_, ?_, next, first ▸ aside, reads_loft, stuck grown fails reached⟩
  · rw [← first]
    exact others 1 (Nat.le_refl 1) (Nat.le_refl 1)
  · rw [← second]
    refine (last (Nat.le_refl 1)).trans ?_
    decide +kernel

end PeerMesh.Proofs.FailedRotations
