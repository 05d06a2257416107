import PeerMesh.Log.Journal
import PeerMesh.Proofs.FilePlaces

/-! The files of a journal by their numbers: the open file under zero, and each file put aside under the
number in its name. No two of them are in each other's way. To move the files on is to shift them by one
number each, over whatever was under the last. -/

namespace PeerMesh

namespace Log.Journal

/-- The path of the open file, and of the files put aside. -/
def slot (path : Path) : Nat → Path
  | 0 => path
  | k + 1 => backup path (k + 1)

def slotName (base : String) : Nat → String
  | 0 => base
  | k + 1 => Path.stem base ++ ("." ++ ("jsonl." ++ toString (k + 1)))

/-- What is under a number, if there is anything, can be moved on to the next. -/
def Movable (text : String) (f : Files) (n : Nat) : Prop :=
  f.at? (backup (Path.ofText text) n) = none ∨
    (moveTo text f (backup (Path.ofText text) n) (n + 1)).toOption.isSome = true

/-- Everything that is there under the numbers up to a count can be moved on. -/
def MovesAll (text : String) : Nat → Files → Prop
  | 0, _ => True
  | n + 1, f => Movable text f (n + 1) ∧ MovesAll text n (moveOn text f (n + 1))

instance (text : String) (f : Files) (n : Nat) : Decidable (Movable text f n) :=
  inferInstanceAs (Decidable (_ ∨ _))

instance decidableMovesAll (text : String) : (n : Nat) → (f : Files) → Decidable (MovesAll text n f)
  | 0, _ => inferInstanceAs (Decidable True)
  | n + 1, f =>
    have := decidableMovesAll text n (moveOn text f (n + 1))
    inferInstanceAs (Decidable (_ ∧ _))

/-- What is under the numbers after those up to `n` were moved on. What the last of them is moved to is
lost, unless nothing was there to be moved. -/
def shifted {α : Type} (n : Nat) (slots : Nat → Option α) : Nat → Option α
  | 0 => slots 0
  | k + 1 =>
    if n < k then slots (k + 1)
    else (if k = 0 then none else slots k).or (if k = n then slots (k + 1) else none)

end Log.Journal

namespace Proofs.JournalSlots
open Files PeerMesh.Path FilePlaces Log Log.Journal

variable {f g : Files} {text base : String} {dirs : List String}

/-- A name is what stands before its last dot, and what stands behind it. -/
theorem stem_cases (base : String) : stem base = base ∨
    ∃ extension, '.' ∉ extension.toList ∧ base = stem base ++ ("." ++ extension) := by
  unfold stem
  have parts := List.takeWhile_append_dropWhile (p := (· ≠ '.')) (l := base.toList.reverse)
  dsimp only
  split
  next front rest =>
    split
    next => exact .inl rfl
    next =>
      refine .inr ⟨String.ofList (base.toList.reverse.takeWhile (· ≠ '.')).reverse, ?_, ?_⟩
      · intro member
        rw [String.toList_ofList, List.mem_reverse] at member
        simpa using List.all_eq_true.mp List.all_takeWhile _ member
      · rw [rest] at parts
        refine String.ext (List.reverse_inj.mp ?_)
        simpa using parts.symm
  next => exact .inl rfl

theorem digits_of_toString {k : Nat} {c : Char} (member : c ∈ (toString k).toList) :
    c.isDigit = true := by
  rw [Nat.toString_eq_repr, Nat.toList_repr] at member
  exact Nat.isDigit_of_mem_toDigits (by decide) (by decide) member

theorem toString_injective {i k : Nat} (same : toString i = toString k) : i = k := by
  have digits : Nat.toDigits 10 i = Nat.toDigits 10 k := by
    simpa using congrArg String.toList same
  have number := congrArg (Nat.ofDigitChars 10 · 0) digits
  simpa using number

private theorem isBelow_append (front one two : String) :
    isBelow (front ++ one) (front ++ two) = isBelow one two := by
  rw [Bool.eq_iff_iff, isBelow_iff, isBelow_iff]
  simp only [String.append_assoc, String.append_right_inj]

/-- A name without a slash lies below nothing but itself. -/
private theorem isBelow_eq_false {top path : String} (plain : '/' ∉ path.toList) (other : path ≠ top) :
    isBelow top path = false := by
  refine eq_false_of_ne_true fun below => ?_
  rcases isBelow_iff.mp below with same | ⟨rest, rfl⟩
  · exact other same
  · refine plain ?_
    simp

private theorem slash_notMem_number (k : Nat) : '/' ∉ ("jsonl." ++ toString k).toList := by
  intro member
  rw [String.toList_append, List.mem_append] at member
  rcases member with word | digits
  · exact absurd word (by decide)
  · exact absurd (digits_of_toString digits) (by decide)

private theorem ne_of_dot {extension : String} (plain : '.' ∉ extension.toList) (rest : String) :
    extension ≠ "jsonl." ++ rest := by
  rintro rfl
  exact plain (by simp)

/-- No file of a journal lies below another one of them. -/
theorem isBelow_slotName {i k : Nat} (other : i ≠ k) (base : String) :
    isBelow (slotName base i) (slotName base k) = false := by
  have slashless (k : Nat) : '/' ∉ (toString k).toList := fun member =>
    absurd (digits_of_toString member) (by decide)
  rcases i with _ | i <;> rcases k with _ | k
  · exact absurd rfl other
  · rw [slotName, slotName]
    rcases stem_cases base with whole | ⟨extension, plain, parts⟩
    · rw [whole]
      nth_rewrite 1 [← String.append_empty (s := base)]
      rw [isBelow_append]
      exact isBelow_eq_false (by simpa using slash_notMem_number (k + 1)) (by simp)
    · nth_rewrite 1 [parts]
      rw [isBelow_append, isBelow_append]
      exact isBelow_eq_false (slash_notMem_number (k + 1)) (ne_of_dot plain _).symm
  · rw [slotName, slotName]
    rcases stem_cases base with whole | ⟨extension, plain, parts⟩
    · rw [whole]
      nth_rewrite 2 [← String.append_empty (s := base)]
      rw [isBelow_append]
      exact isBelow_eq_false (by simp) (by simp)
    · nth_rewrite 2 [parts]
      rw [isBelow_append, isBelow_append]
      refine eq_false_of_ne_true fun below => ?_
      rcases isBelow_iff.mp below with same | ⟨rest, same⟩
      · exact ne_of_dot plain _ same
      · rw [String.append_assoc, String.append_assoc] at same
        exact ne_of_dot plain _ same
  · rw [slotName, slotName, isBelow_append, isBelow_append, isBelow_append]
    exact isBelow_eq_false (slashless (k + 1)) fun same =>
      other (toString_injective same).symm

/-- A name of a dot and an extension has only the way up without it. -/
theorem backup_of_dot (named : base ≠ "..") (dot : stem base = ".") (k : Nat) :
    backup (dirs ++ [base]) k = dirs ++ [".."] := by
  simp [backup, withExtension, named, dot]

/-- The path of a journal names a file that can be put aside under other names. -/
structure Regular (text : String) (dirs : List String) (base : String) : Prop where
  parts : Path.ofText text = dirs ++ [base]
  named : base ≠ ".."
  stemmed : stem base ≠ "."
  listed : (onward [] dirs ++ [base]).Listed

theorem slot_eq (regular : Regular text dirs base) (k : Nat) :
    slot (dirs ++ [base]) k = dirs ++ [slotName base k] := by
  cases k with
  | zero => rfl
  | succ k =>
    unfold slot backup withExtension
    simp [regular.named, regular.stemmed, slotName, String.append_assoc]
    rfl

private theorem length_slotName (base : String) (k : Nat) : 2 < (slotName base (k + 1)).length := by
  have word : "jsonl.".length = 6 := rfl
  simp only [slotName, String.length_append, word]
  omega

theorem slotName_ne_up (regular : Regular text dirs base) (k : Nat) : slotName base k ≠ ".." := by
  cases k with
  | zero => exact regular.named
  | succ k =>
    intro same
    have long := length_slotName base k
    rw [same] at long
    exact absurd long (by decide)

def slotPlace (dirs : List String) (base : String) (k : Nat) : Path :=
  onward [] dirs ++ [slotName base k]

theorem listed_slotPlace (regular : Regular text dirs base) (k : Nat) : (slotPlace dirs base k).Listed := by
  cases k with
  | zero => exact regular.listed
  | succ k =>
    have named := slotName_ne_up regular (k + 1)
    have long := length_slotName base k
    unfold Listed slotPlace
    rw [Bool.or_eq_false_iff]
    constructor
    · simp [named]
    · refine decide_eq_false fun same => ?_
      have last := congrArg List.getLast? same
      simp at last
      rw [last] at long
      exact absurd long (by decide)

private theorem key_concat (here : Path) :
    ∃ front, ∀ name : String, Path.key (here ++ [name]) = front ++ name := by
  by_cases top : here = []
  · refine ⟨"", fun name => ?_⟩
    simp [top, Path.key]
  · refine ⟨"/".intercalate here ++ "/", fun name => ?_⟩
    rw [Path.key, String.intercalate_append_of_ne_nil top (by simp), String.intercalate_singleton]

theorem isBelow_slotPlace {i k : Nat} (other : i ≠ k) (dirs : List String) (base : String) :
    isBelow (slotPlace dirs base i).key (slotPlace dirs base k).key = false := by
  obtain ⟨front, keys⟩ := key_concat (onward [] dirs)
  rw [slotPlace, slotPlace, keys, keys, isBelow_append]
  exact isBelow_slotName other base

theorem at?_slot (regular : Regular text dirs base) (k : Nat) (node : FileNode) :
    f.at? (slot (dirs ++ [base]) k) = some node ↔
      f.Opens [] dirs ∧ (slotName base k).utf8ByteSize ≤ maxNameSize ∧
        f.node? (slotPlace dirs base k) = some node := by
  rw [slot_eq regular, at?_concat (slotName_ne_up regular k)]
  rfl

theorem place?_slot (regular : Regular text dirs base) (k : Nat) {place : Path} :
    f.place? (slot (dirs ++ [base]) k) = .ok place ↔
      f.Opens [] dirs ∧ (slotName base k).utf8ByteSize ≤ maxNameSize ∧ place = slotPlace dirs base k := by
  rw [slot_eq regular, place?_concat (slotName_ne_up regular k)]
  rfl

/-- What there is under the numbers of a journal. -/
def shelf (f : Files) (path : Path) (k : Nat) : Option FileNode := f.at? (slot path k)

/-- A move from one number to another. -/
theorem moves_of_renamed {i k : Nat} (regular : Regular text dirs base) (other : i ≠ k)
    (moved : f.rename (slot (dirs ++ [base]) i) (slot (dirs ++ [base]) k) = .ok g) :
    f.Opens [] dirs ∧ (slotName base i).utf8ByteSize ≤ maxNameSize ∧
      (slotName base k).utf8ByteSize ≤ maxNameSize ∧
      Moves f g (slotPlace dirs base i) (slotPlace dirs base k) ∧
      f.node? (slotPlace dirs base i) ≠ none := by
  obtain ⟨here, there, from_, to_, -⟩ := rename_cases moved
  obtain ⟨opens, fitsHere, rfl⟩ := (place?_slot regular i).mp from_
  obtain ⟨-, fitsThere, rfl⟩ := (place?_slot regular k).mp to_
  exact ⟨opens, fitsHere, fitsThere, moves_of_rename moved from_ to_ (listed_slotPlace regular i)
    (listed_slotPlace regular k) (isBelow_slotPlace other.symm dirs base)⟩

/-- A file is there under a number if the way to it is open and its name is not too long. -/
private theorem shelf_eq (regular : Regular text dirs base) (opens : f.Opens [] dirs) (k : Nat) :
    shelf f (dirs ++ [base]) k =
      if (slotName base k).utf8ByteSize ≤ maxNameSize then f.node? (slotPlace dirs base k) else none := by
  refine Option.ext fun node => ?_
  rw [shelf, at?_slot regular]
  split
  next fits => simp [opens, fits]
  next long => simp [long]

/-- Where the way to the files is still open after a move, only what was moved is elsewhere. -/
theorem shelf_of_rename {i k : Nat} (regular : Regular text dirs base) (other : i ≠ k)
    (moved : f.rename (slot (dirs ++ [base]) i) (slot (dirs ++ [base]) k) = .ok g) :
    f.Opens [] dirs ∧ shelf f (dirs ++ [base]) i ≠ none ∧
      (g.Opens [] dirs → shelf g (dirs ++ [base]) =
        fun m => if m = k then shelf f (dirs ++ [base]) i else if m = i then none
          else shelf f (dirs ++ [base]) m) := by
  obtain ⟨opens, fitsHere, fitsThere, moves, found⟩ := moves_of_renamed regular other moved
  have source : shelf f (dirs ++ [base]) i = f.node? (slotPlace dirs base i) := by
    rw [shelf_eq regular opens, if_pos fitsHere]
  refine ⟨opens, by rwa [source], fun still => funext fun m => ?_⟩
  rw [shelf_eq regular still, source]
  by_cases target : m = k
  · subst target
    rw [if_pos fitsThere, if_pos rfl]
    exact moves.arrives
  rw [if_neg target]
  by_cases same : m = i
  · subst same
    rw [if_pos fitsHere, if_pos rfl]
    exact moves.leaves
  rw [if_neg same, shelf_eq regular opens, moves.keeps _ (isBelow_slotPlace (Ne.symm same) dirs base)
    (isBelow_slotPlace (Ne.symm target) dirs base)]

theorem moveAllOn_succ (text : String) (n : Nat) (f : Files) :
    moveAllOn text (n + 1) f = moveAllOn text n (moveOn text f (n + 1)) := by
  simp [moveAllOn, List.range_succ]

theorem shifted_zero {α : Type} (slots : Nat → Option α) : shifted 0 slots = slots := by
  funext k
  cases k with
  | zero => rfl
  | succ k =>
    cases k with
    | zero => simp [shifted]
    | succ k => simp [shifted]

/-- First the last of them is moved, then all before it. -/
theorem shifted_succ {α : Type} (n : Nat) (slots : Nat → Option α) :
    shifted (n + 1) slots = shifted n fun k =>
      if k = n + 2 then (slots (n + 1)).or (slots (n + 2)) else if k = n + 1 then none else slots k := by
  funext k
  cases k with
  | zero => simp [shifted]
  | succ k =>
    simp only [shifted]
    rcases Nat.lt_trichotomy k (n + 1) with below | rfl | above
    · rcases Nat.eq_or_lt_of_le (Nat.le_of_lt_succ below) with rfl | lower
      · grind
      · grind
    · grind
    · grind

theorem moveTo_eq_ok {source : Path} {n : Nat} : moveTo text f source n = .ok g ↔
    sizeWithExtension text (extension n) ≤ maxSize ∧
      f.rename source (backup (Path.ofText text) n) = .ok g := by
  unfold moveTo
  split
  next long => simp [Nat.not_le.mpr long]
  next fits => simp [Nat.not_lt.mp fits]

/-- What is under a number stays there, because the move fails, or it is moved to the next. -/
theorem moveOn_cases (regular : Regular text dirs base) (f : Files) (k : Nat) :
    moveOn text f (k + 1) = f ∧ (Movable text f (k + 1) → shelf f (dirs ++ [base]) (k + 1) = none) ∨
      sizeWithExtension text (extension (k + 2)) ≤ maxSize ∧
        f.rename (slot (dirs ++ [base]) (k + 1)) (slot (dirs ++ [base]) (k + 2)) =
          .ok (moveOn text f (k + 1)) := by
  unfold moveOn Movable
  cases moved : moveTo text f (backup (Path.ofText text) (k + 1)) (k + 1 + 1) with
  | ok next =>
    have renamed := moveTo_eq_ok.mp moved
    rw [regular.parts] at renamed
    exact .inr renamed
  | error fault =>
    refine .inl ⟨rfl, fun movable => ?_⟩
    rw [regular.parts] at movable
    exact movable.resolve_right Bool.false_ne_true

/-- Nothing moves where the way to the files is blocked. -/
theorem moveOn_of_blocked (regular : Regular text dirs base) (blocked : ¬f.Opens [] dirs) (k : Nat) :
    moveOn text f (k + 1) = f := by
  have other : k + 1 ≠ k + 2 := (Nat.succ_ne_self _).symm
  rcases moveOn_cases regular f k with ⟨same, -⟩ | ⟨-, renamed⟩
  · exact same
  · exact absurd (shelf_of_rename regular other renamed).1 blocked

theorem moveAllOn_eq_self (same : ∀ k, moveOn text f (k + 1) = f) (n : Nat) :
    moveAllOn text n f = f := by
  induction n with
  | zero => rfl
  | succ n ih => rw [moveAllOn_succ, same, ih]

theorem opens_of_moveAllOn (regular : Regular text dirs base) {n : Nat}
    (opens : (moveAllOn text n f).Opens [] dirs) : f.Opens [] dirs := by
  by_contra blocked
  rw [moveAllOn_eq_self (moveOn_of_blocked regular blocked)] at opens
  exact blocked opens

theorem shelf_moveOn (regular : Regular text dirs base) {n : Nat} (movable : Movable text f (n + 1))
    (opens : (moveOn text f (n + 1)).Opens [] dirs) :
    shelf (moveOn text f (n + 1)) (dirs ++ [base]) = fun k =>
      if k = n + 2 then
        (shelf f (dirs ++ [base]) (n + 1)).or (shelf f (dirs ++ [base]) (n + 2))
      else if k = n + 1 then none else shelf f (dirs ++ [base]) k := by
  have other : n + 1 ≠ n + 2 := (Nat.succ_ne_self _).symm
  rcases moveOn_cases regular f n with ⟨same, absent⟩ | ⟨-, renamed⟩
  · have absent := absent movable
    funext k
    rw [same, absent, Option.none_or]
    split
    next same => rw [same]
    next =>
      split
      next same => rw [same, absent]
      next => rfl
  · obtain ⟨-, found, after⟩ := shelf_of_rename regular other renamed
    obtain ⟨node, there⟩ := Option.ne_none_iff_exists'.mp found
    rw [after opens, there]
    rfl

/-- When everything that is there can be moved, the files are shifted by one number. -/
theorem shelf_moveAllOn (regular : Regular text dirs base) {n : Nat} (moves : MovesAll text n f)
    (opens : (moveAllOn text n f).Opens [] dirs) :
    shelf (moveAllOn text n f) (dirs ++ [base]) = shifted n (shelf f (dirs ++ [base])) := by
  induction n generalizing f with
  | zero => exact (shifted_zero _).symm
  | succ n ih =>
    obtain ⟨movable, others⟩ := moves
    rw [moveAllOn_succ] at opens ⊢
    rw [ih others opens, shelf_moveOn regular movable (opens_of_moveAllOn regular opens), shifted_succ]

theorem writable_eq_ok {text : String} {place : Path} : f.writable text = .ok place ↔
    textFault? text = none ∧ namesDirectory text = false ∧ f.place? (Path.ofText text) = .ok place ∧
      f.node? place ≠ some .directory := by
  unfold writable place? namesDirectory
  cases textFault? text with
  | some fault => simp
  | none =>
  cases f.locate (Path.ofText text) with
  | error fault => simp
  | ok other =>
  by_cases long : other.getLast?.any (maxNameSize < ·.utf8ByteSize) = true
  · cases endsInDot text <;> cases endsInSlash text <;> simp [long]
  · rcases found : f.node? other with _ | ⟨content⟩ | _ <;> cases dot : endsInDot text <;>
      cases slash : endsInSlash text <;> simp [long, found] <;> grind

/-- The file of the journal is open, and new lines can be written to it. -/
structure Opened (j : Journal) (place : Path) : Prop where
  target : j.target = some place
  writable : j.files.writable j.settings.path = .ok place
  file : ∃ content, j.files.node? place = some (.file content)

/-- A path that can be written to ends in the name of a file. -/
theorem parts_of_writable {text : String} {place : Path} (writable : f.writable text = .ok place) :
    ∃ dirs base, Path.ofText text = dirs ++ [base] ∧ base ≠ ".." ∧ f.Opens [] dirs ∧
      base.utf8ByteSize ≤ maxNameSize ∧ place = onward [] dirs ++ [base] ∧ place.Listed := by
  obtain ⟨-, -, led, free⟩ := writable_eq_ok.mp writable
  have listed : place.Listed := by
    by_contra other
    exact free (node?_of_not_listed other)
  rcases List.eq_nil_or_concat' (Path.ofText text) with none | ⟨dirs, base, parts⟩
  · rw [none] at led
    cases led
    exact absurd rfl free
  · rw [parts] at led
    have named : base ≠ ".." := by
      rintro rfl
      exact free (node?_up led)
    obtain ⟨opens, fits, rfl⟩ := (place?_concat named).mp led
    exact ⟨dirs, base, parts, named, opens, fits, rfl, listed⟩

theorem place_of_writable {text : String} {place : Path} (writable : f.writable text = .ok place) :
    place = onward [] (Path.ofText text) := by
  obtain ⟨dirs, base, parts, named, -, -, rfl, -⟩ := parts_of_writable writable
  rw [parts, onward_concat, if_neg named]

/-- What is put in the open file's place changes nothing but the file. -/
theorem shelf_put (regular : Regular text dirs base) (opens : f.Opens [] dirs)
    (fits : base.utf8ByteSize ≤ maxNameSize)
    (free : f.node? (slotPlace dirs base 0) ≠ some .directory) (content : Bytes) :
    (f.put (slotPlace dirs base 0) content).Opens [] dirs ∧
      shelf (f.put (slotPlace dirs base 0) content) (dirs ++ [base]) =
        fun k => if k = 0 then some (.file content) else shelf f (dirs ++ [base]) k := by
  have still : (f.put (slotPlace dirs base 0) content).Opens [] dirs :=
    opens_of_directories (fun _ => directories_of_put free) opens
  refine ⟨still, funext fun k => Option.ext fun node => ?_⟩
  rw [shelf, at?_slot regular, node?_put]
  by_cases first : k = 0
  · subst first
    rw [if_pos ⟨listed_slotPlace regular 0, rfl⟩, if_pos rfl]
    exact ⟨fun told => told.2.2, fun told => ⟨still, fits, told⟩⟩
  · have apart : ¬((slotPlace dirs base k).Listed ∧
        (slotPlace dirs base 0).key = (slotPlace dirs base k).key) := by
      rintro ⟨-, same⟩
      exact ne_of_beside (isBelow_slotPlace (Ne.symm first) dirs base) same
    rw [if_neg apart, if_neg first, shelf, at?_slot regular]
    exact ⟨fun told => ⟨opens, told.2⟩, fun told => ⟨still, told.2⟩⟩

variable {j : Journal} {place : Path}

theorem writable_put {text : String} (writable : f.writable text = .ok place) (content : Bytes) :
    (f.put place content).writable text = .ok place := by
  obtain ⟨dirs, base, parts, named, opens, fits, rfl, listed⟩ := parts_of_writable writable
  obtain ⟨fault, names, -, free⟩ := writable_eq_ok.mp writable
  have still : (f.put (onward [] dirs ++ [base]) content).Opens [] dirs :=
    opens_of_directories (fun _ => directories_of_put free) opens
  refine writable_eq_ok.mpr ⟨fault, names, ?_, ?_⟩
  · rw [parts]
    exact (place?_concat named).mpr ⟨still, fits, rfl⟩
  · rw [node?_put, if_pos ⟨listed, rfl⟩]
    nofun

theorem opened_put (opened : Opened j place) (content : Bytes) :
    Opened { j with files := j.files.put place content } place := by
  obtain ⟨before, file⟩ := opened.file
  refine ⟨opened.target, writable_put opened.writable content, content, ?_⟩
  rw [node?_put, if_pos ⟨listed_of_node? file, rfl⟩]

theorem opened_openFile (opened : (openFile j).target = some place) :
    j.files.writable j.settings.path = .ok place ∧
      openFile j = { j with files := j.files.append place ByteArray.empty, target := some place } ∧
      Opened (openFile j) place := by
  cases writable : j.files.writable j.settings.path with
  | error fault =>
    rw [openFile, openForAppend, writable] at opened
    cases opened
  | ok other =>
    have same : openFile j =
        { j with files := j.files.append other ByteArray.empty, target := some other } := by
      rw [openFile, openForAppend, writable]
      rfl
    rw [same] at opened ⊢
    cases opened
    obtain ⟨-, -, -, -, -, -, -, listed⟩ := parts_of_writable writable
    have file := node?_put j.files place ((j.files.content? place).getD ByteArray.empty ++ ByteArray.empty)
      place
    rw [if_pos ⟨listed, rfl⟩] at file
    exact ⟨rfl, rfl, rfl, writable_put writable _, _, file⟩

/-- The open file is put aside once its size has reached the limit. -/
theorem isFull_eq {content : Bytes} (writable : j.files.writable j.settings.path = .ok place)
    (file : j.files.node? place = some (.file content)) :
    j.isFull = (j.settings.rotate && decide (j.settings.maxBytes ≤ content.size)) := by
  obtain ⟨fault, names, led, -⟩ := writable_eq_ok.mp writable
  have size : j.files.size? j.settings.path = some content.size := by
    rw [size?, fault, locate_of_place? led]
    dsimp only
    rw [file]
    dsimp only
    rw [names]
    rfl
  rw [isFull, size]

theorem write_of_open (e : Event) (target : j.rotateIfFull.target = some place) :
    j.write e = { j.rotateIfFull with files := j.rotateIfFull.files.append place e.journalLine } := by
  unfold Journal.write
  dsimp only
  rw [target]

theorem write_of_closed (e : Event) (target : j.rotateIfFull.target = none) :
    j.write e = j.rotateIfFull := by
  unfold Journal.write
  dsimp only
  rw [target]

theorem settings_openFile (j : Journal) : (openFile j).settings = j.settings := by
  unfold openFile
  split
  · rfl
  · rfl

theorem settings_write (j : Journal) (e : Event) : (j.write e).settings = j.settings := by
  have turned : j.rotateIfFull.settings = j.settings := by
    unfold rotateIfFull putAside
    split
    · dsimp only
      split
      · exact settings_openFile _
      · rfl
    · rfl
  cases target : j.rotateIfFull.target with
  | some place => rw [write_of_open e target, turned]
  | none => rw [write_of_closed e target, turned]

/-- Nothing fails when the file is put aside. -/
structure Turns (j : Journal) : Prop where
  moves : MovesAll j.settings.path j.settings.backups j.files
  opens : j.putAside.target.isSome = true

instance (j : Journal) : Decidable (Turns j) :=
  decidable_of_iff (MovesAll j.settings.path j.settings.backups j.files ∧ j.putAside.target.isSome = true)
    ⟨fun both => ⟨both.1, both.2⟩, fun turns => ⟨turns.moves, turns.opens⟩⟩

theorem moveFirst_eq_ok {settings : JournalSettings} : moveFirst settings f = .ok g ↔
    endsInDot settings.path = false ∧ sizeWithExtension settings.path (extension 1) ≤ maxSize ∧
      f.rename (Path.ofText settings.path) (backup (Path.ofText settings.path) 1) = .ok g := by
  unfold moveFirst
  cases endsInDot settings.path with
  | true => simp
  | false => simpa using moveTo_eq_ok

/-- The journal is open again only if its file could be moved. -/
private theorem renamed_of_open (opens : j.putAside.target.isSome = true) :
    ∃ moved, (moveAllOn j.settings.path j.settings.backups j.files).rename j.path (backup j.path 1) =
      .ok moved ∧ j.putAside = openFile { j with files := moved, target := none } := by
  unfold putAside at opens ⊢
  dsimp only at opens ⊢
  split
  next moved aside => exact ⟨moved, (moveFirst_eq_ok.mp aside).2.2, rfl⟩
  next fault aside =>
    rw [aside] at opens
    cases opens

/-- When nothing fails, the files are shifted by one number, the open one among them, and another one is
opened. -/
theorem putAside_of_turns (turns : Turns j) :
    Opened j.putAside (onward [] j.path) ∧ j.putAside.settings = j.settings ∧
      shelf j.putAside.files j.path = fun k =>
        if k = 0 then some (.file ByteArray.empty) else if k = 1 then shelf j.files j.path 0
        else shifted j.settings.backups (shelf j.files j.path) k := by
  obtain ⟨moved, aside, reopened⟩ := renamed_of_open turns.opens
  obtain ⟨place, target⟩ := Option.isSome_iff_exists.mp turns.opens
  rw [reopened] at target ⊢
  obtain ⟨writable, same, opened⟩ := opened_openFile target
  dsimp only at writable same
  have led := place_of_writable writable
  obtain ⟨dirs, base, parts, named, opens, fits, rfl, listed⟩ := parts_of_writable writable
  have path : j.path = dirs ++ [base] := parts
  have stemmed : stem base ≠ "." := by
    intro dot
    rw [path, backup_of_dot named dot] at aside
    exact not_renamed_up aside
  have regular : Regular j.settings.path dirs base := ⟨parts, named, stemmed, listed⟩
  refine ⟨led ▸ opened, by rw [same], ?_⟩
  rw [path] at aside ⊢
  obtain ⟨between, -, after⟩ := shelf_of_rename (i := 0) (k := 1) regular (by decide) aside
  have shifts := shelf_moveAllOn regular turns.moves between
  have free : moved.node? (slotPlace dirs base 0) = none := by
    refine Option.eq_none_iff_forall_ne_some.mpr fun node found => ?_
    have seen := (at?_slot regular 0 node).mpr ⟨opens, fits, found⟩
    have gone := congrFun (after opens) 0
    rw [shelf, seen] at gone
    cases gone
  have missing : moved.content? (onward [] dirs ++ [base]) = none := by
    rw [content?_eq]
    exact congrArg (Option.bind · FileNode.content?) free
  rw [same]
  dsimp only
  rw [append_of_missing missing]
  refine (shelf_put regular opens fits (by rw [free]; nofun) ByteArray.empty).2.trans ?_
  rw [after opens, shifts]
  funext k
  match k with
  | 0 | 1 | _ + 2 => rfl

end Proofs.JournalSlots
end PeerMesh
