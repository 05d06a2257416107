import PeerMesh.Files
import PeerMesh.Proofs.Tables

/-! The places that paths lead to, and what a move changes. A path leads to one place, as long as there
are directories on the way. A move puts what was at its source at its target, and all that lies below
neither of them stays as it was. -/

namespace PeerMesh

namespace Path

/-- Where the parts of a path lead to from a place, if nothing is in the way. -/
def onward : Path → List String → Path
  | here, [] => here
  | here, part :: rest =>
    if part = ".." then onward here.up rest else onward (here ++ [part]) rest

/-- A place that is there only if the files have it. -/
def Listed (place : Path) : Prop := (place.all (· = "..") || place = ["/"]) = false

instance (place : Path) : Decidable place.Listed := inferInstanceAs (Decidable (_ = _))

end Path

def FileNode.content? : FileNode → Option Bytes
  | .file content => some content
  | .directory => none

namespace Files

/-- The parts of a path all name directories, or go up. -/
def Opens (f : Files) : Path → List String → Prop
  | _, [] => True
  | here, part :: rest =>
    if part = ".." then f.Opens here.up rest
    else part.utf8ByteSize ≤ maxNameSize ∧ f.node? (here ++ [part]) = some .directory ∧
      f.Opens (here ++ [part]) rest

def at? (f : Files) (path : Path) : Option FileNode :=
  match f.place? path with
  | .ok place => f.node? place
  | .error _ => none

def fileAt? (f : Files) (path : Path) : Option Bytes := (f.at? path).bind FileNode.content?

/-- A place and all those above it are directories. -/
def Rooted (f : Files) (here : Path) : Prop := ∀ n, f.node? (here.take n) = some .directory

end Files

namespace Proofs.FilePlaces
open Files PeerMesh.Path

variable {f g : Files} {here there place : Path} {dirs : List String} {name : String}

theorem onward_concat (here : Path) (dirs : List String) (name : String) :
    onward here (dirs ++ [name]) =
      if name = ".." then (onward here dirs).up else onward here dirs ++ [name] := by
  induction dirs generalizing here with
  | nil => rfl
  | cons part dirs ih =>
    rw [List.cons_append, onward, onward]
    split
    · exact ih here.up
    · exact ih (here ++ [part])

theorem walk_concat : f.walk here (dirs ++ [name]) = .ok place ↔
    f.Opens here dirs ∧ place = onward here (dirs ++ [name]) := by
  induction dirs generalizing here with
  | nil =>
    unfold walk
    by_cases up : name = ".."
    · simp [up, walk, Opens, onward, eq_comm]
    · simp [up, Opens, onward, eq_comm]
  | cons part dirs ih =>
    rw [List.cons_append, walk, Opens, onward]
    by_cases up : part = ".."
    · simp only [up, if_true]
      exact ih
    · have goesOn : (dirs ++ [name]).isEmpty = false := by simp
      simp only [up, if_false, goesOn, Bool.false_eq_true]
      by_cases long : maxNameSize < part.utf8ByteSize
      · simp [long, Nat.not_le.mpr long]
      · simp only [long, if_false, Nat.not_lt.mp long, true_and]
        cases found : f.node? (here ++ [part]) with
        | none => simp
        | some node =>
          cases node with
          | file content => simp
          | directory => simpa using ih

theorem place?_concat (plain : name ≠ "..") : f.place? (dirs ++ [name]) = .ok place ↔
    f.Opens [] dirs ∧ name.utf8ByteSize ≤ maxNameSize ∧ place = onward [] dirs ++ [name] := by
  have led (place : Path) : f.walk [] (dirs ++ [name]) = .ok place ↔
      f.Opens [] dirs ∧ place = onward [] dirs ++ [name] := by
    rw [walk_concat, onward_concat, if_neg plain]
  unfold place? locate
  cases found : f.walk [] (dirs ++ [name]) with
  | error fault =>
    have shut : ¬f.Opens [] dirs := fun opens => by
      rw [(led _).mpr ⟨opens, rfl⟩] at found
      cases found
    simp [shut]
  | ok other =>
    obtain ⟨opens, rfl⟩ := (led _).mp found
    by_cases long : maxNameSize < name.utf8ByteSize
    · simp [long, Nat.not_le.mpr long]
    · simp [long, opens, Nat.not_lt.mp long, eq_comm]

theorem at?_concat (plain : name ≠ "..") (node : FileNode) :
    f.at? (dirs ++ [name]) = some node ↔ f.Opens [] dirs ∧ name.utf8ByteSize ≤ maxNameSize ∧
      f.node? (onward [] dirs ++ [name]) = some node := by
  have led (place : Path) : f.place? (dirs ++ [name]) = .ok place ↔ f.Opens [] dirs ∧
      name.utf8ByteSize ≤ maxNameSize ∧ place = onward [] dirs ++ [name] := place?_concat plain
  unfold at?
  cases found : f.place? (dirs ++ [name]) with
  | error fault =>
    have shut : ¬(f.Opens [] dirs ∧ name.utf8ByteSize ≤ maxNameSize) := fun ⟨opens, fits⟩ => by
      rw [(led _).mpr ⟨opens, fits, rfl⟩] at found
      cases found
    simp only [reduceCtorEq, false_iff]
    exact fun ⟨opens, fits, _⟩ => shut ⟨opens, fits⟩
  | ok other =>
    obtain ⟨opens, fits, rfl⟩ := (led _).mp found
    simp [opens, fits]

/-- Other files with the same directories can be reached in the same way. -/
theorem opens_of_directories
    (kept : ∀ place, f.node? place = some .directory → g.node? place = some .directory)
    (opens : f.Opens here dirs) : g.Opens here dirs := by
  induction dirs generalizing here with
  | nil => trivial
  | cons part dirs ih =>
    unfold Opens at opens ⊢
    by_cases up : part = ".."
    · rw [if_pos up] at opens ⊢
      exact ih opens
    · rw [if_neg up] at opens ⊢
      exact ⟨opens.1, kept _ opens.2.1, ih opens.2.2⟩

theorem rooted_nil (f : Files) : f.Rooted [] := by
  intro n
  rw [List.take_nil]
  rfl

private theorem rooted_up (rooted : f.Rooted here) : f.Rooted here.up := by
  unfold up
  split
  next above =>
    intro n
    have same : ((here ++ [".."]).take n).all (· = "..") = true := by
      rw [List.all_eq_true]
      intro part member
      rcases List.mem_append.mp (List.mem_of_mem_take member) with member | last
      · exact List.all_eq_true.mp above part member
      · exact decide_eq_true (List.mem_singleton.mp last)
    rw [node?, same, Bool.true_or]
    rfl
  next =>
    split
    · exact rooted
    · intro n
      rw [List.dropLast_eq_take, List.take_take]
      exact rooted _

theorem rooted_onward (rooted : f.Rooted here) (opens : f.Opens here dirs) :
    f.Rooted (onward here dirs) := by
  induction dirs generalizing here with
  | nil => exact rooted
  | cons part dirs ih =>
    unfold Opens at opens
    unfold onward
    by_cases up : part = ".."
    · rw [if_pos up] at opens ⊢
      exact ih (rooted_up rooted) opens
    · rw [if_neg up] at opens ⊢
      refine ih ?_ opens.2.2
      intro n
      rcases Nat.lt_or_ge n (here ++ [part]).length with inside | beyond
      · rw [List.length_append, List.length_singleton] at inside
        rw [List.take_append_of_le_length (Nat.le_of_lt_succ inside)]
        exact rooted n
      · rw [List.take_of_length_le beyond]
        exact opens.2.1

theorem locate_of_place? {path : Path} (led : f.place? path = .ok place) :
    f.locate path = .ok place := by
  unfold place? at led
  split at led
  next located =>
    split at led
    · cases led
    · cases led
      exact located
  next => cases led

/-- The way up leads to a directory. -/
theorem node?_up (led : f.place? (dirs ++ [".."]) = .ok place) : f.node? place = some .directory := by
  obtain ⟨opens, rfl⟩ := walk_concat.mp (locate_of_place? led)
  rw [onward_concat, if_pos rfl]
  have rooted := rooted_up (rooted_onward (rooted_nil f) opens)
  simpa using rooted (onward [] dirs).up.length

theorem node?_of_listed (listed : place.Listed) : f.node? place = f.nodes.get? place.key := by
  unfold Listed at listed
  rw [node?, listed]
  rfl

theorem node?_of_not_listed (other : ¬place.Listed) : f.node? place = some .directory := by
  unfold Listed at other
  rw [node?, Bool.not_eq_false _ |>.mp other]
  rfl

theorem listed_of_node? {content : Bytes} (found : f.node? place = some (.file content)) :
    place.Listed := by
  by_contra other
  rw [node?_of_not_listed other] at found
  cases found

theorem node?_put (f : Files) (there : Path) (content : Bytes) (place : Path) :
    (f.put there content).node? place =
      if place.Listed ∧ there.key = place.key then some (.file content) else f.node? place := by
  by_cases known : place.Listed
  · rw [node?_of_listed known, node?_of_listed known, put, Table.get?_insert]
    simp [known]
  · rw [node?_of_not_listed known, node?_of_not_listed known, if_neg fun both => known both.1]

/-- A file can be put where there is no directory, and leaves all directories where they are. -/
theorem directories_of_put {content : Bytes} (free : f.node? there ≠ some .directory)
    (directory : f.node? place = some .directory) :
    (f.put there content).node? place = some .directory := by
  rw [node?_put, if_neg]
  · exact directory
  · rintro ⟨known, same⟩
    have listed : there.Listed := by
      by_contra other
      exact free (node?_of_not_listed other)
    rw [node?_of_listed known, ← same, ← node?_of_listed listed] at directory
    exact free directory

theorem isBelow_iff {top path : String} :
    isBelow top path = true ↔ path = top ∨ ∃ rest, path = top ++ "/" ++ rest := by
  unfold isBelow
  rw [Bool.or_eq_true, decide_eq_true_iff, String.startsWith_string_iff]
  refine or_congr_right ⟨?_, ?_⟩
  · rintro ⟨rest, same⟩
    refine ⟨String.ofList rest, String.ext ?_⟩
    rw [String.toList_append, String.toList_ofList, same]
  · rintro ⟨rest, rfl⟩
    exact ⟨rest.toList, (String.toList_append ..).symm⟩

theorem isBelow_self (top : String) : isBelow top top = true := isBelow_iff.mpr (.inl rfl)

theorem ne_of_beside {top path : String} (beside : isBelow top path = false) : top ≠ path := by
  rintro rfl
  rw [isBelow_self] at beside
  cases beside

private theorem rebase_of_below {source target rest : String} {node : FileNode}
    (below : isBelow source (source ++ rest) = true) :
    rebase source target (source ++ rest, node) = (target ++ rest, node) := by
  unfold rebase
  rw [if_pos below]
  refine Prod.ext (String.ext ?_) rfl
  have left : (source.toList ++ rest.toList).drop source.length = rest.toList :=
    List.drop_left' source.length_toList
  simpa using left

theorem rename_cases {source target : Path} (moved : f.rename source target = .ok g) :
    ∃ here there, f.place? source = .ok here ∧ f.place? target = .ok there ∧
      source.isNamed = true ∧ target.isNamed = true ∧
      ((∃ content, f.node? here = some (.file content) ∧ f.node? there ≠ some .directory ∧
        g = (⟨f.nodes.erase here.key⟩ : Files).put there content) ∨
      f.node? here = some .directory ∧ (here = there ∧ g = f ∨
        isBelow here.key there.key = false ∧
        (f.node? there = none ∨ f.node? there = some .directory ∧ f.isBare there = true) ∧
        g = ⟨Table.ofList (f.nodes.entries.map (rebase here.key there.key))⟩)) := by
  unfold rename at moved
  cases from_ : f.place? source with
  | error fault =>
    rw [from_] at moved
    cases moved
  | ok here =>
  cases to_ : f.place? target with
  | error fault =>
    rw [from_, to_] at moved
    cases moved
  | ok there =>
  rw [from_, to_] at moved
  dsimp only at moved
  split at moved
  · cases moved
  next named =>
  rw [Bool.or_eq_true, not_or, Bool.not_eq_true', Bool.not_eq_false, Bool.not_eq_true',
    Bool.not_eq_false] at named
  refine ⟨here, there, rfl, rfl, named.1, named.2, ?_⟩
  split at moved
  · cases moved
  · cases moved
  · cases moved
  next content found free =>
    cases moved
    exact .inl ⟨content, found, free, rfl⟩
  next found free =>
    refine .inr ⟨found, ?_⟩
    split at moved
    next same =>
      cases moved
      exact .inl ⟨same, rfl⟩
    split at moved
    · cases moved
    next outside =>
    split at moved
    · cases moved
    next bare =>
      cases moved
      refine .inr ⟨eq_false_of_ne_true outside, ?_, rfl⟩
      rcases replaced : f.node? there with _ | ⟨content⟩ | _
      · exact .inl rfl
      · exact (free content replaced).elim
      · rw [replaced] at bare
        exact .inr ⟨rfl, by simpa using bare⟩

/-- Nothing can be moved over the way up. -/
theorem not_renamed_up {source : Path} (moved : f.rename source (dirs ++ [".."]) = .ok g) : False := by
  obtain ⟨-, -, -, -, -, named, -⟩ := rename_cases moved
  simp [isNamed] at named

private theorem node?_erase (f : Files) (here place : Path) :
    (⟨f.nodes.erase here.key⟩ : Files).node? place =
      if place.Listed ∧ here.key = place.key then none else f.node? place := by
  by_cases known : place.Listed
  · rw [node?_of_listed known, node?_of_listed known, Table.get?_erase]
    simp [known]
  · rw [node?_of_not_listed known, node?_of_not_listed known, if_neg fun both => known both.1]

/-- What a move does. The node at its source is at its target, and nothing is left at the source. All
that lies below neither of them is as it was. -/
structure Moves (f g : Files) (here there : Path) : Prop where
  arrives : g.node? there = f.node? here
  leaves : g.node? here = none
  keeps : ∀ place : Path, isBelow here.key place.key = false → isBelow there.key place.key = false →
    g.node? place = f.node? place

private theorem moves_file {content : Bytes} (found : f.node? here = some (.file content))
    (listed : there.Listed) (apart : isBelow there.key here.key = false) :
    Moves f ((⟨f.nodes.erase here.key⟩ : Files).put there content) here there := by
  refine ⟨?_, ?_, ?_⟩
  · rw [node?_put, if_pos ⟨listed, rfl⟩, found]
  · rw [node?_put, if_neg fun both => ne_of_beside apart both.2, node?_erase,
      if_pos ⟨listed_of_node? found, rfl⟩]
  · intro place besideHere besideThere
    rw [node?_put, if_neg fun both => ne_of_beside besideThere both.2, node?_erase,
      if_neg fun both => ne_of_beside besideHere both.2]

/-- An entry after the move of a directory is one from beside it, or lies below the target. -/
private theorem of_mem_rebased {source target key : String} {node : FileNode}
    {entries : List (String × FileNode)} (member : (key, node) ∈ entries.map (rebase source target)) :
    ((key, node) ∈ entries ∧ isBelow source key = false) ∨
      ∃ rest, (source ++ rest, node) ∈ entries ∧ key = target ++ rest ∧ isBelow target key = true := by
  obtain ⟨⟨before, node⟩, inside, same⟩ := List.mem_map.mp member
  by_cases below : isBelow source before = true
  · obtain ⟨rest, rfl, lower⟩ : ∃ rest, before = source ++ rest ∧ isBelow target (target ++ rest) := by
      rcases isBelow_iff.mp below with rfl | ⟨rest, rfl⟩
      · exact ⟨"", String.append_empty.symm, isBelow_iff.mpr (.inl String.append_empty)⟩
      · have lower : isBelow target (target ++ ("/" ++ rest)) = true :=
          isBelow_iff.mpr (.inr ⟨rest, String.append_assoc.symm⟩)
        exact ⟨"/" ++ rest, String.append_assoc, lower⟩
    rw [rebase_of_below below] at same
    cases same
    exact .inr ⟨rest, inside, rfl, lower⟩
  · rw [rebase, if_neg below] at same
    cases same
    exact .inl ⟨inside, eq_false_of_ne_true below⟩

private theorem get?_rebased_target {t : Table FileNode} {source target : String} {node : FileNode}
    (found : t.get? source = some node) (free : ∀ other, t.get? target = some other → other = node) :
    (Table.ofList (t.entries.map (rebase source target))).get? target = some node := by
  have moved : (target ++ "", node) ∈ t.entries.map (rebase source target) := by
    refine List.mem_map.mpr ⟨(source ++ "", node), ?_, ?_⟩
    · rw [String.append_empty]
      exact Table.mem_entries.mpr found
    · refine rebase_of_below ?_
      rw [String.append_empty]
      exact isBelow_self _
  rw [String.append_empty] at moved
  obtain ⟨other, told⟩ := Table.get?_ofList_of_mem moved
  rcases of_mem_rebased (Table.mem_of_get?_ofList told) with ⟨inside, -⟩ | ⟨rest, inside, same, -⟩
  · rw [told, free _ (Table.mem_entries.mp inside)]
  · obtain rfl : rest = "" := String.append_right_inj _ |>.mp (same.symm.trans String.append_empty.symm)
    rw [String.append_empty, Table.mem_entries, found] at inside
    cases inside
    exact told

private theorem get?_rebased_source {t : Table FileNode} {source target : String}
    (apart : isBelow target source = false) :
    (Table.ofList (t.entries.map (rebase source target))).get? source = none := by
  refine Option.eq_none_iff_forall_ne_some.mpr fun node told => ?_
  rcases of_mem_rebased (Table.mem_of_get?_ofList told) with ⟨-, beside⟩ | ⟨-, -, -, below⟩
  · exact ne_of_beside beside rfl
  · rw [apart] at below
    cases below

private theorem get?_rebased_beside {t : Table FileNode} {source target key : String}
    (besideSource : isBelow source key = false) (besideTarget : isBelow target key = false) :
    (Table.ofList (t.entries.map (rebase source target))).get? key = t.get? key := by
  have stays : ∀ {node}, (key, node) ∈ t.entries →
      (key, node) ∈ t.entries.map (rebase source target) := by
    intro node inside
    refine List.mem_map.mpr ⟨_, inside, ?_⟩
    rw [rebase, besideSource]
    rfl
  cases told : (Table.ofList (t.entries.map (rebase source target))).get? key with
  | some node =>
    rcases of_mem_rebased (Table.mem_of_get?_ofList told) with ⟨inside, -⟩ | ⟨-, -, -, below⟩
    · exact (Table.mem_entries.mp inside).symm
    · rw [besideTarget] at below
      cases below
  | none =>
    refine (Option.eq_none_iff_forall_ne_some.mpr fun node before => ?_).symm
    obtain ⟨after, found⟩ := Table.get?_ofList_of_mem (stays (Table.mem_entries.mpr before))
    rw [told] at found
    cases found

private theorem moves_directory (listedHere : here.Listed) (listedThere : there.Listed)
    (found : f.node? here = some .directory)
    (free : f.node? there = none ∨ f.node? there = some .directory)
    (apart : isBelow there.key here.key = false) :
    Moves f ⟨Table.ofList (f.nodes.entries.map (rebase here.key there.key))⟩ here there := by
  refine ⟨?_, ?_, ?_⟩
  · rw [node?_of_listed listedThere, found]
    rw [node?_of_listed listedHere] at found
    rw [node?_of_listed listedThere] at free
    refine get?_rebased_target found fun other there => ?_
    rcases free with none | directory
    · cases none.symm.trans there
    · exact Option.some.inj (there.symm.trans directory)
  · rw [node?_of_listed listedHere]
    exact get?_rebased_source apart
  · intro place besideHere besideThere
    by_cases known : place.Listed
    · rw [node?_of_listed known, node?_of_listed known]
      exact get?_rebased_beside besideHere besideThere
    · rw [node?_of_not_listed known, node?_of_not_listed known]

theorem moves_of_rename {source target : Path} (moved : f.rename source target = .ok g)
    (from_ : f.place? source = .ok here) (to_ : f.place? target = .ok there) (listedHere : here.Listed)
    (listedThere : there.Listed) (apart : isBelow there.key here.key = false) :
    Moves f g here there ∧ f.node? here ≠ none := by
  obtain ⟨_, _, sameHere, sameThere, -, -, kind⟩ := rename_cases moved
  cases sameHere.symm.trans from_
  cases sameThere.symm.trans to_
  rcases kind with ⟨content, found, -, rfl⟩ | ⟨found, ⟨rfl, -⟩ | ⟨-, free, rfl⟩⟩
  · exact ⟨moves_file found listedThere apart, by rw [found]; nofun⟩
  · rw [isBelow_self] at apart
    cases apart
  · exact ⟨moves_directory listedHere listedThere found (free.imp_right And.left) apart,
      by rw [found]; nofun⟩

/-- The move of a file leaves all directories where they are. -/
theorem directories_of_rename {source target : Path} {content : Bytes}
    (moved : f.rename source target = .ok g) (file : f.at? source = some (.file content))
    (directory : f.node? place = some .directory) : g.node? place = some .directory := by
  obtain ⟨here, there, from_, to_, -, -, kind⟩ := rename_cases moved
  have file : f.node? here = some (.file content) := by
    rw [at?, from_] at file
    exact file
  rcases kind with ⟨_, -, free, rfl⟩ | ⟨found, -⟩
  · have erased : ∀ {place}, f.node? place = some .directory →
        (⟨f.nodes.erase here.key⟩ : Files).node? place = some .directory := by
      intro place directory
      rw [node?_erase, if_neg]
      · exact directory
      · rintro ⟨known, same⟩
        rw [node?_of_listed known, ← same, ← node?_of_listed (listed_of_node? file), file] at directory
        cases directory
    refine directories_of_put (fun blocked => ?_) (erased directory)
    rw [node?_erase] at blocked
    split at blocked
    · cases blocked
    · exact free blocked
  · rw [found] at file
    cases file

theorem content?_eq (f : Files) (place : Path) :
    f.content? place = (f.node? place).bind FileNode.content? := by
  unfold content?
  rcases f.node? place with _ | ⟨content⟩ | _
  · rfl
  · rfl
  · rfl

theorem append_of_missing (missing : f.content? place = none) (content : Bytes) :
    f.append place content = f.put place content := by
  rw [append, missing, Option.getD_none, ByteArray.empty_append]

theorem fileAt?_of_place? {path : Path} (led : f.place? path = .ok place) :
    f.fileAt? path = f.content? place := by
  rw [fileAt?, at?, led, content?_eq]

theorem content?_of_fileAt? {path : Path} {content : Bytes} (found : f.fileAt? path = some content) :
    f.content? (onward [] path) = some content := by
  cases led : f.place? path with
  | error fault =>
    rw [fileAt?, at?, led] at found
    cases found
  | ok place =>
    rw [fileAt?_of_place? led] at found
    have same : place = onward [] path := by
      rcases List.eq_nil_or_concat' path with rfl | ⟨dirs, base, rfl⟩
      · cases led
        rfl
      · exact (walk_concat.mp (locate_of_place? led)).2
    rwa [← same]

/-- The directories that are made take no file's place. -/
theorem content?_makeFrom (f : Files) (here : Path) (parts : List String) (place : Path) :
    (f.makeFrom here parts).1.content? place = f.content? place := by
  induction parts generalizing f here with
  | nil => rfl
  | cons part rest ih =>
    rw [makeFrom]
    split
    · exact ih f here.up
    split
    · rfl
    dsimp only
    split
    · exact ih f (here ++ [part])
    · rfl
    next free =>
      rw [ih, content?_eq, content?_eq]
      by_cases known : place.Listed
      · rw [node?_of_listed known, node?_of_listed known, Table.get?_insert]
        split
        next same =>
          have listed : (here ++ [part]).Listed := by
            by_contra other
            rw [node?_of_not_listed other] at free
            cases free
          rw [← same, ← node?_of_listed listed, free]
          rfl
        next => rfl
      · rw [node?_of_not_listed known, node?_of_not_listed known]

end Proofs.FilePlaces
end PeerMesh
