import Mathlib.Data.List.DropRight
import PeerMesh.Proofs.JsonTokens

/-! JSON text is read back as the value it was written for. What spaces stand between the tokens of a
text does not matter to a reader, which passes over them; its fuel is bounded by the length of the
text. -/

namespace PeerMesh.Proofs.JsonText
open Json Json.Document JsonTokens

/-- The spaces between the tokens of a text: before an item or a closing bracket at a depth, and
after a colon. -/
structure Layout where
  line : Nat → List Char
  colon : List Char
  line_space : ∀ depth, ∀ c ∈ line depth, isSpace c = true
  colon_space : ∀ c ∈ colon, isSpace c = true

mutual

def chars (l : Layout) (depth : Nat) : Json → List Char
  | .null => "null".toList
  | .bool b => if b then "true".toList else "false".toList
  | .number n => n.text.toList
  | .string s => quotedChars s
  | .array items =>
    if items.isEmpty then ['[', ']']
    else '[' :: (itemChars l (depth + 1) items ++ l.line depth ++ [']'])
  | .object members =>
    if members.isEmpty then ['\x7b', '\x7d']
    else '\x7b' :: (memberChars l (depth + 1) members ++ l.line depth ++ ['\x7d'])

def itemChars (l : Layout) (depth : Nat) : List Json → List Char
  | [] => []
  | item :: rest =>
    l.line depth ++ chars l depth item ++
      if rest.isEmpty then [] else ',' :: itemChars l depth rest

def memberChars (l : Layout) (depth : Nat) : List (String × Json) → List Char
  | [] => []
  | (key, value) :: rest =>
    l.line depth ++ quotedChars key ++ ':' :: (l.colon ++ chars l depth value) ++
      if rest.isEmpty then [] else ',' :: memberChars l depth rest

end

def prettyLayout : Layout where
  line depth := '\n' :: List.replicate (2 * depth) ' '
  colon := [' ']
  line_space depth c member := by
    rcases List.mem_cons.mp member with rfl | space
    · rfl
    · rw [List.eq_of_mem_replicate space]
      rfl
  colon_space c member := by
    rw [List.mem_singleton.mp member]
    rfl

private theorem toList_lineBreak (depth : Nat) :
    (lineBreak depth).toList = prettyLayout.line depth := by
  simp [lineBreak, prettyLayout]

private theorem toList_block (depth : Nat) (opening closing : String) {parts : List String}
    (nonempty : parts ≠ []) :
    (block depth opening closing parts).toList =
      opening.toList ++ ((prettyLayout.line (depth + 1) ++
        (("," ++ lineBreak (depth + 1)).intercalate parts).toList) ++ prettyLayout.line depth) ++
        closing.toList := by
  simp [block, nonempty, toList_lineBreak]

mutual

theorem toList_prettyAt (depth : Nat) : ∀ json : Json,
    (prettyAt depth json).toList = chars prettyLayout depth json
  | .null => rfl
  | .bool b => by cases b <;> rfl
  | .number n => rfl
  | .string s => by rw [prettyAt, chars, quoted, String.toList_ofList]
  | .array [] => by simp [prettyAt, prettyItems, block, chars]
  | .array (item :: items) => by
    rw [prettyAt, toList_block depth "[" "]" (by simp [prettyItems]),
      toList_prettyItems (depth + 1) (item :: items) (by simp)]
    simp [chars]
  | .object [] => by simp [prettyAt, prettyMembers, block, chars]
  | .object (member :: members) => by
    rw [prettyAt, toList_block depth "\x7b" "\x7d" (by simp [prettyMembers]),
      toList_prettyMembers (depth + 1) (member :: members) (by simp)]
    simp [chars]

theorem toList_prettyItems (depth : Nat) : ∀ items : List Json, items ≠ [] →
    prettyLayout.line depth ++
        (("," ++ lineBreak depth).intercalate (prettyItems depth items)).toList =
      itemChars prettyLayout depth items
  | [], nonempty => absurd rfl nonempty
  | [item], _ => by
    simp [prettyItems, itemChars, toList_prettyAt depth item]
  | item :: next :: items, _ => by
    have rest := toList_prettyItems depth (next :: items) (by simp)
    rw [itemChars, ← rest, prettyItems, prettyItems, String.intercalate_cons_cons]
    simp [toList_prettyAt depth item, toList_lineBreak]

theorem toList_prettyMembers (depth : Nat) : ∀ members : List (String × Json), members ≠ [] →
    prettyLayout.line depth ++
        (("," ++ lineBreak depth).intercalate (prettyMembers depth members)).toList =
      memberChars prettyLayout depth members
  | [], nonempty => absurd rfl nonempty
  | [(key, value)], _ => by
    simp [prettyMembers, memberChars, toList_prettyAt depth value, quoted, prettyLayout]
  | (key, value) :: next :: members, _ => by
    have rest := toList_prettyMembers depth (next :: members) (by simp)
    rw [memberChars, ← rest, prettyMembers, prettyMembers, String.intercalate_cons_cons]
    simp [toList_prettyAt depth value, toList_lineBreak, quoted, prettyLayout]

end

def compactLayout : Layout where
  line _ := []
  colon := []
  line_space _ _ member := by cases member
  colon_space _ member := by cases member

mutual

theorem toList_compact (depth : Nat) : ∀ json : Json,
    json.compact.toList = chars compactLayout depth json
  | .null => rfl
  | .bool b => by cases b <;> rfl
  | .number n => rfl
  | .string s => by rw [compact, chars, quoted, String.toList_ofList]
  | .array [] => by simp [compact, compactItems, chars]
  | .array (item :: items) => by
    have parts := toList_compactItems (depth + 1) (item :: items)
    rw [compact, String.toList_append, String.toList_append, parts]
    simp [chars, compactLayout]
  | .object [] => by simp [compact, compactMembers, chars]
  | .object (member :: members) => by
    have parts := toList_compactMembers (depth + 1) (member :: members)
    rw [compact, String.toList_append, String.toList_append, parts]
    simp [chars, compactLayout]

theorem toList_compactItems (depth : Nat) : ∀ items : List Json,
    (",".intercalate (compactItems items)).toList = itemChars compactLayout depth items
  | [] => rfl
  | [item] => by simp [compactItems, itemChars, compactLayout, toList_compact depth item]
  | item :: next :: items => by
    have rest := toList_compactItems depth (next :: items)
    rw [itemChars, ← rest, compactItems, compactItems, String.intercalate_cons_cons]
    simp [toList_compact depth item, compactLayout]

theorem toList_compactMembers (depth : Nat) : ∀ members : List (String × Json),
    (",".intercalate (compactMembers members)).toList = memberChars compactLayout depth members
  | [] => rfl
  | [(key, value)] => by
    simp [compactMembers, memberChars, compactLayout, quoted, toList_compact depth value]
  | (key, value) :: next :: members => by
    have rest := toList_compactMembers depth (next :: members)
    rw [memberChars, ← rest, compactMembers, compactMembers, String.intercalate_cons_cons]
    simp [toList_compact depth value, compactLayout, quoted]

end

mutual

/-- Without spaces there are no control characters either. -/
theorem chars_printable (depth : Nat) : ∀ json : Json,
    ∀ c ∈ chars compactLayout depth json, printable c = true
  | .null => List.all_eq_true.mp rfl
  | .bool true => List.all_eq_true.mp rfl
  | .bool false => List.all_eq_true.mp rfl
  | .number n => number_printable n
  | .string s => quotedChars_printable s
  | .array items => by
    have written := itemChars_printable (depth + 1) items
    rw [chars]
    split
    · exact List.all_eq_true.mp rfl
    · rw [List.forall_mem_cons, List.forall_mem_append, List.forall_mem_append]
      exact ⟨rfl, ⟨written, List.all_eq_true.mp rfl⟩, List.all_eq_true.mp rfl⟩
  | .object members => by
    have written := memberChars_printable (depth + 1) members
    rw [chars]
    split
    · exact List.all_eq_true.mp rfl
    · rw [List.forall_mem_cons, List.forall_mem_append, List.forall_mem_append]
      exact ⟨rfl, ⟨written, List.all_eq_true.mp rfl⟩, List.all_eq_true.mp rfl⟩

theorem itemChars_printable (depth : Nat) : ∀ items : List Json,
    ∀ c ∈ itemChars compactLayout depth items, printable c = true
  | [] => by simp [itemChars]
  | item :: rest => by
    have first := chars_printable depth item
    have others := itemChars_printable depth rest
    rw [itemChars, List.forall_mem_append]
    refine ⟨first, ?_⟩
    split
    · simp
    · exact List.forall_mem_cons.mpr ⟨rfl, others⟩

theorem memberChars_printable (depth : Nat) : ∀ members : List (String × Json),
    ∀ c ∈ memberChars compactLayout depth members, printable c = true
  | [] => by simp [memberChars]
  | (key, value) :: rest => by
    have first := chars_printable depth value
    have others := memberChars_printable depth rest
    rw [memberChars, List.forall_mem_append, List.forall_mem_append, List.forall_mem_cons]
    refine ⟨⟨quotedChars_printable key, rfl, first⟩, ?_⟩
    split
    · simp
    · exact List.forall_mem_cons.mpr ⟨rfl, others⟩

end

/-- Compact text stands on one line. -/
theorem newline_not_mem_compact (json : Json) : '\n' ∉ json.compact.toList := by
  intro member
  rw [toList_compact 0] at member
  cases chars_printable 0 json _ member

mutual

def AllReadable : Json → Prop
  | .null | .bool _ | .string _ => True
  | .number n => Readable n
  | .array items => AllReadableItems items
  | .object members => AllReadableMembers members

def AllReadableItems : List Json → Prop
  | [] => True
  | item :: rest => AllReadable item ∧ AllReadableItems rest

def AllReadableMembers : List (String × Json) → Prop
  | [] => True
  | (_, value) :: rest => AllReadable value ∧ AllReadableMembers rest

end

mutual

def document : Json → Document
  | .null => .null
  | .bool b => .bool b
  | .number n => .number (some n)
  | .string s => .string (some s)
  | .array items => .array (documentItems items)
  | .object members => .object (documentMembers members)

def documentItems : List Json → List Document
  | [] => []
  | item :: rest => document item :: documentItems rest

def documentMembers : List (String × Json) → List (Option String × Document)
  | [] => []
  | (key, value) :: rest => (some key, document value) :: documentMembers rest

end

theorem allReadableItems_iff {items : List Json} :
    AllReadableItems items ↔ ∀ item ∈ items, AllReadable item := by
  induction items with
  | nil => simp [AllReadableItems]
  | cons item items ih => simp [AllReadableItems, ih]

theorem documentItems_eq (items : List Json) : documentItems items = items.map document := by
  induction items with
  | nil => rfl
  | cons item items ih => rw [documentItems, List.map_cons, ih]

/-- A list of records is read record by record. -/
theorem list?_document {α β : Type} {write : α → Json} {read : Document → Option β} {kept : α → β}
    (items : List α) (reads : ∀ item ∈ items, read (document (write item)) = some (kept item)) :
    Document.list? read (document (.array (items.map write))) = some (items.map kept) := by
  rw [document, documentItems_eq, List.map_map, Document.list?]
  induction items with
  | nil => rfl
  | cons item items ih =>
    have first := reads item List.mem_cons_self
    have others := ih fun other member => reads other (List.mem_cons_of_mem _ member)
    rw [List.map_cons, List.mapM_cons, Function.comp_apply, first, others]
    rfl

theorem skipSpace_append {gap : List Char} (space : ∀ c ∈ gap, isSpace c = true) (cs : List Char) :
    skipSpace (gap ++ cs) = skipSpace cs :=
  List.dropWhile_append_of_pos space

theorem skipSpace_cons {c : Char} (plain : isSpace c = false) (cs : List Char) :
    skipSpace (c :: cs) = c :: cs := by
  rw [skipSpace, List.dropWhile_cons, plain]
  rfl

theorem readValue_skip (fuel : Nat) (cs : List Char) :
    readValue fuel (skipSpace cs) = readValue fuel cs := by
  cases fuel with
  | zero => rw [readValue, readValue]
  | succ fuel => rw [readValue, readValue, skipSpace, skipSpace, List.dropWhile_idempotent]

theorem readItems_skip (fuel : Nat) (cs : List Char) :
    readItems fuel (skipSpace cs) = readItems fuel cs := by
  cases fuel with
  | zero => rw [readItems, readItems]
  | succ fuel => rw [readItems, readItems, readValue_skip]

theorem readMembers_skip (fuel : Nat) (cs : List Char) :
    readMembers fuel (skipSpace cs) = readMembers fuel cs := by
  cases fuel with
  | zero => rw [readMembers, readMembers]
  | succ fuel => rw [readMembers, readMembers, skipSpace, skipSpace, List.dropWhile_idempotent]

/-- No text of a value starts with a space or with a bracket that closes. -/
theorem head_chars (l : Layout) (depth : Nat) {json : Json} (readable : AllReadable json) :
    ∃ c cs, chars l depth json = c :: cs ∧ isSpace c = false ∧ c ≠ ']' := by
  cases json with
  | null => exact ⟨'n', _, rfl, rfl, by decide⟩
  | bool b =>
    cases b with
    | true => exact ⟨'t', _, rfl, rfl, by decide⟩
    | false => exact ⟨'f', _, rfl, rfl, by decide⟩
  | number n => exact head_of_readable readable
  | string s => exact ⟨'"', _, rfl, rfl, by decide⟩
  | array items =>
    rw [chars]
    split
    · exact ⟨'[', _, rfl, rfl, by decide⟩
    · exact ⟨'[', _, rfl, rfl, by decide⟩
  | object members =>
    rw [chars]
    split
    · exact ⟨'\x7b', _, rfl, rfl, by decide⟩
    · exact ⟨'\x7b', _, rfl, rfl, by decide⟩

theorem length_chars_pos (l : Layout) (depth : Nat) {json : Json} (readable : AllReadable json) :
    0 < (chars l depth json).length := by
  obtain ⟨c, cs, same, -⟩ := head_chars l depth readable
  rw [same]
  exact Nat.succ_pos _

/-- A character that may come after a value. -/
def closing (c : Char) : Bool := c == ',' || c == ']' || c == '\x7d'

theorem ends_closing {c : Char} (closes : closing c = true) (rest : List Char) : Ends (c :: rest) := by
  intro first same
  cases same
  simp only [closing, Bool.or_eq_true, beq_iff_eq] at closes
  rcases closes with (rfl | rfl) | rfl <;> decide

theorem ends_gap {gap : List Char} (space : ∀ c ∈ gap, isSpace c = true) {c : Char}
    (closes : closing c = true) (rest : List Char) : Ends (gap ++ c :: rest) := by
  cases gap with
  | nil => exact ends_closing closes rest
  | cons first gap =>
    intro other same
    cases same
    have blank := space first List.mem_cons_self
    simp only [isSpace, Bool.or_eq_true, decide_eq_true_eq] at blank
    rcases blank with ((rfl | rfl) | rfl) | rfl <;> decide

private theorem readValue_array (fuel : Nat) {cs : List Char}
    (filled : ∀ rest, skipSpace cs ≠ ']' :: rest) :
    readValue (fuel + 1) ('[' :: cs) =
      (readItems fuel cs).map fun (items, rest) => (.array items, rest) := by
  rw [readValue]
  simp only [skipSpace_cons (show isSpace '[' = false from rfl)]
  rw [readItems_skip]

private theorem readValue_object (fuel : Nat) {cs : List Char}
    (filled : ∀ rest, skipSpace cs ≠ '\x7d' :: rest) :
    readValue (fuel + 1) ('\x7b' :: cs) =
      (readMembers fuel cs).map fun (members, rest) => (.object members, rest) := by
  rw [readValue]
  simp only [skipSpace_cons (show isSpace '\x7b' = false from rfl)]
  rw [readMembers_skip]

private theorem readItems_last {fuel : Nat} {cs gap rest : List Char} {item : Document}
    (space : ∀ c ∈ gap, isSpace c = true)
    (read : readValue fuel cs = some (item, gap ++ ']' :: rest)) :
    readItems (fuel + 1) cs = some ([item], rest) := by
  rw [readItems, read]
  simp only [skipSpace_append space, skipSpace_cons (show isSpace ']' = false from rfl)]

private theorem readItems_next {fuel : Nat} {cs rest : List Char} {item : Document}
    (read : readValue fuel cs = some (item, ',' :: rest)) :
    readItems (fuel + 1) cs =
      (readItems fuel rest).map fun (items, rest) => (item :: items, rest) := by
  rw [readItems, read]
  simp only [skipSpace_cons (show isSpace ',' = false from rfl)]

/-- What is read after a member: the end of the object or another member. -/
private def furtherMembers (fuel : Nat) (key : String) (value : Document) (rest : List Char) :
    Option (List (Option String × Document) × List Char) :=
  match skipSpace rest with
  | '\x7d' :: rest => some ([(some key, value)], rest)
  | ',' :: rest =>
    (readMembers fuel rest).map fun (members, rest) => ((some key, value) :: members, rest)
  | _ => none

private theorem readMembers_key {fuel : Nat} {before after cs rest : List Char} {value : Document}
    (beforeSpace : ∀ c ∈ before, isSpace c = true) (afterSpace : ∀ c ∈ after, isSpace c = true)
    (key : String) (read : readValue fuel cs = some (value, rest)) :
    readMembers (fuel + 1) (before ++ (quotedChars key ++ ':' :: (after ++ cs))) =
      furtherMembers fuel key value rest := by
  have skipped : readValue fuel (after ++ cs) = some (value, rest) := by
    rw [← readValue_skip, skipSpace_append afterSpace, readValue_skip, read]
  rw [readMembers, skipSpace_append beforeSpace, quotedChars, List.cons_append,
    skipSpace_cons rfl, List.append_assoc, List.singleton_append]
  simp only [readString_quoted, skipSpace_cons (show isSpace ':' = false from rfl), skipped]
  rfl

mutual

theorem readValue_chars (l : Layout) : ∀ (json : Json) (depth fuel : Nat) (rest : List Char),
    AllReadable json → Ends rest → 2 * (chars l depth json).length ≤ fuel →
    readValue fuel (chars l depth json ++ rest) = some (document json, rest)
  | .null, depth, fuel + 1, rest, _, _, _ => rfl
  | .bool true, depth, fuel + 1, rest, _, _, _ => rfl
  | .bool false, depth, fuel + 1, rest, _, _, _ => rfl
  | .number n, depth, fuel + 1, rest, readable, ends, _ => readValue_number readable fuel ends
  | .string s, depth, fuel + 1, rest, _, _, _ => readValue_string s fuel rest
  | .array [], depth, fuel + 1, rest, _, _, _ => rfl
  | .array (item :: items), depth, fuel + 1, rest, readable, _, enough => by
    have shape : chars l depth (.array (item :: items)) =
        '[' :: (itemChars l (depth + 1) (item :: items) ++ l.line depth ++ [']']) := rfl
    rw [shape] at enough ⊢
    simp only [List.length_cons, List.length_append, List.length_nil] at enough
    have read := readItems_chars l (item :: items) (depth + 1) fuel (l.line depth) rest (by simp)
      readable (l.line_space depth) (by omega)
    rw [List.cons_append, List.append_assoc, List.append_assoc, List.singleton_append,
      readValue_array fuel, read]
    · rfl
    · obtain ⟨c, cs, first, plain, different⟩ := head_chars l (depth + 1) readable.1
      intro rest same
      rw [itemChars, first, List.append_assoc, List.append_assoc,
        skipSpace_append (l.line_space _), List.cons_append, skipSpace_cons plain] at same
      exact different (List.cons.inj same).1
  | .object [], depth, fuel + 1, rest, _, _, _ => rfl
  | .object (member :: members), depth, fuel + 1, rest, readable, _, enough => by
    have shape : chars l depth (.object (member :: members)) =
        '\x7b' :: (memberChars l (depth + 1) (member :: members) ++ l.line depth ++ ['\x7d']) := rfl
    rw [shape] at enough ⊢
    simp only [List.length_cons, List.length_append, List.length_nil] at enough
    have read := readMembers_chars l (member :: members) (depth + 1) fuel (l.line depth) rest
      (by simp) readable (l.line_space depth) (by omega)
    rw [List.cons_append, List.append_assoc, List.append_assoc, List.singleton_append,
      readValue_object fuel, read]
    · rfl
    · intro rest same
      obtain ⟨key, value⟩ := member
      rw [memberChars, List.append_assoc, List.append_assoc, List.append_assoc,
        skipSpace_append (l.line_space _), quotedChars, List.cons_append, skipSpace_cons rfl] at same
      cases same
  | json, depth, 0, rest, readable, _, enough => by
    have some := length_chars_pos l depth readable
    omega

theorem readItems_chars (l : Layout) : ∀ (items : List Json) (depth fuel : Nat)
    (gap rest : List Char), items ≠ [] → AllReadableItems items → (∀ c ∈ gap, isSpace c = true) →
    2 * (itemChars l depth items).length + 1 ≤ fuel →
    readItems fuel (itemChars l depth items ++ (gap ++ ']' :: rest)) =
      some (documentItems items, rest)
  | [], _, _, _, _, nonempty, _, _, _ => absurd rfl nonempty
  | _ :: _, _, 0, _, _, _, _, _, enough => absurd enough (by omega)
  | [item], depth, fuel + 1, gap, rest, _, readable, space, enough => by
    have shape : itemChars l depth [item] = l.line depth ++ chars l depth item :=
      List.append_nil _
    rw [shape] at enough ⊢
    simp only [List.length_append] at enough
    have read := readValue_chars l item depth fuel (gap ++ ']' :: rest) readable.1
      (ends_gap space rfl rest) (by omega)
    rw [← readItems_skip, List.append_assoc, skipSpace_append (l.line_space depth), readItems_skip,
      readItems_last space read]
    rfl
  | item :: next :: items, depth, fuel + 1, gap, rest, _, readable, space, enough => by
    have shape : itemChars l depth (item :: next :: items) =
        l.line depth ++ chars l depth item ++ ',' :: itemChars l depth (next :: items) := rfl
    rw [shape] at enough ⊢
    simp only [List.length_append, List.length_cons] at enough
    have read := readValue_chars l item depth fuel
      (',' :: (itemChars l depth (next :: items) ++ (gap ++ ']' :: rest))) readable.1
      (ends_closing rfl _) (by omega)
    have others := readItems_chars l (next :: items) depth fuel gap rest (by simp) readable.2 space
      (by omega)
    rw [← readItems_skip, List.append_assoc, List.append_assoc, skipSpace_append (l.line_space depth),
      readItems_skip, List.cons_append, readItems_next read, others]
    rfl

theorem readMembers_chars (l : Layout) : ∀ (members : List (String × Json)) (depth fuel : Nat)
    (gap rest : List Char), members ≠ [] → AllReadableMembers members →
    (∀ c ∈ gap, isSpace c = true) → 2 * (memberChars l depth members).length + 1 ≤ fuel →
    readMembers fuel (memberChars l depth members ++ (gap ++ '\x7d' :: rest)) =
      some (documentMembers members, rest)
  | [], _, _, _, _, nonempty, _, _, _ => absurd rfl nonempty
  | _ :: _, _, 0, _, _, _, _, _, enough => absurd enough (by omega)
  | [(key, value)], depth, fuel + 1, gap, rest, _, readable, space, enough => by
    have shape : memberChars l depth [(key, value)] =
        l.line depth ++ quotedChars key ++ ':' :: (l.colon ++ chars l depth value) :=
      List.append_nil _
    rw [shape] at enough ⊢
    simp only [List.length_append, List.length_cons] at enough
    have read := readValue_chars l value depth fuel (gap ++ '\x7d' :: rest) readable.1
      (ends_gap space rfl rest) (by omega)
    rw [List.append_assoc, List.append_assoc, List.cons_append, List.append_assoc,
      readMembers_key (l.line_space depth) l.colon_space key read, furtherMembers,
      skipSpace_append space, skipSpace_cons rfl]
    rfl
  | (key, value) :: next :: members, depth, fuel + 1, gap, rest, _, readable, space, enough => by
    have shape : memberChars l depth ((key, value) :: next :: members) =
        l.line depth ++ quotedChars key ++ ':' :: (l.colon ++ chars l depth value) ++
          ',' :: memberChars l depth (next :: members) := rfl
    rw [shape] at enough ⊢
    simp only [List.length_append, List.length_cons] at enough
    have read := readValue_chars l value depth fuel
      (',' :: (memberChars l depth (next :: members) ++ (gap ++ '\x7d' :: rest))) readable.1
      (ends_closing rfl _) (by omega)
    have others := readMembers_chars l (next :: members) depth fuel gap rest (by simp)
      readable.2 space (by omega)
    rw [List.append_assoc, List.append_assoc, List.append_assoc, List.cons_append, List.append_assoc,
      List.cons_append, readMembers_key (l.line_space depth) l.colon_space key read, furtherMembers,
      skipSpace_cons rfl]
    simp only [others]
    rfl

end

/-- However it is laid out, a text is read as its value. -/
theorem ofText?_chars (l : Layout) {text : String} {json : Json} (readable : AllReadable json)
    (written : text.toList = chars l 0 json) : Document.ofText? text = some (document json) := by
  have read := readValue_chars l json 0 (2 * text.toList.length + 1) [] readable
    (fun c member => by cases member)
  rw [← written, List.append_nil] at read
  unfold Document.ofText?
  dsimp only
  rw [read (by omega)]
  rfl

theorem ofText?_pretty {json : Json} (readable : AllReadable json) :
    Document.ofText? json.pretty = some (document json) :=
  ofText?_chars prettyLayout readable (toList_prettyAt 0 json)

theorem ofText?_compact {json : Json} (readable : AllReadable json) :
    Document.ofText? json.compact = some (document json) :=
  ofText?_chars compactLayout readable (toList_compact 0 json)

end PeerMesh.Proofs.JsonText
