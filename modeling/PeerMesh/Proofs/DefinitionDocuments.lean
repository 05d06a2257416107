import Mathlib.Data.List.Perm.Basic
import PeerMesh.Proofs.SlotOperations

/-! Definition documents, wherever they come from. One is read exactly if it is consistent: every name is
spelled, no two names are the same once they are sanitized, and every value can be read as its type. It
is then read as the definition it describes, with one slot for each entry. In which order the entries of
a kind are listed does not matter. -/

namespace PeerMesh

/-- What a JSON value means as a value of a type. -/
inductive Json.Means : Json → ValueType → Value → Prop where
  | nothing (type : ValueType) : Means .null type (.default type)
  | signal (json : Json) : Means json .impulsion .impulsion
  | integer (n : Json.Number) : Means (.number n) .integer (.integer (Value.integerOfNumber n))
  | double (n : Json.Number) : Means (.number n) .double (.double n.toDouble)
  | truth (b : Bool) : Means (.bool b) .bool (.bool b)
  | nonzero (n : Json.Number) : Means (.number n) .bool (.bool !(n.toDouble.numEq Double.zero))
  | hex {s : String} {bytes : Bytes} (digits : Text.Hex.decode (Text.trimmed s) = .ok bytes) :
    Means (.string s) .data (.data bytes)
  | text {s : String} {type : ValueType} {value : Value} (plain : type ≠ .data)
    (converted : Value.ofText s type = .ok value) : Means (.string s) type value
  | shown {json : Json} (present : json ≠ .null) (other : ∀ s, json ≠ .string s) :
    Means json .string (.string json.compact)

namespace SlotEntry

/-- The value of the entry, if it has one, means something as a value of its type. -/
def Readable (entry : SlotEntry) : Prop :=
  ∀ json ∈ entry.value, ∃ value, json.Means entry.type value

/-- The slot that the entry asks for. -/
structure Describes (entry : SlotEntry) (slot : Slot) : Prop where
  named : slot.name = Name.sanitize entry.name
  typed : slot.type = entry.type
  filled : match entry.value with
    | some json => json.Means entry.type slot.value
    | none => slot.value = .default entry.type
  unmuted : slot.muted = false

end SlotEntry

namespace DefinitionDocument

def names (document : DefinitionDocument) : List String :=
  SlotKind.all.flatMap fun kind => (document.entries kind).map fun entry => Name.sanitize entry.name

structure Consistent (document : DefinitionDocument) : Prop where
  spelled : ∀ kind, ∀ entry ∈ document.entries kind, Text.isBlankText entry.name = false
  distinct : document.names.Nodup
  readable : ∀ kind, ∀ entry ∈ document.entries kind, entry.Readable

/-- The definition that a document stands for: in each table there is one slot for each entry. -/
structure Describes (document : DefinitionDocument) (d : Definition) : Prop where
  named : d.name = Name.sanitize document.name
  description : d.description = document.description
  version : d.version = document.version
  slots : ∀ kind, ∃ slots, List.Forall₂ SlotEntry.Describes (document.entries kind) slots ∧
    (d.table kind).entries.Perm (slots.map fun slot => (slot.name, slot))

structure Shuffles (one two : DefinitionDocument) : Prop where
  named : one.name = two.name
  description : one.description = two.description
  version : one.version = two.version
  entries : ∀ kind, (one.entries kind).Perm (two.entries kind)

end DefinitionDocument

namespace Proofs.DefinitionDocuments
open Definitions Outcomes SlotOperations

variable {d after : Definition} {kind : SlotKind} {entry : SlotEntry} {slot : Slot}
  {document : DefinitionDocument}

private theorem convertTo_string {s : String} {type : ValueType} {value : Value} :
    (Value.string s).convertTo type = .ok value ↔ Value.ofText s type = .ok value := by
  rw [Values.convertTo_eq_ok, Values.convertOrFault_string]

private theorem parse_data {s : String} {value : Value} :
    Value.parse .data s = .ok value ↔
      ∃ bytes, Text.Hex.decode (Text.trimmed s) = .ok bytes ∧ value = .data bytes := by
  rw [Value.parse]
  cases Text.Hex.decode (Text.trimmed s) <;> simp [eq_comm]

theorem ofJson_eq_ok {type : ValueType} {json : Json} {value : Value} :
    Value.ofJson type json = .ok value ↔ json.Means type value := by
  constructor
  · intro read
    unfold Value.ofJson at read
    split at read
    case h_1 | h_2 | h_3 | h_4 | h_5 | h_6 =>
      cases read
      constructor
    next =>
      cases read
      exact .text (by decide) rfl
    next =>
      obtain ⟨bytes, digits, rfl⟩ := parse_data.mp read
      exact .hex digits
    next plain => exact .text plain (convertTo_string.mp read)
    next present other =>
      cases read
      exact .shown present other
    next => cases read
  · intro means
    cases means with
    | nothing => cases type <;> rfl
    | signal => cases json <;> rfl
    | integer | double | truth | nonzero => rfl
    | hex digits =>
      unfold Value.ofJson
      exact parse_data.mpr ⟨_, digits, rfl⟩
    | text plain converted =>
      cases type with
      | data => exact absurd rfl plain
      | string | impulsion =>
        cases converted
        rfl
      | integer | double | bool =>
        unfold Value.ofJson
        exact convertTo_string.mpr converted
    | shown present other =>
      cases json with
      | null => exact absurd rfl present
      | string s => exact absurd rfl (other s)
      | bool | number | array | object => rfl

theorem type_of_means {json : Json} {type : ValueType} {value : Value} (means : json.Means type value) :
    value.type = type := by
  cases means with
  | nothing => exact Value.type_default type
  | text plain converted => exact Values.type_of_convertTo (convertTo_string.mpr converted)
  | _ => rfl

/-- The slot of an entry; without a value that can be read it holds the default of its type. -/
def slotOf (entry : SlotEntry) : Slot where
  name := Name.sanitize entry.name
  type := entry.type
  value := (entry.value.bind fun json => (Value.ofJson entry.type json).toOption).getD
    (.default entry.type)
  muted := false

theorem value_slotOf {name : String} {type : ValueType} {json : Json} {value : Value}
    (means : json.Means type value) : (slotOf ⟨name, type, some json⟩).value = value := by
  unfold slotOf
  rw [Option.bind_some, ofJson_eq_ok.mpr means]
  rfl

theorem describes_iff : entry.Describes slot ↔ entry.Readable ∧ slot = slotOf entry := by
  obtain ⟨name, type, value⟩ := entry
  obtain ⟨_, _, held, _⟩ := slot
  constructor
  · rintro ⟨named, typed, filled, unmuted⟩
    dsimp only at named typed unmuted
    subst named typed unmuted
    cases value with
    | none =>
      cases filled
      exact ⟨nofun, rfl⟩
    | some json =>
      refine ⟨fun _ given => ?_, congrArg (Slot.mk _ _ · _) (value_slotOf filled).symm⟩
      cases given
      exact ⟨held, filled⟩
  · rintro ⟨readable, same⟩
    rw [same]
    refine ⟨rfl, rfl, ?_, rfl⟩
    cases value with
    | none => rfl
    | some json =>
      obtain ⟨_, means⟩ := readable json rfl
      rw [value_slotOf means]
      exact means

/-- What is read of an entry fills its slot. -/
theorem fills_iff {stored : Value} :
    (∃ given, entry.value.mapM (Value.ofJson entry.type) = .ok given ∧
      Definition.Fills entry.type given stored) ↔ entry.Readable ∧ stored = (slotOf entry).value := by
  obtain ⟨name, type, value⟩ := entry
  cases value with
  | none =>
    refine ⟨?_, fun ⟨_, same⟩ => ⟨none, rfl, same⟩⟩
    rintro ⟨given, read, fills⟩
    cases read
    exact ⟨nofun, fills⟩
  | some json =>
    have taken (given : Option Value) : (some json).mapM (Value.ofJson type) = .ok given ↔
        ∃ held, json.Means type held ∧ some held = given := by
      rw [Option.mapM_some]
      exact map_eq_ok.trans (exists_congr fun held => and_congr_left fun _ => ofJson_eq_ok)
    have stays {held : Value} (means : json.Means type held) : held.convertTo type = .ok held :=
      type_of_means means ▸ Values.convertTo_type held
    simp only [taken]
    constructor
    · rintro ⟨_, ⟨held, means, rfl⟩, fills⟩
      cases (stays means).symm.trans fills
      refine ⟨fun _ given => ?_, (value_slotOf means).symm⟩
      cases given
      exact ⟨_, means⟩
    · rintro ⟨readable, rfl⟩
      obtain ⟨held, means⟩ := readable json rfl
      rw [value_slotOf means]
      exact ⟨some held, ⟨held, means, rfl⟩, stays means⟩

theorem addEntry_eq (d : Definition) (kind : SlotKind) (entry : SlotEntry) :
    d.addEntry kind entry = entry.value.mapM (Value.ofJson entry.type) >>= fun value =>
      (d.create kind entry.name entry.type value).map (·.1) := by
  unfold Definition.addEntry
  simp only [bind, Except.bind]
  cases entry.value.mapM (Value.ofJson entry.type) <;> rfl

def place (d : Definition) (kind : SlotKind) (slot : Slot) : Definition :=
  d.setTable kind ((d.table kind).insert slot.name slot)

theorem addEntry_eq_ok : d.addEntry kind entry = .ok after ↔
    (Text.isBlankText entry.name = false ∧ entry.Readable) ∧
      (∀ other, d.get? other (slotOf entry).name = none) ∧ after = place d kind (slotOf entry) := by
  rw [addEntry_eq, bind_eq_ok, ← Names.isEmpty_sanitize]
  constructor
  · rintro ⟨given, read, added⟩
    obtain ⟨⟨_, slot⟩, created, rfl⟩ := map_eq_ok.mp added
    obtain ⟨spelled, free, stored, fills, rfl, rfl⟩ := create_eq_ok.mp created
    obtain ⟨readable, rfl⟩ := fills_iff.mp ⟨given, read, fills⟩
    exact ⟨⟨spelled, readable⟩, free, rfl⟩
  · rintro ⟨⟨spelled, readable⟩, free, rfl⟩
    obtain ⟨given, read, fills⟩ := fills_iff.mpr ⟨readable, rfl⟩
    refine ⟨given, read, map_eq_ok.mpr ⟨(place d kind (slotOf entry), slotOf entry), ?_, rfl⟩⟩
    exact create_eq_ok.mpr ⟨spelled, free, _, fills, rfl, rfl⟩

theorem free_place {name : String} : (∀ other, (place d kind slot).get? other name = none) ↔
    slot.name ≠ name ∧ ∀ other, d.get? other name = none := by
  simp only [place, get?_insert]
  constructor
  · intro free
    have differs : slot.name ≠ name := fun same => by
      have held := free kind
      rw [if_pos ⟨rfl, same⟩] at held
      cases held
    refine ⟨differs, fun other => ?_⟩
    have held := free other
    rwa [if_neg fun both => differs both.2] at held
  · rintro ⟨differs, free⟩ other
    rw [if_neg fun both => differs both.2]
    exact free other

def listed (document : DefinitionDocument) : List (SlotKind × SlotEntry) :=
  SlotKind.all.flatMap fun kind => (document.entries kind).map (kind, ·)

def placeAll (entries : List (SlotKind × SlotEntry)) (d : Definition) : Definition :=
  entries.foldl (fun d e => place d e.1 (slotOf e.2)) d

/-- Entries are added exactly if each is spelled and readable, no two have one name, and none has the name
of a slot that is there. -/
theorem foldlM_addEntry (entries : List (SlotKind × SlotEntry)) (d : Definition) :
    entries.foldlM (fun d e => d.addEntry e.1 e.2) d = .ok after ↔
      (∀ e ∈ entries, Text.isBlankText e.2.name = false ∧ e.2.Readable) ∧
      (entries.map fun e => (slotOf e.2).name).Nodup ∧
      (∀ e ∈ entries, ∀ kind, d.get? kind (slotOf e.2).name = none) ∧
      after = placeAll entries d := by
  induction entries generalizing d with
  | nil =>
    refine ⟨fun done => ?_, fun ⟨_, _, _, same⟩ => ?_⟩
    · cases done
      exact ⟨nofun, .nil, nofun, rfl⟩
    · cases same
      rfl
  | cons e entries ih =>
    rw [List.foldlM_cons, bind_eq_ok]
    simp only [ih, addEntry_eq_ok]
    constructor
    · rintro ⟨_, ⟨fit, free, rfl⟩, others, distinct, unused, rfl⟩
      refine ⟨List.forall_mem_cons.mpr ⟨fit, others⟩, List.nodup_cons.mpr ⟨?_, distinct⟩,
        List.forall_mem_cons.mpr ⟨free, fun rival member => ?_⟩, rfl⟩
      · intro member
        obtain ⟨rival, known, same⟩ := List.mem_map.mp member
        exact (free_place.mp (unused rival known)).1 same.symm
      · exact (free_place.mp (unused rival member)).2
    · rintro ⟨fit, distinct, unused, rfl⟩
      obtain ⟨first, others⟩ := List.forall_mem_cons.mp fit
      obtain ⟨free, rest⟩ := List.forall_mem_cons.mp unused
      obtain ⟨alone, apart⟩ := List.nodup_cons.mp distinct
      refine ⟨_, ⟨first, free, rfl⟩, others, apart, fun rival member => ?_, rfl⟩
      refine free_place.mpr ⟨fun same => ?_, rest rival member⟩
      exact alone (List.mem_map.mpr ⟨rival, member, same.symm⟩)

theorem table_place (d : Definition) (kind other : SlotKind) (slot : Slot) :
    (place d kind slot).table other =
      if kind = other then (d.table other).insert slot.name slot else d.table other := by
  cases kind <;> cases other <;> rfl

/-- Each table takes the slots of its own kind. -/
theorem table_placeAll (entries : List (SlotKind × SlotEntry)) (d : Definition) (kind : SlotKind) :
    (placeAll entries d).table kind =
      (entries.filterMap fun e => if e.1 = kind then some ((slotOf e.2).name, slotOf e.2) else none).foldl
        (fun slots e => slots.insert e.1 e.2) (d.table kind) := by
  induction entries generalizing d with
  | nil => rfl
  | cons e entries ih =>
    rw [placeAll, List.foldl_cons, ← placeAll, ih, List.filterMap_cons, table_place]
    split <;> rfl

theorem head_placeAll (entries : List (SlotKind × SlotEntry)) (d : Definition) :
    (placeAll entries d).name = d.name ∧ (placeAll entries d).description = d.description ∧
      (placeAll entries d).version = d.version := by
  induction entries generalizing d with
  | nil => exact ⟨rfl, rfl, rfl⟩
  | cons e entries ih =>
    have puts := puts_insert d e.1 (slotOf e.2).name (slotOf e.2)
    obtain ⟨named, description, version⟩ := ih (place d e.1 (slotOf e.2))
    exact ⟨named.trans puts.named, description.trans puts.description, version.trans puts.version⟩

def bare (document : DefinitionDocument) : Definition :=
  { Definition.new (Name.sanitize document.name) with
    description := document.description, version := document.version }

/-- The definition that is made of a document, if that is consistent. -/
def filled (document : DefinitionDocument) : Definition :=
  placeAll (listed document) (bare document)

theorem ofDocument_eq (document : DefinitionDocument) : Definition.ofDocument document =
    (listed document).foldlM (fun d e => d.addEntry e.1 e.2) (bare document) := by
  simp only [Definition.ofDocument, Definition.addEntries, listed, bare, SlotKind.all,
    List.flatMap_cons, List.flatMap_nil, List.append_nil, List.foldlM_append, List.foldlM_map,
    List.foldlM_cons, List.foldlM_nil, bind_pure]

theorem mem_listed : (kind, entry) ∈ listed document ↔ entry ∈ document.entries kind := by
  cases kind <;> simp [listed, SlotKind.all]

theorem names_listed (document : DefinitionDocument) :
    (listed document).map (fun e => (slotOf e.2).name) = document.names := by
  rw [listed, List.map_flatMap]
  exact List.flatMap_congr fun kind _ => List.map_map

theorem ofDocument_eq_ok :
    Definition.ofDocument document = .ok d ↔ document.Consistent ∧ d = filled document := by
  have unused (kind : SlotKind) (name : String) : (bare document).get? kind name = none := by
    cases kind <;> rfl
  rw [ofDocument_eq, foldlM_addEntry, names_listed]
  constructor
  · rintro ⟨fit, distinct, -, same⟩
    exact ⟨⟨fun _ _ member => (fit _ (mem_listed.mpr member)).1, distinct,
      fun _ _ member => (fit _ (mem_listed.mpr member)).2⟩, same⟩
  · rintro ⟨consistent, same⟩
    refine ⟨fun e member => ?_, consistent.distinct, fun e _ kind => unused kind _, same⟩
    exact ⟨consistent.spelled _ _ (mem_listed.mp member), consistent.readable _ _ (mem_listed.mp member)⟩

theorem table_filled (document : DefinitionDocument) (kind : SlotKind) :
    (filled document).table kind =
      .ofList ((document.entries kind).map fun entry => ((slotOf entry).name, slotOf entry)) := by
  have empty : (bare document).table kind = Table.empty := by cases kind <;> rfl
  rw [filled, table_placeAll, empty, Table.ofList]
  cases kind <;> simp [listed, SlotKind.all, List.filterMap_map]

theorem describes_filled (consistent : document.Consistent) : document.Describes (filled document) := by
  obtain ⟨named, description, version⟩ := head_placeAll (listed document) (bare document)
  refine ⟨named, description, version, fun kind => ⟨(document.entries kind).map slotOf, ?_, ?_⟩⟩
  · refine List.forall₂_map_right_iff.mpr (List.forall₂_same.mpr fun entry member => ?_)
    exact describes_iff.mpr ⟨consistent.readable kind entry member, rfl⟩
  · have distinct : ((document.entries kind).map fun entry => (slotOf entry).name).Nodup :=
      (List.nodup_flatMap.mp consistent.distinct).1 kind (by cases kind <;> decide)
    rw [table_filled, List.map_map]
    refine Table.entries_ofList ?_
    rw [List.map_map]
    exact distinct

/-- A document describes one definition only, in whatever order it lists the entries. -/
theorem eq_of_describes {other : DefinitionDocument} (shuffles : document.Shuffles other)
    (one : document.Describes d) (two : other.Describes after) : d = after := by
  have unique : Relator.RightUnique SlotEntry.Describes := by
    intro entry slot rival first second
    rw [(describes_iff.mp first).2, (describes_iff.mp second).2]
  refine ext_table ?_ ?_ ?_ fun kind => ?_
  · rw [one.named, two.named, shuffles.named]
  · rw [one.description, two.description, shuffles.description]
  · rw [one.version, two.version, shuffles.version]
  · obtain ⟨slots, each, all⟩ := one.slots kind
    obtain ⟨others, each', all'⟩ := two.slots kind
    have same := List.rel_perm_imp unique each each' (shuffles.entries kind)
    exact Table.eq_of_perm (all.trans ((same.map _).trans all'.symm))

theorem consistent_of_shuffles {other : DefinitionDocument} (shuffles : document.Shuffles other)
    (consistent : document.Consistent) : other.Consistent where
  spelled kind entry member := consistent.spelled kind entry ((shuffles.entries kind).mem_iff.mpr member)
  distinct := by
    have names : document.names.Perm other.names :=
      List.Perm.flatMap_left _ fun kind _ => (shuffles.entries kind).map _
    exact names.nodup_iff.mp consistent.distinct
  readable kind entry member := consistent.readable kind entry ((shuffles.entries kind).mem_iff.mpr member)

theorem readable_of_describes (describes : document.Describes d) (kind : SlotKind) :
    ∀ entry ∈ document.entries kind, entry.Readable := by
  obtain ⟨slots, each, -⟩ := describes.slots kind
  have both := each.imp fun _ _ describes => And.intro (describes_iff.mp describes).1 describes
  exact ((List.forall₂_and_left _ _).mp both).1

theorem shuffles_refl (document : DefinitionDocument) : document.Shuffles document :=
  ⟨rfl, rfl, rfl, fun _ => .refl _⟩

theorem shuffles_symm {other : DefinitionDocument} (shuffles : document.Shuffles other) :
    other.Shuffles document :=
  ⟨shuffles.named.symm, shuffles.description.symm, shuffles.version.symm,
    fun kind => (shuffles.entries kind).symm⟩

/-- A document that describes a definition in another order of the entries is read as that definition. -/
theorem ofDocument_of_shuffles {other : DefinitionDocument} (shuffles : document.Shuffles other) :
    Definition.ofDocument document = .ok d ↔ other.Consistent ∧ other.Describes d := by
  rw [ofDocument_eq_ok]
  constructor
  · rintro ⟨consistent, rfl⟩
    have reordered := consistent_of_shuffles shuffles consistent
    refine ⟨reordered, ?_⟩
    rw [eq_of_describes shuffles (describes_filled consistent) (describes_filled reordered)]
    exact describes_filled reordered
  · rintro ⟨reordered, describes⟩
    have consistent := consistent_of_shuffles (shuffles_symm shuffles) reordered
    exact ⟨consistent, (eq_of_describes shuffles (describes_filled consistent) describes).symm⟩

theorem ofText_of_ofText? {text : String} (read : DefinitionDocument.ofText? text = some document) :
    Definition.ofText text = Definition.ofDocument document := by
  rw [Definition.ofText, read]

/-- A document is read if and only if it is consistent, as the definition that it describes; in which order
it lists the entries of a kind does not matter. -/
theorem documents_define {text : String} {document : DefinitionDocument}
    (typed : DefinitionDocument.ofText? text = some document) :
    ((∃ d, Definition.ofText text = .ok d) ↔ document.Consistent) ∧
    (∀ d, Definition.ofText text = .ok d ↔ document.Consistent ∧ document.Describes d) ∧
    ∀ {other rival}, DefinitionDocument.ofText? other = some rival → document.Shuffles rival →
      ∀ d, Definition.ofText text = .ok d ↔ Definition.ofText other = .ok d := by
  rw [ofText_of_ofText? typed]
  refine ⟨?_, fun d => ofDocument_of_shuffles (shuffles_refl document),
    fun {other rival} again shuffles d => ?_⟩
  · simp only [ofDocument_eq_ok, exists_and_left, exists_eq, and_true]
  · rw [ofText_of_ofText? again, ofDocument_of_shuffles shuffles,
      ofDocument_of_shuffles (shuffles_refl rival)]

/-! A crane whose names are to be sanitized, listed in two ways. -/

private def crane : DefinitionDocument where
  name := " tower crane"
  description := "lifts"
  version := ""
  inputs := [⟨" hook", .integer, some (.string " 12.7 ")⟩, ⟨"swing arm", .bool, some (.number (.int 3))⟩]
  outputs := [⟨"swing\tweight", .data, some (.string "00fF\n")⟩]
  parameters := [⟨"crew ", .string, none⟩]

private def turned : DefinitionDocument := { crane with inputs := crane.inputs.reverse }

/-- The parameter has the name that one of the inputs is to get. -/
private def tangled : DefinitionDocument := { crane with parameters := [⟨"swing_arm", .double, none⟩] }

private def hook : Slot := ⟨"hook", .integer, .integer 12, false⟩

private def arm : Slot := ⟨"swing_arm", .bool, .bool true, false⟩

private def weight : Slot := ⟨"swing_weight", .data, .data (Bytes.ofList [0, 255]), false⟩

private def crew : Slot := ⟨"crew", .string, .string "", false⟩

private def erected : Definition where
  name := "tower_crane"
  description := "lifts"
  version := ""
  inputs := .ofList [("hook", hook), ("swing_arm", arm)]
  outputs := .ofList [("swing_weight", weight)]
  parameters := .ofList [("crew", crew)]

private theorem crane_describes : crane.Describes erected where
  named := by decide
  description := rfl
  version := rfl
  slots kind := by
    cases kind with
    | input =>
      refine ⟨[hook, arm], ?_, .refl _⟩
      refine .cons ⟨by decide, rfl, .text (by decide) (by decide +kernel), rfl⟩ (.cons ?_ .nil)
      exact ⟨by decide, rfl, .nonzero _, rfl⟩
    | output => exact ⟨[weight], .cons ⟨by decide, rfl, .hex (by decide +kernel), rfl⟩ .nil, .refl _⟩
    | parameter => exact ⟨[crew], .cons ⟨by decide, rfl, rfl, rfl⟩ .nil, .refl _⟩

private theorem crane_consistent : crane.Consistent where
  spelled kind := by cases kind <;> decide
  distinct := by decide
  readable := readable_of_describes crane_describes

private theorem read_pretty (readable : JsonText.AllReadable document.toJson)
    (same : DefinitionDocument.ofDocument? (JsonText.document document.toJson) = some document) :
    DefinitionDocument.ofText? document.toJson.pretty = some document := by
  rw [DefinitionDocument.ofText?, JsonText.ofText?_pretty readable]
  exact same

theorem crane_is_read_in_any_order :
    Definition.ofText crane.toJson.pretty = .ok erected ∧
    Definition.ofText turned.toJson.pretty = .ok erected ∧
    ¬∃ d, Definition.ofText tangled.toJson.pretty = .ok d := by
  have three : JsonTokens.Readable (.int 3) := JsonTokens.readable_int (by decide) (by decide)
  have readable : ∀ document ∈ [crane, turned, tangled], JsonText.AllReadable document.toJson := by
    simp [crane, turned, tangled, DefinitionDocument.toJson, SlotEntry.toJson, JsonText.AllReadable,
      JsonText.AllReadableItems, JsonText.AllReadableMembers, three]
  simp only [List.forall_mem_cons] at readable
  obtain ⟨first, second, third, -⟩ := readable
  have turns : crane.Shuffles turned := by
    refine ⟨rfl, rfl, rfl, fun kind => ?_⟩
    cases kind with
    | input => exact (List.reverse_perm _).symm
    | output | parameter => exact .refl _
  obtain ⟨-, reads, shuffled⟩ := documents_define (read_pretty first rfl)
  have read := (reads erected).mpr ⟨crane_consistent, crane_describes⟩
  refine ⟨read, (shuffled (read_pretty second rfl) turns erected).mp read, ?_⟩
  rw [(documents_define (read_pretty third rfl)).1]
  exact fun consistent => absurd consistent.distinct (by decide)

end Proofs.DefinitionDocuments
end PeerMesh
