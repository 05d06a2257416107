import PeerMesh.Definition.Document
import PeerMesh.Proofs.AgentChanges
import PeerMesh.Proofs.JsonText
import PeerMesh.Proofs.Tables
import PeerMesh.Proofs.Values

/-! Definitions in documents. A definition keeps its slots under clean names that belong to one kind
only, and values of their slots' types, however it is changed. Such a definition is read from its
document as it was written, apart from what a document leaves out. -/

namespace PeerMesh

/-- What is left of a slot in a document. -/
def Slot.asRead (slot : Slot) : Slot := { slot with value := slot.value.asRead, muted := false }

/-- A slot that may stand under a name. -/
structure Slot.Sound (name : String) (slot : Slot) : Prop where
  named : slot.name = name
  clean : Name.isClean name = true
  typed : slot.value.type = slot.type

namespace Definition

def asRead (d : Definition) : Definition :=
  { d with
    inputs := d.inputs.mapValues fun _ => Slot.asRead
    outputs := d.outputs.mapValues fun _ => Slot.asRead
    parameters := d.parameters.mapValues fun _ => Slot.asRead }

structure Sound (d : Definition) : Prop where
  named : Name.sanitize d.name = d.name
  slots : ∀ {kind name slot}, d.get? kind name = some slot → slot.Sound name
  apart : ∀ {kind other name slot rival},
    d.get? kind name = some slot → d.get? other name = some rival → kind = other

/-- Every finite double of the definition is read back from its text. -/
def ReadsBack (d : Definition) : Prop :=
  ∀ kind name slot, d.get? kind name = some slot → Proofs.Values.ReadsBack slot.value

end Definition

namespace Proofs.Definitions
open Json JsonText Outcomes Values

variable {d after : Definition} {kind other : SlotKind} {name : String} {slot : Slot}

theorem get?_setTable (d : Definition) (kind other : SlotKind) (slots : Table Slot) (name : String) :
    (d.setTable kind slots).get? other name =
      if kind = other then slots.get? name else d.get? other name := by
  cases kind <;> cases other <;> rfl

theorem table_setTable (d : Definition) (kind : SlotKind) (slots : Table Slot) :
    (d.setTable kind slots).table kind = slots := by
  cases kind <;> rfl

theorem setTable_setTable (d : Definition) (kind : SlotKind) (slots more : Table Slot) :
    (d.setTable kind slots).setTable kind more = d.setTable kind more := by
  cases kind <;> rfl

theorem setTable_table (d : Definition) (kind : SlotKind) : d.setTable kind (d.table kind) = d := by
  cases kind <;> rfl

theorem name_setTable (d : Definition) (kind : SlotKind) (slots : Table Slot) :
    (d.setTable kind slots).name = d.name := by
  cases kind <;> rfl

/-- A definition is told by what is said of it and by its tables. -/
theorem ext_table {one two : Definition} (named : one.name = two.name)
    (description : one.description = two.description) (version : one.version = two.version)
    (tables : ∀ kind, one.table kind = two.table kind) : one = two := by
  obtain ⟨_, _, _, inputs, outputs, parameters⟩ := one
  obtain ⟨_, _, _, _, _, _⟩ := two
  cases named
  cases description
  cases version
  cases tables .input
  cases tables .output
  cases tables .parameter
  rfl

theorem kindOf?_eq_none : d.kindOf? name = none ↔ ∀ kind, d.get? kind name = none := by
  simp only [Definition.kindOf?, Definition.get?, List.find?_eq_none, Table.contains, Bool.not_eq_true,
    Option.isSome_eq_false_iff, Option.isNone_iff_eq_none]
  refine ⟨fun absent kind => absent kind ?_, fun absent kind _ => absent kind⟩
  cases kind <;> decide

theorem get?_insert (d : Definition) (kind other : SlotKind) (name key : String) (slot : Slot) :
    (d.setTable kind ((d.table kind).insert name slot)).get? other key =
      if kind = other ∧ name = key then some slot else d.get? other key := by
  rw [get?_setTable]
  by_cases same : kind = other
  · subst same
    simp [Definition.get?]
  · simp [same]

theorem sound_new (named : Name.sanitize name = name) (description version : String) :
    Definition.Sound
      { Definition.new name with description := description, version := version } where
  named := named
  slots {kind} _ _ found := by cases kind <;> cases found
  apart {kind} _ _ _ _ found := by cases kind <;> cases found

/-- A slot under a name that no other kind has. -/
theorem sound_insert (sound : d.Sound) (fits : slot.Sound name)
    (alone : ∀ other, kind ≠ other → d.get? other name = none) :
    (d.setTable kind ((d.table kind).insert name slot)).Sound := by
  constructor
  · rw [name_setTable]
    exact sound.named
  · intro other key found present
    rw [get?_insert] at present
    split at present
    next same =>
      cases present
      exact same.2 ▸ fits
    next => exact sound.slots present
  · intro first last key found rival one two
    rw [get?_insert] at one two
    split at one
    next here =>
      obtain ⟨rfl, rfl⟩ := here
      split at two
      next there => exact there.1
      next => exact Decidable.byContradiction fun different => by simp [alone last different] at two
    next =>
      split at two
      next there =>
        obtain ⟨rfl, rfl⟩ := there
        exact Decidable.byContradiction fun different => by
          simp [alone first (Ne.symm different)] at one
      next => exact sound.apart one two

/-- Another slot in the place of one. -/
theorem sound_replace (kind : SlotKind) (sound : d.Sound) (found : d.get? kind name = some slot) {changed : Slot}
    (named : changed.name = slot.name) (typed : changed.value.type = changed.type) :
    (d.setTable kind ((d.table kind).insert name changed)).Sound := by
  have kept := sound.slots found
  refine sound_insert sound ⟨named.trans kept.named, kept.clean, typed⟩ fun other different => ?_
  cases rival : d.get? other name with
  | none => rfl
  | some => exact absurd (sound.apart found rival) different

/-- A slot is created under a name that is free, and is not muted. -/
theorem create_cases {type : ValueType} {value : Option Value}
    (created : d.create kind name type value = .ok (after, slot)) :
    d.kindOf? (Name.sanitize name) = none ∧ slot.Sound (Name.sanitize name) ∧ slot.muted = false ∧
      after = d.setTable kind ((d.table kind).insert (Name.sanitize name) slot) := by
  unfold Definition.create at created
  dsimp only at created
  split at created
  · cases created
  next nonempty =>
    split at created
    · cases created
    next absent =>
      obtain ⟨made, filled, same⟩ := map_eq_ok.mp created
      cases same
      have clean := Names.isClean_sanitize (Bool.eq_false_iff.mpr nonempty)
      split at filled
      next value =>
        obtain ⟨converted, done, rfl⟩ := map_eq_ok.mp filled
        exact ⟨absent, ⟨rfl, clean, type_of_convertTo done⟩, rfl, rfl⟩
      next =>
        cases filled
        exact ⟨absent, ⟨rfl, clean, Value.type_default type⟩, rfl, rfl⟩

theorem sound_of_create (sound : d.Sound) {type : ValueType} {value : Option Value}
    (created : d.create kind name type value = .ok (after, slot)) : after.Sound := by
  obtain ⟨absent, fits, -, rfl⟩ := create_cases created
  exact sound_insert sound fits fun other _ => kindOf?_eq_none.mp absent other

theorem name_of_remove (removed : d.remove kind name = .ok (after, slot)) : after.name = d.name := by
  unfold Definition.remove at removed
  split at removed
  · cases removed
    exact name_setTable d kind _
  · cases removed

/-- What is left after a slot has been removed was there before. -/
theorem get?_of_remove (removed : d.remove kind name = .ok (after, slot)) {other : SlotKind}
    {key : String} {found : Slot} (present : after.get? other key = some found) :
    d.get? other key = some found := by
  unfold Definition.remove at removed
  split at removed
  next =>
    cases removed
    rw [get?_setTable] at present
    split at present
    next same =>
      subst same
      rw [Table.get?_erase] at present
      split at present
      · cases present
      · exact present
    next => exact present
  next => cases removed

theorem sound_of_remove (sound : d.Sound) (removed : d.remove kind name = .ok (after, slot)) :
    after.Sound :=
  ⟨(name_of_remove removed).symm ▸ sound.named,
    fun found => sound.slots (get?_of_remove removed found),
    fun one two => sound.apart (get?_of_remove removed one) (get?_of_remove removed two)⟩

theorem sound_of_write (sound : d.Sound) {value stored : Value}
    (written : d.write kind name value = .ok (after, stored)) : after.Sound := by
  obtain ⟨slot, found, converted, -, rfl⟩ := write_eq_ok.mp written
  exact sound_replace kind sound found rfl (type_of_convertTo converted)

theorem sound_of_setOutputMuted (sound : d.Sound) {muted : Bool}
    (set : d.setOutputMuted? name muted = some after) : after.Sound := by
  obtain ⟨slot, found, rfl⟩ := Option.map_eq_some_iff.mp set
  exact sound_replace .output sound found rfl (sound.slots found).typed

section Read
variable {property : Definition → Prop}
  (create : ∀ {d after kind name type value slot}, property d →
    d.create kind name type value = .ok (after, slot) → property after)
include create

private theorem keep_of_addEntry (holds : property d) {entry : SlotEntry}
    (added : d.addEntry kind entry = .ok after) : property after := by
  unfold Definition.addEntry at added
  split at added
  · cases added
  · obtain ⟨⟨filled, slot⟩, created, rfl⟩ := map_eq_ok.mp added
    exact create holds created

private theorem keep_of_addEntries (holds : property d) {entries : List SlotEntry}
    (added : Definition.addEntries kind entries d = .ok after) : property after := by
  induction entries generalizing d with
  | nil =>
    cases added
    exact holds
  | cons entry entries ih =>
    obtain ⟨next, first, rest⟩ := bind_eq_ok.mp added
    exact ih (keep_of_addEntry create holds first) rest

/-- A definition is read from a document by creating its slots one by one, from none. -/
theorem keep_of_ofText (new : ∀ {name}, Name.sanitize name = name → ∀ description version,
      property { Definition.new name with description := description, version := version })
    {text : String} (read : Definition.ofText text = .ok after) : property after := by
  have fold (document : DefinitionDocument) : ∀ (kinds : List SlotKind) {d : Definition}, property d →
      kinds.foldlM (fun d kind => Definition.addEntries kind (document.entries kind) d) d =
        .ok after → property after := by
    intro kinds
    induction kinds with
    | nil =>
      intro d holds done
      cases done
      exact holds
    | cons kind kinds ih =>
      intro d holds done
      obtain ⟨next, first, rest⟩ := bind_eq_ok.mp done
      exact ih (keep_of_addEntries create holds first) rest
  unfold Definition.ofText at read
  split at read
  next document _ =>
    have named := Names.sanitize_sanitize document.name
    exact fold document SlotKind.all (new named document.description document.version) read
  · cases read

end Read

/-- Whatever text a definition is read from. -/
theorem sound_of_ofText {text : String} (read : Definition.ofText text = .ok after) : after.Sound :=
  keep_of_ofText (fun sound created => sound_of_create sound created) sound_new read

private def Unmuted (d : Definition) : Prop :=
  ∀ {kind name slot}, d.get? kind name = some slot → slot.muted = false

/-- No output is muted in a document. -/
theorem muted_of_ofText {text : String} (read : Definition.ofText text = .ok after)
    (found : after.get? kind name = some slot) : slot.muted = false := by
  have start {name : String} (_ : Name.sanitize name = name) (description version : String) :
      Unmuted { Definition.new name with description := description, version := version } := by
    intro kind key slot found
    cases kind <;> cases found
  have create {d after : Definition} {kind name type value slot} (unmuted : Unmuted d)
      (created : d.create kind name type value = .ok (after, slot)) : Unmuted after := by
    obtain ⟨-, -, muted, rfl⟩ := create_cases created
    intro other key found present
    rw [get?_insert] at present
    split at present
    · cases present
      exact muted
    · exact unmuted present
  exact (keep_of_ofText create start read : Unmuted after) found

def entryOf (slot : Slot) : SlotEntry := ⟨slot.name, slot.type, written slot.value⟩

/-- A clean name that no slot has yet is taken as it stands. -/
private theorem create_of_absent (kind : SlotKind) {type : ValueType} {value : Option Value}
    (clean : Name.isClean name = true) (absent : d.kindOf? name = none)
    (filled : value.elim (.ok (Slot.new name type)) (Slot.new name type).withValue = .ok slot) :
    d.create kind name type value =
      .ok (d.setTable kind ((d.table kind).insert name slot), slot) := by
  have nonempty : ¬name.isEmpty = true := by
    intro empty
    rw [Name.isClean, empty] at clean
    cases clean
  unfold Definition.create
  simp only [Names.sanitize_of_isClean clean, absent]
  rw [if_neg nonempty]
  cases value <;> exact congrArg (Except.map _) filled

/-- What a document leaves of a value is of the slot's type already. -/
private theorem withValue_asRead (typed : slot.value.type = slot.type) :
    (Slot.new slot.name slot.type).withValue slot.value.asRead = .ok slot.asRead := by
  have type : slot.value.asRead.type = slot.type := (type_asRead _).trans typed
  have stays := convertTo_type slot.value.asRead
  rw [type] at stays
  change (slot.value.asRead.convertTo slot.type).map _ = _
  rw [stays]
  rfl

theorem addEntry_entryOf (kind : SlotKind) (sound : slot.Sound name) (absent : d.kindOf? name = none) :
    d.addEntry kind (entryOf slot) =
      .ok (d.setTable kind ((d.table kind).insert name slot.asRead)) := by
  obtain ⟨rfl, clean, typed⟩ := sound
  have value := ofJson_written slot.value
  rw [typed] at value
  unfold Definition.addEntry entryOf
  dsimp only
  cases left : written slot.value with
  | none =>
    rw [left] at value
    have same : Value.default slot.type = slot.value.asRead := Except.ok.inj value
    have filled : Slot.new slot.name slot.type = slot.asRead := by
      rw [Slot.new, same, Slot.asRead]
    have created : d.create kind slot.name slot.type none = _ :=
      create_of_absent kind clean absent (congrArg Except.ok filled)
    change (d.create kind slot.name slot.type none).map _ = _
    rw [created]
    rfl
  | some json =>
    rw [left] at value
    change Value.ofJson slot.type json = _ at value
    have taken : (some json).mapM (Value.ofJson slot.type) = Except.ok (some slot.value.asRead) := by
      rw [Option.mapM_some, value]
      rfl
    have created : d.create kind slot.name slot.type (some slot.value.asRead) = _ :=
      create_of_absent kind clean absent (withValue_asRead typed)
    rw [taken]
    dsimp only
    rw [created]
    rfl

private theorem addEntries_sorted (kind : SlotKind) {entries : List (String × Slot)}
    (sorted : entries.Pairwise fun a b => a.1 < b.1) (sound : ∀ e ∈ entries, e.2.Sound e.1)
    (absent : ∀ e ∈ entries, d.kindOf? e.1 = none) :
    Definition.addEntries kind (entries.map fun e => entryOf e.2) d =
      .ok (d.setTable kind
        (entries.foldl (fun slots e => slots.insert e.1 e.2.asRead) (d.table kind))) := by
  induction entries generalizing d with
  | nil =>
    rw [List.foldl_nil, setTable_table]
    rfl
  | cons head rest ih =>
    obtain ⟨first, rest_sorted⟩ := List.pairwise_cons.mp sorted
    have added := addEntry_entryOf kind (sound head List.mem_cons_self)
      (absent head List.mem_cons_self)
    have still : ∀ e ∈ rest, (d.setTable kind
        ((d.table kind).insert head.1 head.2.asRead)).kindOf? e.1 = none := by
      intro e member
      refine kindOf?_eq_none.mpr fun other => ?_
      rw [get?_insert, if_neg]
      · exact kindOf?_eq_none.mp (absent e (List.mem_cons_of_mem _ member)) other
      · exact fun same => String.lt_irrefl _ (same.2 ▸ first e member)
    have others := ih rest_sorted (fun e member => sound e (List.mem_cons_of_mem _ member)) still
    rw [table_setTable, setTable_setTable] at others
    rw [List.map_cons, List.foldl_cons, ← others, Definition.addEntries, List.foldlM_cons, added]
    rfl

/-- The slots of one kind, read into a definition that has none of them. -/
theorem addEntries_table {slots : Table Slot}
    (sound : ∀ {name slot}, slots.get? name = some slot → slot.Sound name)
    (absent : ∀ {name slot}, slots.get? name = some slot → d.kindOf? name = none)
    (unfilled : d.table kind = Table.empty) :
    Definition.addEntries kind (slots.values.map entryOf) d =
      .ok (d.setTable kind (slots.mapValues fun _ => Slot.asRead)) := by
  have added := addEntries_sorted (d := d) kind slots.sorted
    (fun e member => sound (Table.mem_entries.mp member))
    (fun e member => absent (Table.mem_entries.mp member))
  rw [unfilled, Table.foldl_insert_empty] at added
  rw [Table.values, List.map_map]
  exact added

def documentOf (d : Definition) : DefinitionDocument where
  name := d.name
  description := d.description
  version := d.version
  inputs := d.inputs.values.map entryOf
  outputs := d.outputs.values.map entryOf
  parameters := d.parameters.values.map entryOf

theorem ofDocument_documentOf (sound : d.Sound) :
    Definition.ofDocument (documentOf d) = .ok d.asRead := by
  have kept (kind : SlotKind) {name slot} (found : (d.table kind).get? name = some slot) :
      slot.Sound name := sound.slots found
  have apart (kind other : SlotKind) {name slot} (different : kind ≠ other)
      (found : (d.table kind).get? name = some slot) :
      ((d.table other).mapValues fun _ => Slot.asRead).get? name = none := by
    rw [Table.get?_mapValues, Option.map_eq_none_iff]
    cases rival : (d.table other).get? name with
    | none => rfl
    | some => exact absurd (sound.apart found rival) different
  let start : Definition :=
    { Definition.new d.name with description := d.description, version := d.version }
  let first := start.setTable .input (d.inputs.mapValues fun _ => Slot.asRead)
  let second := first.setTable .output (d.outputs.mapValues fun _ => Slot.asRead)
  have inputs : Definition.addEntries .input (d.inputs.values.map entryOf) start = .ok first :=
    addEntries_table (kept .input)
      (fun _ => kindOf?_eq_none.mpr fun kind => by cases kind <;> rfl) rfl
  have outputs : Definition.addEntries .output (d.outputs.values.map entryOf) first = .ok second :=
    addEntries_table (kept .output)
      (fun found => kindOf?_eq_none.mpr fun kind => by
        cases kind with
        | input => exact apart .output .input (by decide) found
        | output | parameter => rfl) rfl
  have parameters : Definition.addEntries .parameter (d.parameters.values.map entryOf) second =
      .ok d.asRead :=
    addEntries_table (kept .parameter)
      (fun found => kindOf?_eq_none.mpr fun kind => by
        cases kind with
        | input => exact apart .parameter .input (by decide) found
        | output => exact apart .parameter .output (by decide) found
        | parameter => rfl) rfl
  have start_eq : Definition.ofDocument (documentOf d) =
      (do
        let d₁ ← Definition.addEntries .input (d.inputs.values.map entryOf) start
        let d₂ ← Definition.addEntries .output (d.outputs.values.map entryOf) d₁
        Definition.addEntries .parameter (d.parameters.values.map entryOf) d₂) := by
    rw [Definition.ofDocument, documentOf, sound.named]
    simp only [SlotKind.all, List.foldlM_cons, List.foldlM_nil, bind_pure]
    rfl
  rw [start_eq, inputs]
  change (Definition.addEntries .output _ first >>= _) = _
  rw [outputs]
  exact parameters

private theorem allReadable_value {value : Value} (readsBack : Values.ReadsBack value) :
    ∀ json ∈ value.toJson, AllReadable json := by
  intro json member
  cases value with
  | integer i =>
    cases member
    have low := i.le_toInt
    have high := i.toInt_lt
    exact JsonTokens.readable_int (by omega) (by omega)
  | double d =>
    cases member
    rw [Json.ofDouble]
    split
    next finite => exact JsonTokens.readable_float (readsBack finite)
    next => exact trivial
  | string | bool | data =>
    cases member
    exact trivial
  | impulsion => cases member

private theorem allReadable_slot {slot : Slot} (readsBack : Values.ReadsBack slot.value) :
    AllReadable (SlotEntry.ofSlot slot).toJson := by
  have value := allReadable_value readsBack
  unfold SlotEntry.toJson SlotEntry.ofSlot
  cases held : slot.value.toJson with
  | none => exact ⟨trivial, trivial, trivial⟩
  | some json => exact ⟨trivial, trivial, value json held, trivial⟩

theorem allReadable_toJson (readsBack : d.ReadsBack) : AllReadable d.toDocument.toJson := by
  have slots (kind : SlotKind) : AllReadable
      (.array (((d.table kind).values.map SlotEntry.ofSlot).map SlotEntry.toJson)) := by
    rw [AllReadable, List.map_map]
    refine allReadableItems_iff.mpr fun item member => ?_
    obtain ⟨slot, stored, rfl⟩ := List.mem_map.mp member
    obtain ⟨name, found⟩ := Table.mem_values.mp stored
    exact allReadable_slot (readsBack kind name slot found)
  exact ⟨⟨trivial, trivial, trivial, slots .input, slots .output, slots .parameter, trivial⟩, trivial⟩

private theorem readValue?_written {value : Value} {json : Json} (held : value.toJson = some json) :
    SlotEntry.readValue? (document json) = some (written value) := by
  cases value with
  | double d =>
    cases held
    rw [Json.ofDouble]
    cases finite : d.isFinite with
    | true =>
      rw [written, finite, Value.toJson, Json.ofDouble, finite]
      rfl
    | false =>
      rw [written, finite]
      rfl
  | integer | string | bool | data =>
    cases held
    rfl
  | impulsion => cases held

private theorem readType?_name (type : ValueType) :
    SlotEntry.readType? (.string (some type.name)) = some type :=
  ValueType.ofName?_name type

theorem ofDocument?_ofSlot (slot : Slot) :
    SlotEntry.ofDocument? (document (SlotEntry.ofSlot slot).toJson) = some (entryOf slot) := by
  have type := readType?_name slot.type
  cases held : slot.value.toJson with
  | none =>
    have nothing : written slot.value = none := by
      cases value : slot.value with
      | impulsion => rfl
      | integer | double | string | bool | data =>
        rw [value] at held
        cases held
    rw [SlotEntry.toJson, SlotEntry.ofSlot, held, entryOf, nothing]
    change (do
      let type ← SlotEntry.readType? (.string (some slot.type.name))
      some (SlotEntry.mk slot.name type none)) = _
    rw [type]
    rfl
  | some json =>
    rw [SlotEntry.toJson, SlotEntry.ofSlot, held]
    change (do
      let type ← SlotEntry.readType? (.string (some slot.type.name))
      let value ← SlotEntry.readValue? (document json)
      some (SlotEntry.mk slot.name type value)) = _
    rw [type, readValue?_written held]
    rfl

theorem readEntries_document (slots : Table Slot) :
    DefinitionDocument.readEntries
        (some (document (.array ((slots.values.map SlotEntry.ofSlot).map SlotEntry.toJson)))) =
      some (slots.values.map entryOf) := by
  rw [List.map_map]
  exact list?_document _ fun slot _ => ofDocument?_ofSlot slot

theorem ofDocument?_toJson (d : Definition) :
    DefinitionDocument.ofDocument? (document d.toDocument.toJson) = some (documentOf d) := by
  change (do
    let inputs ← DefinitionDocument.readEntries (some (document (.array
      ((d.inputs.values.map SlotEntry.ofSlot).map SlotEntry.toJson))))
    let outputs ← DefinitionDocument.readEntries (some (document (.array
      ((d.outputs.values.map SlotEntry.ofSlot).map SlotEntry.toJson))))
    let parameters ← DefinitionDocument.readEntries (some (document (.array
      ((d.parameters.values.map SlotEntry.ofSlot).map SlotEntry.toJson))))
    some (DefinitionDocument.mk d.name d.description d.version inputs outputs parameters)) = _
  rw [readEntries_document, readEntries_document, readEntries_document]
  rfl

/-- A definition is read from its text as what is left of it in a document. -/
theorem ofText_toText (sound : d.Sound) (readsBack : d.ReadsBack) :
    Definition.ofText d.toText = .ok d.asRead := by
  have read : DefinitionDocument.ofText? d.toText = some (documentOf d) := by
    rw [DefinitionDocument.ofText?, Definition.toText, ofText?_pretty (allReadable_toJson readsBack)]
    exact ofDocument?_toJson d
  rw [Definition.ofText, read]
  exact ofDocument_documentOf sound

/-- Nothing that decides about feeding is left out of a document. -/
theorem outline_asRead (d : Definition) : d.asRead.outline = d.outline := by
  have types (slots : Table Slot) :
      Definition.types (slots.mapValues fun _ => Slot.asRead) = Definition.types slots :=
    Table.ext_get? fun name => by simp [Definition.types, Slot.asRead, Function.comp_def]
  simp only [Definition.outline, Definition.asRead, types]

end Proofs.Definitions
end PeerMesh
