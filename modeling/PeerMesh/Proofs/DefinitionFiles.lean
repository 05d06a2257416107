import PeerMesh.Proofs.SlotOperations

/-! Definition files. A definition that is written to a file and read from it again has nothing muted
and zero in place of each double that is not finite; all else is as it was, whatever was done to the
definition before. Where every double is finite, what was read is written as the same file. -/

namespace PeerMesh
namespace Definition

/-- What operations make of a definition as it may begin. -/
def Reached (d : Definition) : Prop :=
  ∃ start, Begun start ∧ ∃ operations, start.performAll operations = d

def MutesNothing (d : Definition) : Prop :=
  ∀ key slot, d.output? key = some slot → slot.muted = false

def AllFinite (d : Definition) : Prop :=
  ∀ kind key slot number, d.get? kind key = some slot → slot.value = .double number →
    number.isFinite = true

/-- Inputs and parameters are never muted. -/
def MutesOutputsOnly (d : Definition) : Prop :=
  ∀ kind key slot, d.get? kind key = some slot → slot.muted = true → kind = .output

end Definition

namespace Proofs.DefinitionFiles
open Definitions SlotOperations

variable {d after : Definition} {kind : SlotKind} {name : String}

theorem mutesOutputsOnly_of_begun (begun : d.Begun) : d.MutesOutputsOnly := by
  intro kind key slot found muted
  cases begun with
  | new name => cases kind <;> cases found
  | read read =>
    rw [muted_of_ofText read found] at muted
    cases muted

theorem mutesOutputsOnly_of_puts (before : d.MutesOutputsOnly) {result : Option Slot}
    (puts : d.Puts after kind name result)
    (fits : ∀ slot, result = some slot → slot.muted = true → kind = .output) :
    after.MutesOutputsOnly := by
  intro other key slot found muted
  rw [puts.slots] at found
  split at found
  next here => exact here.1 ▸ fits slot found muted
  next => exact before other key slot found muted

theorem mutesOutputsOnly_of_becomes (before : d.MutesOutputsOnly) {operation : SlotOperation}
    (becomes : d.Becomes after operation) : after.MutesOutputsOnly := by
  cases operation with
  | create kind name type value =>
    obtain ⟨-, -, stored, -, puts⟩ := becomes
    refine mutesOutputsOnly_of_puts before puts fun slot same muted => ?_
    cases same
    cases muted
  | remove kind name =>
    exact mutesOutputsOnly_of_puts before becomes.2 fun slot same => by cases same
  | write kind name value =>
    obtain ⟨slot, stored, found, -, -, puts⟩ := becomes
    refine mutesOutputsOnly_of_puts before puts fun _ same muted => ?_
    cases same
    exact before kind name slot found muted
  | muteOutput name muted =>
    obtain ⟨slot, -, puts⟩ := becomes
    exact mutesOutputsOnly_of_puts before puts fun _ _ _ => rfl

theorem mutesOutputsOnly_of_reached (reached : d.Reached) : d.MutesOutputsOnly := by
  obtain ⟨start, begun, operations, rfl⟩ := reached
  exact keep_performAll (fun before becomes => mutesOutputsOnly_of_becomes before becomes)
    (mutesOutputsOnly_of_begun begun) operations

theorem regular_of_reached (reached : d.Reached) : d.Regular := by
  obtain ⟨start, begun, operations, rfl⟩ := reached
  exact regular_performAll (regular_of_begun begun) operations

theorem sound_of_reached (reached : d.Reached) (named : Name.sanitize d.name = d.name) : d.Sound := by
  have regular := regular_of_reached reached
  exact ⟨named, fun found => regular.slots _ _ _ found,
    fun one two => regular.apart _ _ _ _ _ one two⟩

theorem asRead_of_finite {value : Value}
    (finite : ∀ number, value = .double number → number.isFinite = true) : value.asRead = value := by
  cases value with
  | double number => exact if_pos (finite number rfl)
  | integer | string | bool | impulsion | data => rfl

theorem ofSlot_asRead {slot : Slot}
    (finite : ∀ number, slot.value = .double number → number.isFinite = true) :
    SlotEntry.ofSlot slot.asRead = SlotEntry.ofSlot slot := by
  unfold SlotEntry.ofSlot Slot.asRead
  dsimp only
  rw [asRead_of_finite finite]

theorem table_asRead (d : Definition) (kind : SlotKind) :
    d.asRead.table kind = (d.table kind).mapValues fun _ => Slot.asRead := by
  cases kind <;> rfl

/-- A slot stays as it is if it is not muted and its value is kept. -/
theorem asRead_eq_self (unmuted : ∀ kind key slot, d.get? kind key = some slot → slot.muted = false)
    (finite : d.AllFinite) : d.asRead = d := by
  have same (kind : SlotKind) :
      ((d.table kind).mapValues fun _ => Slot.asRead) = d.table kind := by
    refine Table.mapValues_eq_self fun key slot found => ?_
    obtain ⟨name, type, value, muted⟩ := slot
    have kept : value.asRead = value :=
      asRead_of_finite fun number held => finite kind key _ number found held
    cases unmuted kind key _ found
    rw [Slot.asRead, kept]
  unfold Definition.asRead
  rw [show d.inputs.mapValues _ = d.inputs from same .input,
    show d.outputs.mapValues _ = d.outputs from same .output,
    show d.parameters.mapValues _ = d.parameters from same .parameter]

/-- What is muted is not written. -/
theorem toText_asRead (finite : d.AllFinite) : d.asRead.toText = d.toText := by
  have entries (kind : SlotKind) : (d.asRead.table kind).values.map SlotEntry.ofSlot =
      (d.table kind).values.map SlotEntry.ofSlot := by
    rw [table_asRead, Table.values_mapValues, List.map_map]
    refine (List.map_congr_left fun entry member => ?_).trans (List.map_map).symm
    have found := Table.mem_entries.mp member
    exact ofSlot_asRead fun number held => finite kind entry.1 entry.2 number found held
  have document : d.asRead.toDocument = d.toDocument := by
    unfold Definition.toDocument
    rw [show d.asRead.inputs.values.map _ = d.inputs.values.map _ from entries .input,
      show d.asRead.outputs.values.map _ = d.outputs.values.map _ from entries .output,
      show d.asRead.parameters.values.map _ = d.parameters.values.map _ from entries .parameter]
    rfl
  rw [Definition.toText, document, Definition.toText]

/-- A definition is read from its file with nothing muted and zero for every double that is not finite.
If neither changes anything, it is the same definition; if no double is lost, it is written again as the
same file. -/
theorem files_keep_definition (reached : d.Reached) (named : Name.sanitize d.name = d.name)
    (readsBack : d.ReadsBack) :
    Definition.ofText d.toText = .ok d.asRead ∧
    (d.MutesNothing → d.AllFinite → Definition.ofText d.toText = .ok d) ∧
    (d.AllFinite → (Definition.ofText d.toText).map Definition.toText = .ok d.toText) := by
  have read := ofText_toText (sound_of_reached reached named) readsBack
  refine ⟨read, fun silent finite => ?_, fun finite => ?_⟩
  · have unmuted (kind : SlotKind) (key : String) (slot : Slot)
        (found : d.get? kind key = some slot) : slot.muted = false := by
      cases muted : slot.muted with
      | false => rfl
      | true =>
        cases mutesOutputsOnly_of_reached reached kind key slot found muted
        rw [silent key slot found] at muted
        cases muted
    rw [read, asRead_eq_self unmuted finite]
  · rw [read, Except.map, toText_asRead finite]

private def valve : Definition := (Definition.new "valve").performAll [
  .create .input "seal" .data (some (.data (Bytes.ofList [0, 255]))),
  .create .input "note" .string (some (.string "\"a\\\n")),
  .create .output "flow rate" .double (some (.double ⟨4602678819172646912⟩)),
  .create .parameter "limit" .double (some (.double (Double.infinity false))),
  .create .parameter "reset" .impulsion none,
  .muteOutput "flow_rate" true]

private def limitedValve : Definition := valve.performAll [
  .muteOutput "flow_rate" false,
  .write .parameter "limit" (.integer 3)]

private theorem valve_reached : valve.Reached := ⟨_, .new "valve", _, rfl⟩

private theorem limitedValve_reached : limitedValve.Reached :=
  ⟨_, .new "valve", _, List.foldl_append⟩

private def heldValues (d : Definition) : List Value :=
  SlotKind.all.flatMap fun kind => (d.table kind).values.map Slot.value

private theorem forall_held {p : Value → Prop} (each : ∀ value ∈ heldValues d, p value) (kind : SlotKind)
    (key : String) (slot : Slot) (found : d.get? kind key = some slot) : p slot.value := by
  refine each _ (List.mem_flatMap.mpr ⟨kind, by cases kind <;> decide, ?_⟩)
  exact List.mem_map_of_mem (Table.mem_values.mpr ⟨key, found⟩)

private theorem valve_readsBack : valve.ReadsBack := by
  have held : heldValues valve = [.string "\"a\\\n", .data (Bytes.ofList [0, 255]),
      .double ⟨4602678819172646912⟩, .double (Double.infinity false), .impulsion] := by decide +kernel
  refine forall_held (p := Values.ReadsBack) ?_
  simp only [held, List.forall_mem_cons]
  exact ⟨trivial, trivial, fun _ => rfl, fun finite => (by cases finite), trivial, by simp⟩

private theorem limitedValve_held : heldValues limitedValve = [.string "\"a\\\n",
    .data (Bytes.ofList [0, 255]), .double ⟨4602678819172646912⟩, .double ⟨4613937818241073152⟩,
    .impulsion] := by decide +kernel

private theorem limitedValve_readsBack : limitedValve.ReadsBack := by
  refine forall_held (p := Values.ReadsBack) ?_
  simp only [limitedValve_held, List.forall_mem_cons]
  exact ⟨trivial, trivial, fun _ => rfl, fun _ => rfl, trivial, by simp⟩

private theorem limitedValve_finite : limitedValve.AllFinite := by
  have finite : ∀ value ∈ heldValues limitedValve,
      ∀ number, value = .double number → number.isFinite = true := by
    rw [limitedValve_held]
    intro value member number same
    subst same
    simp only [List.mem_cons, List.not_mem_nil, or_false, Value.double.injEq, reduceCtorEq, false_or]
      at member
    rcases member with rfl | rfl <;> rfl
  exact fun kind key slot number found => forall_held finite kind key slot found number

theorem valve_keeps_limit :
    Definition.ofText valve.toText = .ok valve.asRead ∧
    valve.output? "flow_rate" = some ⟨"flow_rate", .double, .double ⟨4602678819172646912⟩, true⟩ ∧
    valve.asRead.output? "flow_rate" =
      some ⟨"flow_rate", .double, .double ⟨4602678819172646912⟩, false⟩ ∧
    valve.asRead.get? .parameter "limit" = some ⟨"limit", .double, .double Double.zero, false⟩ ∧
    Definition.ofText limitedValve.toText = .ok limitedValve ∧
    (Definition.ofText limitedValve.toText).map Definition.toText = .ok limitedValve.toText := by
  have shown : limitedValve.MutesNothing := by
    have outputs : limitedValve.outputs.values.map Slot.muted = [false] := by decide +kernel
    intro key slot found
    have member : slot.muted ∈ limitedValve.outputs.values.map Slot.muted :=
      List.mem_map_of_mem (Table.mem_values.mpr ⟨key, found⟩)
    rw [outputs] at member
    exact List.mem_singleton.mp member
  obtain ⟨-, same, again⟩ :=
    files_keep_definition limitedValve_reached (by decide +kernel) limitedValve_readsBack
  exact ⟨(files_keep_definition valve_reached (by decide +kernel) valve_readsBack).1,
    by decide +kernel, by decide +kernel, by decide +kernel,
    same shown limitedValve_finite, again limitedValve_finite⟩

end Proofs.DefinitionFiles
end PeerMesh
