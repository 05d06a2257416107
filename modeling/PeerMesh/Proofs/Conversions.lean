import PeerMesh.Proofs.DisplayedValues
import PeerMesh.Proofs.Inlets

/-! Conversion and acceptance. Whatever a type accepts converts into it, apart from texts that are to
spell a number or a truth value, so that what comes from a resolved output is refused for its size
alone. Where a conversion loses nothing, the way back leads to the same value. -/

namespace PeerMesh

/-- A text that is to be read as a number or as a truth value. -/
def Value.Spells (value : Value) (target : ValueType) : Prop :=
  value.type = .string ∧ target.isNumeric = true

/-- Converts a value into a type and back into its own. -/
def Value.through (value : Value) (type : ValueType) : Except ModelFault Value :=
  (value.convertTo type).bind fun converted => converted.convertTo value.type

/-- An element that has been resolved, and a value of its output that its input need not spell out. -/
structure Element.Carries (e : Element) (own : Definition) (peerName : String) (peer : Definition)
    (value : Value) : Prop where
  resolved : e.resolves own peerName peer = true
  typed : ∀ output, peer.output? e.output = some output → value.type = output.type
  plain : ∀ input, own.input? e.input = some input → ¬value.Spells input.type

/-- An entry that stores a value, or tells that what was to be stored is too long. -/
def Element.RefusesSizeOnly (e : Element) (entry : Except ModelFault InputUpdate) : Prop :=
  (∃ stored, entry = .ok ⟨e.input, stored⟩) ∨
    ∃ size, Limits.value < size ∧ entry = .error (.valueTooLarge e.input size)

namespace Proofs.Conversions
open DisplayedValues Inlets Text Values

variable {value : Value} {target : ValueType} {a : Agent}

theorem converts_of_accepts (accepts : target.accepts value.type = true)
    (plain : ¬value.Spells target) : ∃ converted, value.convertTo target = .ok converted := by
  simp only [convertTo_eq_ok]
  cases value with
  | integer i | double d | bool b =>
    cases target with
    | data => cases accepts
    | integer | double | string | bool | impulsion => exact ⟨_, rfl⟩
  | string s =>
    cases target with
    | data => cases accepts
    | integer | double | bool => exact absurd ⟨rfl, rfl⟩ plain
    | string | impulsion => exact ⟨_, rfl⟩
  | impulsion => cases target <;> exact ⟨_, rfl⟩
  | data bytes =>
    cases target with
    | data | impulsion => exact ⟨_, rfl⟩
    | integer | double | string | bool => cases accepts

theorem data_to_numeric (bytes : Bytes) (numeric : target.isNumeric = true) :
    (Value.data bytes).convertTo target =
      .error (.conversion .data target .dataConvertsToDataOnly) := by
  cases target with
  | integer | double | bool => rfl
  | string | impulsion | data => cases numeric

theorem numeric_to_data (numeric : value.type.isNumeric = true) :
    value.convertTo .data = .error (.conversion value.type .data .onlyTextConvertsToData) := by
  cases value with
  | integer | double | bool => rfl
  | string | impulsion | data => cases numeric

theorem refuses_size_only {e : Element} {peerName : String} {peer : Definition}
    {entry : Except ModelFault InputUpdate} (contributes : a.Contributes value e entry)
    (carries : e.Carries a.definition peerName peer value) : e.RefusesSizeOnly entry := by
  cases contributes with
  | update => exact .inl ⟨_, rfl⟩
  | tooLarge _ _ long => exact .inr ⟨_, long, rfl⟩
  | unconverted found refused =>
    obtain ⟨-, output, input, provided, present, accepts⟩ :=
      Resolution.resolves_iff.mp carries.resolved
    cases found.symm.trans present
    rw [← carries.typed output provided] at accepts
    obtain ⟨converted, done⟩ := converts_of_accepts accepts (carries.plain _ found)
    cases done.symm.trans refused

/-- The elements that feed inputs from a message contribute in the order of the mapping. -/
theorem deliver_refuses_size_only (thawed : a.frozen = false) (peerName : String)
    (peer : Definition) (m : DataMessage) :
    ∃ entries,
      List.Forall₂ (fun e entry => e.Carries a.definition peerName peer m.value →
        e.RefusesSizeOnly entry) (a.inlets peerName m.name) entries ∧
      (a.deliver peerName m).updates = updatesOf entries ∧
      (a.deliver peerName m).faults = faultsOf entries := by
  have delivered : a.deliver peerName m =
      (a.mapping.elementsFor peerName m.name).foldl (Delivery.write m.value) ⟨a, [], []⟩ :=
    if_neg (by simp [thawed])
  obtain ⟨entries, each, updates, faults⟩ :=
    @foldl_write a m.value ⟨a, [], []⟩ (a.mapping.elementsFor peerName m.name) rfl
  rw [delivered, inlets_eq]
  exact ⟨entries, each.imp fun _ _ => refuses_size_only, updates, faults⟩

theorem through_eq_ok {middle : Value} (there : value.convertTo target = .ok middle)
    (back : middle.convertTo value.type = .ok value) : value.through target = .ok value := by
  rw [Value.through, there]
  exact back

theorem convertTo_string (other : value.type ≠ .data) :
    value.convertTo .string = .ok (.string value.display) := by
  cases value with
  | data bytes => exact absurd rfl other
  | integer | double | string | bool | impulsion => rfl

/-- The text that tells a value is read as the value. -/
theorem through_string (telling : value.Telling) (other : value.type ≠ .data) :
    value.through .string = .ok value :=
  through_eq_ok (convertTo_string other) (convertTo_display telling other)

theorem bool_through_integer (b : Bool) : (Value.bool b).through .integer = .ok (.bool b) := by
  cases b <;> rfl

theorem string_of_data {bytes : Bytes} {s : String} :
    (Value.data bytes).convertTo .string = .ok (.string s) ↔ bytes = s.toByteArray := by
  rw [convertTo_eq_ok, Value.convertOrFault, Utf8.decode]
  constructor
  · intro read
    split at read
    next text decoded =>
      split at decoded
      next _ valid =>
        cases decoded
        cases read
        exact Utf8.eq_toByteArray_of_decode? valid
      next => cases decoded
    next => cases read
  · rintro rfl
    rw [Utf8.decode?_toByteArray]

theorem string_through_data (s : String) : (Value.string s).through .data = .ok (.string s) :=
  through_eq_ok rfl (string_of_data.mpr rfl)

theorem data_through_string {bytes : Bytes} {text : Value}
    (there : (Value.data bytes).convertTo .string = .ok text) :
    (Value.data bytes).through .string = .ok (.data bytes) := by
  have typed := type_of_convertTo there
  cases text with
  | string s =>
    refine through_eq_ok there ?_
    rw [string_of_data.mp there]
    rfl
  | integer | double | bool | impulsion | data => cases typed

/-- Conversions give values of the type that is asked for, and fail for no type that accepts the value
unless it is a text to be spelled: what is delivered from a resolved output is refused for its size
only. Data and numbers do not convert into each other. Integers and truth values come back from text,
truth values from integers, text from data, and data from text wherever they are one. -/
theorem conversion_agrees_with_acceptance :
    (∀ (value : Value) (target : ValueType) (converted : Value),
      value.convertTo target = .ok converted → converted.type = target) ∧
    (∀ (value : Value) (target : ValueType), target.accepts value.type = true →
      ¬value.Spells target → ∃ converted, value.convertTo target = .ok converted) ∧
    (∀ (a : Agent) (peerName : String) (peer : Definition) (m : DataMessage), a.frozen = false →
      ∃ entries,
        List.Forall₂ (fun e entry => e.Carries a.definition peerName peer m.value →
          e.RefusesSizeOnly entry) (a.inlets peerName m.name) entries ∧
        (a.deliver peerName m).updates = updatesOf entries ∧
        (a.deliver peerName m).faults = faultsOf entries) ∧
    (∀ (bytes : Bytes) (target : ValueType), target.isNumeric = true →
      (Value.data bytes).convertTo target =
        .error (.conversion .data target .dataConvertsToDataOnly)) ∧
    (∀ value : Value, value.type.isNumeric = true →
      value.convertTo .data = .error (.conversion value.type .data .onlyTextConvertsToData)) ∧
    (∀ i, (Value.integer i).through .string = .ok (.integer i)) ∧
    (∀ b, (Value.bool b).through .string = .ok (.bool b)) ∧
    (∀ b, (Value.bool b).through .integer = .ok (.bool b)) ∧
    (∀ s, (Value.string s).through .data = .ok (.string s)) ∧
    ∀ bytes text, (Value.data bytes).convertTo .string = .ok text →
      (Value.data bytes).through .string = .ok (.data bytes) := by
  refine ⟨fun _ _ _ => type_of_convertTo, fun _ _ => converts_of_accepts,
    fun _ peerName peer m thawed => deliver_refuses_size_only thawed peerName peer m,
    fun bytes _ => data_to_numeric bytes, fun _ => numeric_to_data, fun i => ?_, fun b => ?_,
    bool_through_integer, string_through_data, fun _ _ => data_through_string⟩
  · exact through_string trivial (by simp [Value.type])
  · exact through_string trivial (by simp [Value.type])

end Proofs.Conversions
end PeerMesh
