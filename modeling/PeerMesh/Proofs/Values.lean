import Mathlib.Data.List.Basic
import PeerMesh.Proofs.JsonTokens
import PeerMesh.Proofs.Names
import PeerMesh.Proofs.Outcomes
import PeerMesh.Value.Conversion

/-! Values in documents. A value is read as it was written, apart from doubles that are not finite,
for which there is no JSON. Converting into a type gives a value of that type, and one that is of it
stays. -/

namespace PeerMesh

/-- What is left of a value in a document. -/
def Value.asRead : Value → Value
  | .double d => if d.isFinite then .double d else .double Double.zero
  | value => value

namespace Proofs.Values
open Outcomes Text

private theorem type_of_ofText {s : String} {target : ValueType} {value : Value}
    (read : Value.ofText s target = .ok value) : value.type = target := by
  cases target with
  | string | impulsion | data =>
    cases read
    rfl
  | integer | double =>
    simp only [Value.ofText] at read
    split at read
    · cases read
      rfl
    · cases read
  | bool =>
    rw [Value.ofText] at read
    obtain ⟨b, -, rfl⟩ := map_eq_ok.mp read
    rfl

theorem convertOrFault_string (s : String) (target : ValueType) :
    (Value.string s).convertOrFault target = Value.ofText s target := by
  cases target <;> rfl

private theorem type_of_convertOrFault {value converted : Value} {target : ValueType}
    (done : value.convertOrFault target = .ok converted) : converted.type = target := by
  cases value with
  | string s =>
    rw [convertOrFault_string] at done
    exact type_of_ofText done
  | impulsion =>
    have anything : Value.impulsion.convertOrFault target = .ok (Value.default target) := by
      cases target <;> rfl
    rw [anything] at done
    cases done
    exact Value.type_default target
  | data bytes =>
    cases target with
    | string =>
      simp only [Value.convertOrFault] at done
      split at done
      · cases done
        rfl
      · cases done
    | data | impulsion =>
      cases done
      rfl
    | integer | double | bool => cases done
  | integer | double | bool =>
    cases target with
    | data => cases done
    | integer | double | string | bool | impulsion =>
      cases done
      rfl

theorem convertTo_eq_ok {value converted : Value} {target : ValueType} :
    value.convertTo target = .ok converted ↔ value.convertOrFault target = .ok converted := by
  unfold Value.convertTo
  cases value.convertOrFault target <;> simp

theorem type_of_convertTo {value converted : Value} {target : ValueType}
    (done : value.convertTo target = .ok converted) : converted.type = target :=
  type_of_convertOrFault (convertTo_eq_ok.mp done)

theorem convertTo_type (value : Value) : value.convertTo value.type = .ok value := by
  cases value <;> rfl

theorem type_asRead (value : Value) : value.asRead.type = value.type := by
  unfold Value.asRead
  split
  · split <;> rfl
  · rfl

private def digitChar (c : Char) : Bool :=
  String.utf8EncodeChar c == [c.toNat.toUInt8] && !isBlank c

private theorem digitChar_halves (b : UInt8) :
    digitChar (Hex.digit (b / 16)) = true ∧ digitChar (Hex.digit (b % 16)) = true := by
  have all : ∀ n : Fin 256, digitChar (Hex.digit (UInt8.ofFin n / 16)) = true ∧
      digitChar (Hex.digit (UInt8.ofFin n % 16)) = true := by decide +kernel
  exact all b.toFin

private theorem digitChar_encodeList {bytes : List UInt8} :
    ∀ c ∈ Hex.encodeList bytes, digitChar c = true := by
  intro c member
  obtain ⟨b, -, digit⟩ := List.mem_flatMap.mp member
  have halves := digitChar_halves b
  rcases List.mem_cons.mp digit with rfl | last
  · exact halves.1
  · rw [List.mem_singleton.mp last]
    exact halves.2

private theorem decodePairs_encodeList (bytes : List UInt8) (index : Nat) :
    Hex.decodePairs index ((Hex.encodeList bytes).map fun c => c.toNat.toUInt8) = .ok bytes := by
  induction bytes generalizing index with
  | nil => rfl
  | cons b bytes ih =>
    have whole : b / 16 * 16 + b % 16 = b := by
      have all : ∀ n : Fin 256, UInt8.ofFin n / 16 * 16 + UInt8.ofFin n % 16 = UInt8.ofFin n := by
        decide +kernel
      exact all b.toFin
    change Hex.decodePairs index ((Hex.digit (b / 16)).toNat.toUInt8 ::
      (Hex.digit (b % 16)).toNat.toUInt8 :: (Hex.encodeList bytes).map _) = _
    rw [Hex.decodePairs, Hex.value?_high, Hex.value?_low, ih (index + 2)]
    simp only [Except.map, whole]

private theorem length_encodeList (bytes : List UInt8) :
    (Hex.encodeList bytes).length = 2 * bytes.length := by
  induction bytes with
  | nil => rfl
  | cons b bytes ih =>
    rw [Hex.encodeList, List.flatMap_cons, List.length_append, ← Hex.encodeList, ih]
    simp only [List.length_cons, List.length_nil]
    omega

private theorem toByteArray_encode (bytes : Bytes) :
    (Hex.encode bytes).toByteArray.data.toList =
      (Hex.encodeList bytes.data.toList).map fun c => c.toNat.toUInt8 := by
  rw [← String.utf8Encode_toList, Hex.toList_encode, List.utf8Encode, List.data_toByteArray,
    List.map_eq_flatMap]
  refine List.flatMap_congr fun c member => ?_
  have digit := digitChar_encodeList c member
  exact eq_of_beq (Bool.and_eq_true_iff.mp digit).1

theorem decode_encode (bytes : Bytes) : Hex.decode (Hex.encode bytes) = .ok bytes := by
  have even : ¬((Hex.encodeList bytes.data.toList).map fun c => c.toNat.toUInt8).length % 2 = 1 := by
    rw [List.length_map, length_encodeList]
    omega
  rw [Hex.decode_eq, toByteArray_encode, Hex.decodeList, if_neg even, decodePairs_encodeList]
  rfl

theorem parse_encode (bytes : Bytes) :
    Value.parse .data (Hex.encode bytes) = .ok (.data bytes) := by
  have plain : ∀ c ∈ (Hex.encode bytes).toList, isBlank c = false := by
    intro c member
    rw [Hex.toList_encode] at member
    have digit := digitChar_encodeList c member
    simpa using (Bool.and_eq_true_iff.mp digit).2
  rw [Value.parse, trimmed, Names.trim_of_plain plain, String.ofList_toList, decode_encode]

/-- A double that is written is read back. -/
def ReadsBack : Value → Prop
  | .double d => d.isFinite = true → JsonTokens.ReadsBack d
  | _ => True

/-- What a document holds of a value: null counts as nothing. -/
def written (value : Value) : Option Json :=
  match value with
  | .double d => if d.isFinite then value.toJson else none
  | _ => value.toJson

/-- A value is taken from its document as what is left of it; where nothing is left, its type gives
the value. -/
theorem ofJson_written (value : Value) :
    (written value).elim (.ok (Value.default value.type)) (Value.ofJson value.type) =
      .ok value.asRead := by
  cases value with
  | integer i =>
    have fits : i.toInt < 9223372036854775808 := by
      have := i.toInt_lt
      omega
    simp [written, Value.toJson, Value.ofJson, Value.integerOfNumber, Value.asRead, Value.type, fits]
  | double d =>
    cases finite : d.isFinite with
    | true => simp [written, Value.toJson, Json.ofDouble, Value.ofJson, Value.asRead, finite,
        Json.Number.toDouble, Value.type]
    | false => simp [written, finite, Value.asRead, Value.default, Value.type]
  | string s | bool b | impulsion => rfl
  | data bytes => exact parse_encode bytes

end Proofs.Values
end PeerMesh
