import PeerMesh.Command.Frames
import PeerMesh.Proofs.Numerals
import PeerMesh.Proofs.Outcomes

/-! Data messages in frames. A message survives its frames: doubles travel as bits, so even a NaN comes back
as it was. Three frames are read where the name is text, the tag is a numeral of some type and the bytes
have the shape of that type. Frames of one message differ only in how the tag is spelled, in which byte
stands for true, and in what is sent along with an impulsion. -/

namespace PeerMesh

namespace ValueType

/-- The tag in decimal digits, behind any number of zeros and perhaps a plus sign. -/
def Spells (type : ValueType) (frame : Bytes) : Prop :=
  ∃ plus : Bool, ∃ zeros, frame = (String.ofList ((if plus then ['+'] else []) ++
    (List.replicate zeros '0' ++ Nat.toDigits 10 type.tag))).toByteArray

/-- The bytes that can stand for a value of a type. -/
def Shapes (bytes : Bytes) : ValueType → Prop
  | .integer => bytes.size = 4
  | .double => bytes.size = 8
  | .string => bytes.IsValidUTF8
  | .bool => bytes.size = 1
  | .impulsion | .data => True

/-- Whether bytes that stand for values of a type stand for the same value. -/
def Alike (one two : Bytes) : ValueType → Prop
  | .integer | .double | .string | .data => one = two
  | .bool => one = Bytes.ofList [0] ↔ two = Bytes.ofList [0]
  | .impulsion => True

theorem Alike.refl (type : ValueType) (bytes : Bytes) : type.Alike bytes bytes := by
  cases type with
  | integer | double | string | data => exact rfl
  | bool => exact Iff.rfl
  | impulsion => trivial

theorem Alike.symm {type : ValueType} {one two : Bytes} (alike : type.Alike one two) :
    type.Alike two one := by
  cases type with
  | integer | double | string | data => exact Eq.symm alike
  | bool => exact Iff.symm alike
  | impulsion => trivial

theorem Alike.trans {type : ValueType} {one two three : Bytes} (first : type.Alike one two)
    (second : type.Alike two three) : type.Alike one three := by
  cases type with
  | integer | double | string | data => exact Eq.trans first second
  | bool => exact Iff.trans first second
  | impulsion => trivial

theorem ofTag?_eq_some_iff {tag : Nat} {type : ValueType} : ofTag? tag = some type ↔ tag = type.tag := by
  constructor
  · intro found
    have same : (type.tag == tag) = true := List.find?_some (p := fun t : ValueType => t.tag == tag) found
    exact (eq_of_beq same).symm
  · rintro rfl
    exact ofTag?_tag type

end ValueType

namespace DataMessage

/-- Frames from which a message with a value of this type can be read. -/
inductive Readable : List Bytes → ValueType → Prop where
  | frames {name tag bytes : Bytes} {type : ValueType} (named : name.IsValidUTF8)
      (tagged : type.Spells tag) (shaped : type.Shapes bytes) : Readable [name, tag, bytes] type

/-- Frames that agree in all that counts. -/
inductive Agree : List Bytes → List Bytes → Prop where
  | frames {type : ValueType} {tag other one two : Bytes} (name : Bytes) (tagged : type.Spells tag)
      (retagged : type.Spells other) (alike : type.Alike one two) :
      Agree [name, tag, one] [name, other, two]

end DataMessage

namespace Proofs.DataMessages
open Numerals Outcomes Text

private theorem toBytes_ofList (bytes : List UInt8) : (Bytes.ofList bytes).toBytes = bytes := rfl

private theorem size_ofList_little (count n : Nat) :
    (Bytes.ofList (Bytes.little count n)).size = count := Bytes.length_little count n

private theorem int32_of_bytes (i : Int32) :
    (UInt32.ofNat (Bytes.ofLittle (Bytes.little 4 i.toUInt32.toNat))).toInt32 = i := by
  have fits : i.toUInt32.toNat % Bytes.space 4 = i.toUInt32.toNat :=
    Nat.mod_eq_of_lt i.toUInt32.toNat_lt
  rw [Bytes.ofLittle_little, fits, UInt32.ofNat_toNat]
  rfl

private theorem bits_of_bytes (bits : UInt64) :
    UInt64.ofNat (Bytes.ofLittle (Bytes.little 8 bits.toNat)) = bits := by
  have fits : bits.toNat % Bytes.space 8 = bits.toNat := Nat.mod_eq_of_lt bits.toNat_lt
  rw [Bytes.ofLittle_little, fits, UInt64.ofNat_toNat]

theorem ofWire_toWire (value : Value) : Value.ofWire value.type value.toWire = .ok value := by
  cases value with
  | integer i =>
    simp only [Value.type, Value.toWire, Value.ofWire, size_ofList_little, if_true, toBytes_ofList,
      int32_of_bytes]
  | double d =>
    simp only [Value.type, Value.toWire, Value.ofWire, size_ofList_little, if_true, toBytes_ofList,
      bits_of_bytes]
  | string s => simp only [Value.type, Value.toWire, Value.ofWire, Utf8.decode?_toByteArray]
  | bool b => cases b <;> rfl
  | impulsion => rfl
  | data bytes => rfl

theorem tagType_tag (type : ValueType) :
    DataMessage.tagType (toString type.tag).toByteArray = .ok type := by
  cases type <;> rfl

theorem ofFrames_toFrames (m : DataMessage) : DataMessage.ofFrames m.toFrames = .ok m := by
  simp only [DataMessage.toFrames, DataMessage.ofFrames, Utf8.decode?_toByteArray, tagType_tag,
    ofWire_toWire]
  rfl

/-- Values that follow each other by threes are read one by one. -/
theorem valuesOfFrames?_toFrames (values : List DataMessage) :
    Command.valuesOfFrames? (values.flatMap DataMessage.toFrames) = some values := by
  induction values with
  | nil => rfl
  | cons m values ih =>
    have first := ofFrames_toFrames m
    simp only [DataMessage.toFrames] at first ih
    simp only [List.flatMap_cons, DataMessage.toFrames, List.cons_append, List.nil_append,
      Command.valuesOfFrames?, first, ih]
    rfl

theorem decode?_isSome_iff {bytes : Bytes} : (∃ s, Utf8.decode? bytes = some s) ↔ bytes.IsValidUTF8 := by
  constructor
  · rintro ⟨s, read⟩
    rw [Utf8.eq_toByteArray_of_decode? read]
    exact s.isValidUTF8
  · intro valid
    exact ⟨_, dif_pos valid⟩

theorem tagType_eq_ok {frame : Bytes} {type : ValueType} :
    DataMessage.tagType frame = .ok type ↔ type.Spells frame := by
  have small : type.tag ≤ 255 := by cases type <;> decide
  have spelled (text : String) :
      (natural? 255 text).bind ValueType.ofTag? = some type ↔ type.Spells text.toByteArray := by
    simp only [Option.bind_eq_some_iff, ValueType.ofTag?_eq_some_iff, exists_eq_right,
      natural?_eq_some_iff, small, true_and, ValueType.Spells, String.toByteArray_inj,
      ← String.toList_inj, String.toList_ofList]
  unfold DataMessage.tagType
  cases read : Utf8.decode? frame with
  | none =>
    refine ⟨fun tagged => (by cases tagged), ?_⟩
    rintro ⟨plus, zeros, rfl⟩
    rw [Utf8.decode?_toByteArray] at read
    cases read
  | some text =>
    obtain rfl := Utf8.eq_toByteArray_of_decode? read
    rw [← spelled]
    dsimp only [Option.getD_some]
    split
    next known same => rw [same, Option.some.injEq, Except.ok.injEq]
    next unknown => simp [unknown]

private theorem ofList_little_ofLittle {bytes : Bytes} {count : Nat} (size : bytes.size = count) :
    Bytes.ofList (Bytes.little count (Bytes.ofLittle bytes.toBytes)) = bytes := by
  subst size
  exact congrArg Bytes.ofList (Bytes.little_ofLittle bytes.toBytes)

/-- The bytes from which a value is read have the shape of its type, and stand for what its own bytes stand
for. -/
theorem toWire_of_ofWire {type : ValueType} {bytes : Bytes} {value : Value}
    (read : Value.ofWire type bytes = .ok value) :
    value.type = type ∧ type.Shapes bytes ∧ type.Alike bytes value.toWire := by
  cases type with
  | integer =>
    simp only [Value.ofWire] at read
    split at read
    next size =>
      cases read
      have below : Bytes.ofLittle bytes.toBytes < 2 ^ 32 := by
        have less := Bytes.ofLittle_lt bytes.toBytes
        rwa [show bytes.toBytes.length = 4 from size] at less
      have number : (UInt32.ofNat (Bytes.ofLittle bytes.toBytes)).toNat =
          Bytes.ofLittle bytes.toBytes := UInt32.toNat_ofNat_of_lt' below
      refine ⟨rfl, size, ?_⟩
      rw [Value.toWire, UInt32.toUInt32_toInt32, number]
      exact (ofList_little_ofLittle size).symm
    next => cases read
  | double =>
    simp only [Value.ofWire] at read
    split at read
    next size =>
      cases read
      have below : Bytes.ofLittle bytes.toBytes < 2 ^ 64 := by
        have less := Bytes.ofLittle_lt bytes.toBytes
        rwa [show bytes.toBytes.length = 8 from size] at less
      have number : (UInt64.ofNat (Bytes.ofLittle bytes.toBytes)).toNat =
          Bytes.ofLittle bytes.toBytes := UInt64.toNat_ofNat_of_lt' below
      refine ⟨rfl, size, ?_⟩
      rw [Value.toWire, number]
      exact (ofList_little_ofLittle size).symm
    next => cases read
  | string =>
    simp only [Value.ofWire] at read
    split at read
    next s text =>
      cases read
      exact ⟨rfl, decode?_isSome_iff.mp ⟨s, text⟩, Utf8.eq_toByteArray_of_decode? text⟩
    next => cases read
  | bool =>
    simp only [Value.ofWire] at read
    split at read
    next b one =>
      cases read
      have same : bytes = Bytes.ofList [b] := congrArg Bytes.ofList one
      refine ⟨rfl, same ▸ rfl, ?_⟩
      subst same
      by_cases zero : b = 0
      · subst zero
        exact Iff.rfl
      · rw [bne_iff_ne.mpr zero]
        refine ⟨fun equal => absurd ?_ zero, fun equal => absurd equal (by decide)⟩
        exact (List.cons.inj (congrArg Bytes.toBytes equal)).1
    next => cases read
  | impulsion =>
    cases read
    exact ⟨rfl, trivial, trivial⟩
  | data =>
    cases read
    exact ⟨rfl, trivial, rfl⟩

theorem ofWire_of_shapes {type : ValueType} {bytes : Bytes} (shaped : type.Shapes bytes) :
    ∃ value, Value.ofWire type bytes = .ok value := by
  cases type with
  | integer | double => exact ⟨_, if_pos shaped⟩
  | string =>
    obtain ⟨s, text⟩ := decode?_isSome_iff.mpr shaped
    exact ⟨.string s, by rw [Value.ofWire, text]⟩
  | bool =>
    obtain ⟨b, one⟩ := List.length_eq_one_iff.mp (show bytes.toBytes.length = 1 from shaped)
    exact ⟨.bool (b != 0), by rw [Value.ofWire, one]⟩
  | impulsion | data => exact ⟨_, rfl⟩

/-- The bytes of a value tell it from every other value of its type. -/
theorem eq_iff_alike_toWire {one two : Value} (typed : one.type = two.type) :
    one = two ↔ one.type.Alike one.toWire two.toWire := by
  refine ⟨fun same => same ▸ ValueType.Alike.refl _ _, fun alike => ?_⟩
  have read := ofWire_toWire one
  have again := ofWire_toWire two
  cases one with
  | integer | double | string | data =>
    rw [← typed, ← show _ = two.toWire from alike] at again
    exact Except.ok.inj (read.symm.trans again)
  | bool b =>
    cases two with
    | bool c =>
      have told (b : Bool) : (Value.bool b).toWire = Bytes.ofList [0] ↔ b = false := by
        cases b <;> decide
      have same : b = false ↔ c = false := (told b).symm.trans (Iff.trans alike (told c))
      revert same
      cases b <;> cases c <;> simp
    | integer | double | string | impulsion | data => cases typed
  | impulsion =>
    cases two with
    | impulsion => rfl
    | integer | double | string | bool | data => cases typed

theorem eq_iff_alike {type : ValueType} {bytes other : Bytes} {one two : Value}
    (read : Value.ofWire type bytes = .ok one) (again : Value.ofWire type other = .ok two) :
    one = two ↔ type.Alike bytes other := by
  obtain ⟨typed, -, first⟩ := toWire_of_ofWire read
  obtain ⟨retyped, -, second⟩ := toWire_of_ofWire again
  rw [eq_iff_alike_toWire (typed.trans retyped.symm), typed]
  exact ⟨fun alike => (first.trans alike).trans second.symm,
    fun alike => (first.symm.trans alike).trans second⟩

theorem ofFrames_eq_ok {frames : List Bytes} {m : DataMessage} :
    DataMessage.ofFrames frames = .ok m ↔ ∃ tag bytes, frames = [m.name.toByteArray, tag, bytes] ∧
      m.value.type.Spells tag ∧ Value.ofWire m.value.type bytes = .ok m.value := by
  constructor
  · intro read
    unfold DataMessage.ofFrames at read
    split at read
    next name tag bytes =>
      split at read
      · cases read
      next text named =>
        split at read
        · cases read
        next type tagged =>
          obtain ⟨value, valued, rfl⟩ := map_eq_ok.mp read
          obtain ⟨rfl, -⟩ := toWire_of_ofWire valued
          rw [Utf8.eq_toByteArray_of_decode? named]
          exact ⟨tag, bytes, rfl, tagType_eq_ok.mp tagged, valued⟩
    next => cases read
  · rintro ⟨tag, bytes, rfl, spelled, valued⟩
    simp only [DataMessage.ofFrames, Utf8.decode?_toByteArray, tagType_eq_ok.mpr spelled, valued]
    rfl

theorem spells_unique {type other : ValueType} {frame : Bytes} (spelled : type.Spells frame)
    (respelled : other.Spells frame) : type = other :=
  Except.ok.inj ((tagType_eq_ok.mpr spelled).symm.trans (tagType_eq_ok.mpr respelled))

theorem agree_iff {name rival tag other one two : Bytes} :
    DataMessage.Agree [name, tag, one] [rival, other, two] ↔
      name = rival ∧ ∃ type : ValueType, type.Spells tag ∧ type.Spells other ∧ type.Alike one two := by
  constructor
  · rintro ⟨_, tagged, retagged, alike⟩
    exact ⟨rfl, _, tagged, retagged, alike⟩
  · rintro ⟨rfl, type, tagged, retagged, alike⟩
    exact .frames _ tagged retagged alike

/-- A message survives its frames. Frames are read if they are three and each is as it is to be; the value
has the type that the tag tells. Two messages that are read are the same if and only if their frames agree
in all that counts. -/
theorem frames_tell_messages :
    (∀ m : DataMessage, DataMessage.ofFrames m.toFrames = .ok m) ∧
    (∀ frames type, (∃ m, DataMessage.ofFrames frames = .ok m ∧ m.value.type = type) ↔
      DataMessage.Readable frames type) ∧
    ∀ {frames others m n}, DataMessage.ofFrames frames = .ok m → DataMessage.ofFrames others = .ok n →
      (m = n ↔ DataMessage.Agree frames others) := by
  refine ⟨ofFrames_toFrames, fun frames type => ⟨?_, ?_⟩, fun {frames others m n} read again => ?_⟩
  · rintro ⟨m, read, rfl⟩
    obtain ⟨tag, bytes, rfl, spelled, valued⟩ := ofFrames_eq_ok.mp read
    exact .frames m.name.isValidUTF8 spelled (toWire_of_ofWire valued).2.1
  · rintro ⟨named, tagged, shaped⟩
    obtain ⟨name, text⟩ := decode?_isSome_iff.mpr named
    obtain ⟨value, valued⟩ := ofWire_of_shapes shaped
    obtain ⟨rfl, -⟩ := toWire_of_ofWire valued
    rw [Utf8.eq_toByteArray_of_decode? text]
    exact ⟨⟨name, value⟩, ofFrames_eq_ok.mpr ⟨_, _, rfl, tagged, valued⟩, rfl⟩
  · obtain ⟨tag, bytes, rfl, spelled, valued⟩ := ofFrames_eq_ok.mp read
    obtain ⟨other, rest, rfl, respelled, revalued⟩ := ofFrames_eq_ok.mp again
    rw [agree_iff]
    constructor
    · rintro rfl
      exact ⟨rfl, m.value.type, spelled, respelled, (eq_iff_alike valued revalued).mp rfl⟩
    · rintro ⟨named, type, tagged, retagged, alike⟩
      have typed : m.value.type = type := spells_unique spelled tagged
      have retyped : n.value.type = type := spells_unique respelled retagged
      rw [typed] at valued
      rw [retyped] at revalued
      have value := (eq_iff_alike valued revalued).mpr alike
      obtain ⟨name, _⟩ := m
      obtain ⟨_, _⟩ := n
      cases String.toByteArray_inj.mp named
      cases value
      rfl

private def lampFrames (tag : String) (byte : UInt8) : List Bytes :=
  ["lamp".toByteArray, tag.toByteArray, Bytes.ofList [byte]]

/-- A lamp that is on is told with a plus sign, zeros and another byte than one, but not with zero. -/
theorem lamp_is_told_otherwise :
    DataMessage.ofFrames (lampFrames "+004" 7) = .ok ⟨"lamp", .bool true⟩ ∧
    DataMessage.Readable (lampFrames "+004" 7) .bool ∧
    DataMessage.Agree (lampFrames "4" 1) (lampFrames "+004" 7) ∧
    ¬DataMessage.Agree (lampFrames "4" 1) (lampFrames "4" 0) := by
  obtain ⟨-, reads, told⟩ := frames_tell_messages
  have lit : DataMessage.ofFrames (lampFrames "4" 1) = .ok ⟨"lamp", .bool true⟩ := by decide +kernel
  have odd : DataMessage.ofFrames (lampFrames "+004" 7) = .ok ⟨"lamp", .bool true⟩ := by
    decide +kernel
  have dark : DataMessage.ofFrames (lampFrames "4" 0) = .ok ⟨"lamp", .bool false⟩ := by
    decide +kernel
  exact ⟨odd, (reads _ _).mp ⟨_, odd, rfl⟩, (told lit odd).mp rfl, mt (told lit dark).mpr (by decide)⟩

end Proofs.DataMessages
end PeerMesh
