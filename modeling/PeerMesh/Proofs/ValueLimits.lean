import PeerMesh.Proofs.Publications
import PeerMesh.Proofs.SlotOperations
import PeerMesh.Proofs.Streams

/-! Values and the limit that is set to them. What is written to a slot is held to the limit, so that
a message with it fits into one frame. What a slot is given when it is created or read is not: such a
value may be of any size, and stays until something is written over it. -/

namespace PeerMesh

/-- The value that a slot was given when it came about, while nothing has been written over it. -/
inductive Definition.Unwritten (start : Definition) (kind : SlotKind) (name : String) :
    List SlotOperation → Value → Prop where
  | begun {slot : Slot} (found : start.get? kind name = some slot) :
      Unwritten start kind name [] slot.value
  | created {operations : List SlotOperation} {given : String} {type : ValueType}
      {initial : Option Value} {stored : Value} {after : Definition}
      (done : (start.performAll operations).attempt (.create kind given type initial) = .ok after)
      (named : Name.sanitize given = name) (fills : Definition.Fills type initial stored) :
      Unwritten start kind name (operations ++ [.create kind given type initial]) stored
  | refused {operations : List SlotOperation} {operation : SlotOperation} {value : Value}
      {fault : ModelFault} (before : Unwritten start kind name operations value)
      (refused : (start.performAll operations).attempt operation = .error fault) :
      Unwritten start kind name (operations ++ [operation]) value
  | elsewhere {operations : List SlotOperation} {operation : SlotOperation} {value : Value}
      (before : Unwritten start kind name operations value)
      (stays : operation ≠ .remove kind name) (other : ∀ w, operation ≠ .write kind name w) :
      Unwritten start kind name (operations ++ [operation]) value

namespace Proofs.ValueLimits
open Framing Multipart SlotOperations

variable {start d after : Definition} {kind : SlotKind} {name : String} {slot : Slot}
  {value : Value} {operations : List SlotOperation} {operation : SlotOperation}

/-- Where a slot has its value from, after an operation that was carried out. -/
inductive Source (d : Definition) (kind : SlotKind) (name : String) (value : Value) :
    SlotOperation → Prop where
  | created {given : String} {type : ValueType} {initial : Option Value}
      (named : Name.sanitize given = name) (fills : Definition.Fills type initial value) :
      Source d kind name value (.create kind given type initial)
  | written {source : Value} (fits : value.size ≤ Limits.value) :
      Source d kind name value (.write kind name source)
  | kept {operation : SlotOperation} {slot : Slot} (found : d.get? kind name = some slot)
      (same : slot.value = value) (stays : operation ≠ .remove kind name)
      (other : ∀ w, operation ≠ .write kind name w) : Source d kind name value operation

def place : SlotOperation → SlotKind × String
  | .create kind name _ _ => (kind, Name.sanitize name)
  | .remove kind name => (kind, name)
  | .write kind name _ => (kind, name)
  | .muteOutput name _ => (.output, name)

theorem get?_of_place_ne (becomes : d.Becomes after operation)
    (elsewhere : place operation ≠ (kind, name)) : after.get? kind name = d.get? kind name := by
  have puts : ∃ result, d.Puts after (place operation).1 (place operation).2 result := by
    cases operation with
    | create =>
      obtain ⟨-, -, stored, -, puts⟩ := becomes
      exact ⟨_, puts⟩
    | remove => exact ⟨_, becomes.2⟩
    | write =>
      obtain ⟨slot, stored, -, -, -, puts⟩ := becomes
      exact ⟨_, puts⟩
    | muteOutput =>
      obtain ⟨slot, -, puts⟩ := becomes
      exact ⟨_, puts⟩
  obtain ⟨result, puts⟩ := puts
  rw [puts.slots, if_neg fun here => elsewhere (Prod.ext here.1 here.2)]

theorem source_of_becomes (becomes : d.Becomes after operation)
    (found : after.get? kind name = some slot) : Source d kind name slot.value operation := by
  by_cases here : place operation = (kind, name)
  · cases operation with
    | create given other type initial =>
      cases here
      obtain ⟨-, -, stored, fills, puts⟩ := becomes
      rw [puts.slots, if_pos ⟨rfl, rfl⟩] at found
      cases found
      exact .created rfl fills
    | remove =>
      cases here
      rw [becomes.2.slots, if_pos ⟨rfl, rfl⟩] at found
      cases found
    | write =>
      cases here
      obtain ⟨before, stored, -, -, fits, puts⟩ := becomes
      rw [puts.slots, if_pos ⟨rfl, rfl⟩] at found
      cases found
      exact .written fits
    | muteOutput =>
      cases here
      obtain ⟨before, present, puts⟩ := becomes
      rw [puts.slots, if_pos ⟨rfl, rfl⟩] at found
      cases found
      exact .kept present rfl nofun nofun
  · rw [get?_of_place_ne becomes here] at found
    refine .kept found rfl (fun same => here ?_) fun w same => here ?_
    · rw [same, place]
    · rw [same, place]

/-- A value stays if its slot is neither removed nor written. -/
theorem value_of_becomes (becomes : d.Becomes after operation)
    (found : d.get? kind name = some slot) (stays : operation ≠ .remove kind name)
    (other : ∀ w, operation ≠ .write kind name w) :
    ∃ now, after.get? kind name = some now ∧ now.value = slot.value := by
  by_cases here : place operation = (kind, name)
  · cases operation with
    | create =>
      cases here
      exact absurd ((becomes.2.1 _).symm.trans found) nofun
    | remove =>
      cases here
      exact absurd rfl stays
    | write =>
      cases here
      exact absurd rfl (other _)
    | muteOutput =>
      cases here
      obtain ⟨before, present, puts⟩ := becomes
      cases present.symm.trans found
      exact ⟨_, (puts.slots _ _).trans (if_pos ⟨rfl, rfl⟩), rfl⟩
  · exact ⟨slot, (get?_of_place_ne becomes here).trans found, rfl⟩

/-- A value was written, and is within the limit, or has been there since its slot came about. -/
theorem fits_or_unwritten (start : Definition) (operations : List SlotOperation)
    (found : (start.performAll operations).get? kind name = some slot) :
    slot.value.size ≤ Limits.value ∨ start.Unwritten kind name operations slot.value := by
  -- The last operation first, since it tells where the value is from.
  induction operations using List.reverseRecOn generalizing slot with
  | nil => exact .inr (.begun found)
  | append_singleton operations operation ih =>
    rw [performAll_concat] at found
    cases done : (start.performAll operations).attempt operation with
    | error fault =>
      rw [perform_of_refused done] at found
      exact (ih found).imp_right fun before => .refused before done
    | ok after =>
      rw [perform_of_done done] at found
      generalize same : slot.value = value
      have source := source_of_becomes ((attempt_eq_ok operation).mp done) found
      rw [same] at source
      cases source with
      | created named fills => exact .inr (.created done named fills)
      | written fits => exact .inl fits
      | kept present unchanged stays other =>
        have before := ih present
        rw [unchanged] at before
        exact before.imp_right fun before => .elsewhere before stays other

theorem fills_unique {type : ValueType} {initial : Option Value} {one two : Value}
    (first : Definition.Fills type initial one) (second : Definition.Fills type initial two) :
    one = two := by
  cases initial with
  | none => exact first.trans second.symm
  | some source => exact Except.ok.inj (first.symm.trans second)

theorem holds_of_unwritten (unwritten : start.Unwritten kind name operations value) :
    ∃ slot, (start.performAll operations).get? kind name = some slot ∧ slot.value = value := by
  induction unwritten with
  | begun found => exact ⟨_, found, rfl⟩
  | created done named fills =>
    obtain ⟨-, -, stored, filled, puts⟩ := (attempt_eq_ok _).mp done
    rw [performAll_concat, perform_of_done done, puts.slots, if_pos ⟨rfl, named⟩]
    exact ⟨_, rfl, fills_unique filled fills⟩
  | refused before refused ih =>
    obtain ⟨slot, found, holds⟩ := ih
    rw [performAll_concat, perform_of_refused refused]
    exact ⟨slot, found, holds⟩
  | @elsewhere operations operation value before stays other ih =>
    obtain ⟨slot, found, rfl⟩ := ih
    rw [performAll_concat]
    cases done : (start.performAll operations).attempt operation with
    | error fault =>
      rw [perform_of_refused done]
      exact ⟨slot, found, rfl⟩
    | ok after =>
      rw [perform_of_done done]
      exact value_of_becomes ((attempt_eq_ok operation).mp done) found stays other

theorem size_utf8Encode_le (cs : List Char) : cs.utf8Encode.size ≤ 4 * cs.length := by
  induction cs with
  | nil => exact Nat.zero_le _
  | cons c cs ih =>
    have first : [c].utf8Encode.size = c.utf8Size := by
      rw [List.utf8Encode_singleton, List.size_toByteArray, String.length_utf8EncodeChar]
    have most := c.utf8Size_le_four
    rw [List.utf8Encode_cons, ByteArray.size_append, first, List.length_cons]
    omega

/-- A clean name is short, and so are its bytes. -/
theorem size_of_isClean (clean : Name.isClean name = true) :
    name.utf8ByteSize ≤ 4 * Name.maxLength := by
  have length : (Name.sanitizeList name.toList).length ≤ Name.maxLength := List.length_take_le _ _
  have bytes := size_utf8Encode_le (Name.sanitizeList name.toList)
  have spelled : name = String.ofList (Name.sanitizeList name.toList) :=
    (Names.sanitize_of_isClean clean).symm
  rw [spelled, ← String.size_toByteArray, String.toByteArray_ofList]
  omega

theorem size_toWire_le (value : Value) : value.toWire.size ≤ value.size + 8 := by
  cases value with
  | integer i => exact Nat.le_add_left 4 4
  | double d => exact Nat.le_refl 8
  | string s => exact Nat.le_add_right _ 8
  | bool b => exact Nat.le_add_left 1 7
  | impulsion => exact Nat.zero_le _
  | data bytes => exact Nat.le_add_right _ 8

/-- Four lengths and a tag travel with the name and the value. -/
theorem size_encode_message (m : DataMessage) :
    (encode m.toFrames).size = 17 + m.name.utf8ByteSize + m.value.toWire.size := by
  have tag : (toString m.value.type.tag).toByteArray.size = 1 := by
    cases m.value.type <;> rfl
  rw [encode_eq, DataMessage.toFrames, content, content, content, content]
  simp only [ByteArray.size_append, size_word, tag, ByteArray.size_empty, String.size_toByteArray]
  omega

theorem sends_of_fits (sound : slot.Sound name) (fits : slot.value.size ≤ Limits.value) :
    ∃ bytes, send slot.message.toFrames = .ok bytes := by
  have named : slot.message.name.utf8ByteSize ≤ 4 * Name.maxLength := by
    rw [Slot.message, sound.named]
    exact size_of_isClean sound.clean
  have wire : slot.message.value.toWire.size ≤ slot.value.size + 8 := size_toWire_le slot.value
  have room : 17 + 4 * Name.maxLength + (Limits.value + 8) ≤ Limits.frame := by decide
  refine ⟨_, send_eq_ok_iff.mpr ⟨?_, rfl⟩⟩
  rw [size_encode_message]
  omega

/-- No frame has room for a value of its own length. -/
theorem send_of_bulky {m : DataMessage} (bulky : Limits.frame ≤ m.value.toWire.size) :
    send m.toFrames = .error .writeTooLong := by
  apply Streams.send_of_long
  rw [size_encode_message]
  omega

theorem slot_of_prepare {a : Agent} {output : String} {m : DataMessage}
    (prepared : a.prepare output = .ok (.ok m)) :
    ∃ slot, a.definition.get? .output output = some slot ∧ slot.message = m := by
  unfold Agent.prepare at prepared
  split at prepared
  · cases prepared
  next slot found =>
    refine ⟨slot, found, ?_⟩
    have gate := Except.ok.inj prepared
    split at gate
    · cases gate
    · split at gate
      · cases gate
      · split at gate
        · cases gate
        · exact Except.ok.inj gate

/-- Only a value that a slot was given when it came about, and that has not been written over, can
be beyond the limit; every such value stays, whatever its size. A message with a value within the
limit goes into one frame. -/
theorem only_unwritten_values_exceed {start : Definition} (begun : start.Begun)
    (operations : List SlotOperation) :
    let d := start.performAll operations
    (∀ kind name, (∃ slot, d.get? kind name = some slot ∧ Limits.value < slot.value.size) ↔
      ∃ value, start.Unwritten kind name operations value ∧ Limits.value < value.size) ∧
    ∀ a : Agent, a.definition = d → ∀ m,
      (m ∈ a.openOutputs ∨ ∃ output, a.prepare output = .ok (.ok m)) →
        m.value.size ≤ Limits.value → ∃ bytes, send m.toFrames = .ok bytes := by
  intro d
  have regular : d.Regular := regular_performAll (regular_of_begun begun) operations
  refine ⟨fun kind name => ⟨?_, ?_⟩, fun a holds m made fits => ?_⟩
  · rintro ⟨slot, found, exceeds⟩
    have unwritten :=
      (fits_or_unwritten start operations found).resolve_left (Nat.not_le.mpr exceeds)
    exact ⟨slot.value, unwritten, exceeds⟩
  · rintro ⟨value, unwritten, exceeds⟩
    obtain ⟨slot, found, rfl⟩ := holds_of_unwritten unwritten
    exact ⟨slot, found, exceeds⟩
  · have made : ∃ name slot, d.get? .output name = some slot ∧ slot.message = m := by
      rw [← holds]
      rcases made with listed | ⟨output, prepared⟩
      · obtain ⟨-, -, output, slot, found, -, same⟩ := Publications.mem_openOutputs.mp listed
        exact ⟨output, slot, found, same⟩
      · exact ⟨output, slot_of_prepare prepared⟩
    obtain ⟨name, slot, found, rfl⟩ := made
    exact sends_of_fits (regular.slots .output name slot found) fits

private def bale : Bytes := ⟨Array.replicate Limits.frame 0⟩

private theorem size_bale : bale.size = Limits.frame := Array.size_replicate

private def baled : List SlotOperation := [.create .output "bale" .data (some (.data bale))]

private def baleSlot : Slot := ⟨"bale", .data, .data bale, false⟩

private theorem bale_created :
    (Definition.new "store").attempt (.create .output "bale" .data (some (.data bale))) =
      .ok { Definition.new "store" with outputs := Table.insert Table.empty "bale" baleSlot } := by
  have sanitized : Name.sanitize "bale" = "bale" := by decide
  refine (attempt_eq_ok _).mpr ⟨by decide, fun other => by cases other <;> rfl, .data bale, rfl, ?_⟩
  rw [sanitized]
  exact puts_insert (Definition.new "store") .output "bale" baleSlot

private theorem exceeds_bale : Limits.value < (Value.data bale).size := by
  rw [Value.size, size_bale]
  decide

private theorem bale_refused :
    ((Definition.new "store").performAll baled).attempt (.write .output "bale" (.data bale)) =
      .error (.valueTooLarge "bale" Limits.frame) := by
  have after : (Definition.new "store").performAll baled =
      { Definition.new "store" with outputs := Table.insert Table.empty "bale" baleSlot } :=
    perform_of_done bale_created
  have found : ((Definition.new "store").performAll baled).get? .output "bale" = some baleSlot := by
    rw [after]
    exact (Table.get?_insert Table.empty "bale" "bale" baleSlot).trans (if_pos rfl)
  have converts : (Value.data bale).convertTo baleSlot.type = .ok (.data bale) := rfl
  have refused : ((Definition.new "store").performAll baled).write .output "bale" (.data bale) =
      .error (.valueTooLarge "bale" (Value.data bale).size) := by
    simp only [Definition.write, found, converts]
    exact if_pos exceeds_bale
  rw [Definition.attempt, refused, Value.size, size_bale]
  rfl

/-- An output is created with a value that cannot be written to it and whose message cannot be
sent. -/
theorem bale_is_kept_unsent :
    (∃ slot, ((Definition.new "store").performAll baled).get? .output "bale" = some slot ∧
      Limits.value < slot.value.size) ∧
    ((Definition.new "store").performAll baled).attempt (.write .output "bale" (.data bale)) =
      .error (.valueTooLarge "bale" Limits.frame) ∧
    send (DataMessage.toFrames ⟨"bale", .data bale⟩) = .error .writeTooLong := by
  have unwritten : (Definition.new "store").Unwritten .output "bale" baled (.data bale) :=
    @Definition.Unwritten.created _ _ _ [] _ _ _ _ _ bale_created (by decide) rfl
  obtain ⟨beyond, -⟩ := only_unwritten_values_exceed (.new "store") baled
  exact ⟨(beyond .output "bale").mpr ⟨.data bale, unwritten, exceeds_bale⟩, bale_refused,
    send_of_bulky (Nat.le_of_eq size_bale.symm)⟩

end Proofs.ValueLimits
end PeerMesh
