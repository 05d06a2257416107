import Mathlib.Algebra.Group.Nat.Defs
import PeerMesh.Proofs.Framing

/-! Frames as they are read. A frame is read as a message if it is the frame of that message, and
otherwise refused for the first thing that is wrong with it. Whatever counts and lengths it declares,
nothing is looked for behind its end. -/

namespace PeerMesh
namespace Multipart

/-- So few parts, and so short ones, that their count and their lengths can be written. -/
def Fits (parts : List Bytes) : Prop :=
  parts.length < 2 ^ 32 ∧ ∀ part ∈ parts, part.size < 2 ^ 32

/-! A reader that takes bytes away from the front of what is left. Where it takes more than there is, it
has no result. -/

def take? (count : Nat) (left : Bytes) : Option (Bytes × Bytes) :=
  if count ≤ left.size then some (left.extract 0 count, left.extract count left.size) else none

def takeWord? (left : Bytes) : Option (Nat × Bytes) :=
  (take? 4 left).map fun (bytes, left) => (Bytes.ofBig bytes.toBytes, left)

def takeParts? (index : Nat) : Nat → Bytes → Option (Except MultipartFault (List Bytes))
  | 0, left => some (if 0 < left.size then .error (.trailing left.size) else .ok [])
  | count + 1, left =>
    if left.size < 4 then some (.error (.truncatedLength index))
    else do
      let (length, left) ← takeWord? left
      if left.size < length then some (.error (.truncatedPart index))
      else do
        let (part, left) ← take? length left
        let others ← takeParts? (index + 1) count left
        some (others.map (part :: ·))

def consume? (frame : Bytes) : Option (Except MultipartFault (List Bytes)) :=
  if frame.size < 4 then some (.error .truncatedCount)
  else do
    let (count, left) ← takeWord? frame
    takeParts? 0 count left

open Proofs.Framing (content)

/-- What is wrong with bytes that are to be so many parts: behind the parts that are whole a length or a
part is cut off, or bytes follow the last of them. -/
inductive Flaw (count : Nat) : Bytes → MultipartFault → Prop where
  | length {parts : List Bytes} {rest : Bytes} (whole : ∀ part ∈ parts, part.size < 2 ^ 32)
      (missing : parts.length < count) (short : rest.size < 4) :
      Flaw count (content parts ++ rest) (.truncatedLength parts.length)
  | part {parts : List Bytes} {length : Nat} {rest : Bytes}
      (whole : ∀ part ∈ parts, part.size < 2 ^ 32) (missing : parts.length < count)
      (declared : length < 2 ^ 32) (short : rest.size < length) :
      Flaw count (content parts ++ (word length ++ rest)) (.truncatedPart parts.length)
  | trailing {parts : List Bytes} {rest : Bytes} (whole : ∀ part ∈ parts, part.size < 2 ^ 32)
      (all : parts.length = count) (more : 0 < rest.size) :
      Flaw count (content parts ++ rest) (.trailing rest.size)

/-- What is wrong with a frame that is no message. -/
inductive Broken : Bytes → MultipartFault → Prop where
  | count {frame : Bytes} (short : frame.size < 4) : Broken frame .truncatedCount
  | parts {count : Nat} {rest : Bytes} {fault : MultipartFault} (declared : count < 2 ^ 32)
      (flaw : Flaw count rest fault) : Broken (word count ++ rest) fault

end Multipart

namespace Proofs.FrameReading
open Framing Multipart

variable {frame rest : Bytes} {parts : List Bytes} {count : Nat} {fault : MultipartFault}

theorem take?_append (first rest : Bytes) : take? first.size (first ++ rest) = some (first, rest) := by
  have enough : first.size ≤ (first ++ rest).size := by
    rw [ByteArray.size_append]
    omega
  rw [take?, if_pos enough, ByteArray.extract_append_eq_left rfl,
    ByteArray.extract_append_eq_right rfl ByteArray.size_append]

theorem exists_append_of_le {length : Nat} (enough : length ≤ frame.size) :
    ∃ first rest, first.size = length ∧ frame = first ++ rest := by
  refine ⟨frame.extract 0 length, frame.extract length frame.size, ?_, ?_⟩
  · rw [ByteArray.size_extract]
    omega
  · rw [ByteArray.extract_append_extract, Nat.zero_min, Nat.max_eq_right enough,
      ByteArray.extract_zero_size]

/-- Four bytes are some number. -/
theorem exists_word (whole : ¬frame.size < 4) :
    ∃ number rest, number < 2 ^ 32 ∧ frame = word number ++ rest := by
  obtain ⟨first, rest, size, rfl⟩ := exists_append_of_le (Nat.not_lt.mp whole)
  have length : first.toBytes.length = 4 := size
  have back : Bytes.big 4 (Bytes.ofBig first.toBytes) = first.toBytes := by
    rw [← length, Bytes.big_ofBig]
  have below : Bytes.ofBig first.toBytes < Bytes.space 4 := by
    have less := Bytes.ofLittle_lt first.toBytes.reverse
    rwa [List.length_reverse, length] at less
  have same : word (Bytes.ofBig first.toBytes) = first := congrArg Bytes.ofList back
  exact ⟨_, rest, below, by rw [same]⟩

theorem takeWord?_word {number : Nat} (rest : Bytes) (fits : number < 2 ^ 32) :
    takeWord? (word number ++ rest) = some (number, rest) := by
  have taken := take?_append (word number) rest
  have value : Bytes.ofBig (word number).toBytes = number :=
    (Bytes.ofBig_big 4 number).trans (Nat.mod_eq_of_lt fits)
  rw [size_word] at taken
  rw [takeWord?, taken, Option.map_some]
  dsimp only
  rw [value]

/-- Nothing is read behind the end: the reader that takes bytes away finds as many as it takes, and gets
what the other gets. -/
theorem takeParts?_eq (index count : Nat) (left : Bytes) :
    takeParts? index count left = some (decodeParts left 0 index count) := by
  induction count generalizing index left with
  | zero => rfl
  | succ count ih =>
    by_cases short : left.size < 4
    · rw [takeParts?, if_pos short, decodeParts, if_pos (by omega)]
    obtain ⟨length, left, fits, rfl⟩ := exists_word short
    rw [takeParts?, if_neg short, takeWord?_word _ fits]
    by_cases cut : left.size < length
    · have size : (word length ++ left).size = 4 + left.size := by
        rw [ByteArray.size_append, size_word]
      rw [decodeParts, if_neg (by omega)]
      dsimp only [Option.bind_eq_bind, Option.bind_some]
      rw [if_pos cut, wordAt_zero _ fits, if_pos (by omega)]
    · obtain ⟨part, left, rfl, rfl⟩ := exists_append_of_le (Nat.not_lt.mp cut)
      rw [decodeParts_part _ _ _ fits]
      dsimp only [Option.bind_eq_bind, Option.bind_some]
      rw [if_neg cut, take?_append, Option.bind_some, ih, Option.bind_some]

theorem consume?_eq (frame : Bytes) : consume? frame = some (decode frame) := by
  by_cases short : frame.size < 4
  · rw [consume?, if_pos short, decode, if_pos short]
  obtain ⟨count, left, fits, rfl⟩ := exists_word short
  rw [consume?, if_neg short, takeWord?_word _ fits, decode_word _ fits]
  exact takeParts?_eq 0 count left

/-- A part before bytes in which something is wrong puts that off by one part. -/
theorem exists_flaw_cons {part : Bytes} (fits : part.size < 2 ^ 32) (flaw : Flaw count rest fault) :
    ∃ later, Flaw (count + 1) (word part.size ++ (part ++ rest)) later := by
  cases flaw with
  | @length parts rest whole missing short =>
    have later : Flaw (count + 1) (content (part :: parts) ++ rest) _ :=
      .length (List.forall_mem_cons.mpr ⟨fits, whole⟩) (Nat.succ_lt_succ missing) short
    rw [content_cons_append] at later
    exact ⟨_, later⟩
  | @part parts length rest whole missing declared short =>
    have later : Flaw (count + 1) (content (part :: parts) ++ (word length ++ rest)) _ :=
      .part (List.forall_mem_cons.mpr ⟨fits, whole⟩) (Nat.succ_lt_succ missing) declared short
    rw [content_cons_append] at later
    exact ⟨_, later⟩
  | @trailing parts rest whole all more =>
    have later : Flaw (count + 1) (content (part :: parts) ++ rest) _ :=
      .trailing (List.forall_mem_cons.mpr ⟨fits, whole⟩) (congrArg Nat.succ all) more
    rw [content_cons_append] at later
    exact ⟨_, later⟩

theorem parts_or_flaw (count : Nat) (rest : Bytes) :
    (∃ parts, parts.length = count ∧ (∀ part ∈ parts, part.size < 2 ^ 32) ∧ rest = content parts) ∨
      ∃ fault, Flaw count rest fault := by
  induction count generalizing rest with
  | zero =>
    by_cases empty : rest.size = 0
    · exact .inl ⟨[], rfl, nofun, ByteArray.size_eq_zero_iff.mp empty⟩
    · have flaw : Flaw 0 (content [] ++ rest) _ := .trailing nofun rfl (Nat.pos_of_ne_zero empty)
      rw [content_nil_append] at flaw
      exact .inr ⟨_, flaw⟩
  | succ count ih =>
    by_cases short : rest.size < 4
    · have flaw : Flaw (count + 1) (content [] ++ rest) _ := .length nofun (Nat.succ_pos count) short
      rw [content_nil_append] at flaw
      exact .inr ⟨_, flaw⟩
    obtain ⟨length, rest, fits, rfl⟩ := exists_word short
    by_cases cut : rest.size < length
    · have flaw : Flaw (count + 1) (content [] ++ (word length ++ rest)) _ :=
        .part nofun (Nat.succ_pos count) fits cut
      rw [content_nil_append] at flaw
      exact .inr ⟨_, flaw⟩
    obtain ⟨part, rest, rfl, rfl⟩ := exists_append_of_le (Nat.not_lt.mp cut)
    rcases ih rest with ⟨parts, all, whole, rfl⟩ | ⟨fault, flaw⟩
    · exact .inl ⟨part :: parts, congrArg Nat.succ all, List.forall_mem_cons.mpr ⟨fits, whole⟩, rfl⟩
    · exact .inr (exists_flaw_cons fits flaw)

theorem decodeParts_of_flaw (flaw : Flaw count rest fault) :
    decodeParts rest 0 0 count = .error fault := by
  cases flaw with
  | @length parts rest whole missing short =>
    obtain ⟨more, rfl⟩ := Nat.exists_eq_add_of_lt missing
    rw [Nat.add_assoc, decodeParts_content rest 0 (more + 1) whole, decodeParts, if_pos (by omega),
      Nat.zero_add]
    rfl
  | @part parts length rest whole missing declared short =>
    obtain ⟨more, rfl⟩ := Nat.exists_eq_add_of_lt missing
    have size : (word length ++ rest).size = 4 + rest.size := by
      rw [ByteArray.size_append, size_word]
    rw [Nat.add_assoc, decodeParts_content _ 0 (more + 1) whole, decodeParts, if_neg (by omega)]
    dsimp only
    rw [wordAt_zero _ declared, if_pos (by omega), Nat.zero_add]
    rfl
  | @trailing parts rest whole all more =>
    have read := decodeParts_content rest 0 0 whole
    rw [Nat.add_zero, all, decodeParts, if_pos more] at read
    exact read

theorem decode_of_broken (broken : Broken frame fault) : decode frame = .error fault := by
  cases broken with
  | count short => rw [decode, if_pos short]
  | parts declared flaw => rw [decode_word _ declared, decodeParts_of_flaw flaw]

/-- Every frame is a message or broken. -/
theorem message_or_broken (frame : Bytes) :
    (∃ parts, Fits parts ∧ encode parts = frame) ∨ ∃ fault, Broken frame fault := by
  by_cases short : frame.size < 4
  · exact .inr ⟨_, .count short⟩
  obtain ⟨count, rest, declared, rfl⟩ := exists_word short
  rcases parts_or_flaw count rest with ⟨parts, rfl, whole, rfl⟩ | ⟨fault, flaw⟩
  · exact .inl ⟨parts, ⟨declared, whole⟩, encode_eq parts⟩
  · exact .inr ⟨fault, .parts declared flaw⟩

theorem decode_encode_of_fits (fits : Fits parts) : decode (encode parts) = .ok parts :=
  decode_encode fits.1 fits.2

/-- A message is read back from its frame. A frame that is read is the frame of the message it is read as,
and one that is not read is broken as the fault says; for either answer no byte is taken from behind its
end. -/
theorem frames_hold_their_messages :
    (∀ {parts}, Fits parts → decode (encode parts) = .ok parts) ∧
    ∀ frame,
      consume? frame = some (decode frame) ∧
      (∀ parts, decode frame = .ok parts → Fits parts ∧ encode parts = frame) ∧
      ∀ fault, decode frame = .error fault ↔ Broken frame fault := by
  refine ⟨decode_encode_of_fits, fun frame => ⟨consume?_eq frame, fun parts read => ?_, fun fault =>
    ⟨fun refused => ?_, decode_of_broken⟩⟩⟩
  · rcases message_or_broken frame with ⟨known, fits, rfl⟩ | ⟨fault, broken⟩
    · cases (decode_encode_of_fits fits).symm.trans read
      exact ⟨fits, rfl⟩
    · cases (decode_of_broken broken).symm.trans read
  · rcases message_or_broken frame with ⟨known, fits, rfl⟩ | ⟨known, broken⟩
    · cases (decode_encode_of_fits fits).symm.trans refused
    · cases (decode_of_broken broken).symm.trans refused
      exact broken

/-- A frame that declares as many parts as can be declared, and has one, which is empty. -/
private def boast : Bytes := Bytes.ofList [255, 255, 255, 255, 0, 0, 0, 0]

private def greeting : List Bytes := ["go".toByteArray, Bytes.ofList [7]]

private theorem boast_broken : Broken boast (.truncatedLength 1) := by
  have flaw : Flaw 4294967295 (content [ByteArray.empty] ++ ByteArray.empty) (.truncatedLength 1) :=
    .length (by simp) (by decide) (by decide)
  have same : word 4294967295 ++ (content [ByteArray.empty] ++ ByteArray.empty) = boast := by decide
  exact same ▸ .parts (by decide) flaw

theorem boast_is_refused :
    decode (encode greeting) = .ok greeting ∧
    decode boast = .error (.truncatedLength 1) ∧ consume? boast = some (.error (.truncatedLength 1)) := by
  obtain ⟨reads, each⟩ := frames_hold_their_messages
  obtain ⟨consumed, -, refused⟩ := each boast
  have truncated : decode boast = .error (.truncatedLength 1) := (refused _).mpr boast_broken
  exact ⟨reads ⟨by decide, by decide⟩, truncated, truncated ▸ consumed⟩

end Proofs.FrameReading
end PeerMesh
