import PeerMesh.Multipart.Stream

/-! Multipart messages and their frames. A message is read back from its frame, and a frame from a
stream in which anything may follow it. However the bytes of a stream are cut, a reader has read the
frames that are whole and holds back what is left. -/

namespace PeerMesh.Proofs.Framing
open Multipart

variable {frame rest : Bytes} {frames parts : List Bytes}

@[simp] theorem size_word (n : Nat) : (word n).size = 4 := Bytes.length_big 4 n

theorem wordAt_append (before after : Bytes) {n : Nat} (fits : n < Bytes.space 4) :
    wordAt (before ++ (word n ++ after)) before.size = n := by
  have cut : (before ++ (word n ++ after)).extract before.size (before.size + 4) = word n := by
    exact (ByteArray.extract_append_size_add (i := 0) (j := 4)).trans
      (ByteArray.extract_append_eq_left (size_word n).symm)
  rw [wordAt, cut]
  exact (Bytes.ofBig_big 4 n).trans (Nat.mod_eq_of_lt fits)

theorem wordAt_zero (after : Bytes) {n : Nat} (fits : n < Bytes.space 4) :
    wordAt (word n ++ after) 0 = n := by
  have read := wordAt_append ByteArray.empty after fits
  rwa [ByteArray.empty_append] at read

theorem extract_append_left {bytes : Bytes} {start stop : Nat} (inside : stop ≤ bytes.size)
    (after : Bytes) : (bytes ++ after).extract start stop = bytes.extract start stop := by
  have nothing : after.extract (start - bytes.size) (stop - bytes.size) = ByteArray.empty :=
    ByteArray.extract_eq_empty_iff.mpr (by omega)
  rw [ByteArray.extract_append, nothing, ByteArray.append_empty]

theorem wordAt_append_left {bytes : Bytes} {offset : Nat} (inside : offset + 4 ≤ bytes.size)
    (after : Bytes) : wordAt (bytes ++ after) offset = wordAt bytes offset := by
  rw [wordAt, wordAt, extract_append_left inside]

/-- The parts of a message one after the other, each behind its length. -/
def content : List Bytes → Bytes
  | [] => ByteArray.empty
  | part :: rest => word part.size ++ (part ++ content rest)

theorem content_nil_append (rest : Bytes) : content [] ++ rest = rest := ByteArray.empty_append

theorem content_cons_append (part : Bytes) (parts : List Bytes) (rest : Bytes) :
    content (part :: parts) ++ rest = word part.size ++ (part ++ (content parts ++ rest)) := by
  simp only [content, ByteArray.append_assoc]

private theorem encodeParts_eq (parts : List Bytes) (frame : Bytes) :
    encodeParts parts frame = frame ++ content parts := by
  induction parts generalizing frame with
  | nil => exact ByteArray.append_empty.symm
  | cons part parts ih => rw [encodeParts, ih, content, ByteArray.append_assoc, ByteArray.append_assoc]

theorem encode_eq (parts : List Bytes) : encode parts = word parts.length ++ content parts :=
  encodeParts_eq parts (word parts.length)

/-- What stands before the place from which parts are read does not matter. -/
theorem decodeParts_append_left (before bytes : Bytes) (offset index count : Nat) :
    decodeParts (before ++ bytes) (before.size + offset) index count =
      decodeParts bytes offset index count := by
  have size : (before ++ bytes).size = before.size + bytes.size := ByteArray.size_append
  have cut (i j : Nat) :
      (before ++ bytes).extract (before.size + i) (before.size + j) = bytes.extract i j :=
    ByteArray.extract_append_size_add
  induction count generalizing offset index with
  | zero => simp only [decodeParts, size, Nat.add_lt_add_iff_left, Nat.add_sub_add_left]
  | succ count ih =>
    have length : wordAt (before ++ bytes) (before.size + offset) = wordAt bytes offset := by
      rw [wordAt, wordAt, Nat.add_assoc, cut]
    simp only [decodeParts, size, length, Nat.add_assoc, Nat.add_lt_add_iff_left, cut, ih]

/-- A whole part is read, and then what follows it. -/
theorem decodeParts_part {part : Bytes} (rest : Bytes) (index count : Nat)
    (fits : part.size < Bytes.space 4) :
    decodeParts (word part.size ++ (part ++ rest)) 0 index (count + 1) =
      (decodeParts rest 0 (index + 1) count).map (part :: ·) := by
  have size : (word part.size ++ (part ++ rest)).size = 4 + (part.size + rest.size) := by
    simp only [ByteArray.size_append, size_word]
  have middle : (word part.size ++ (part ++ rest)).extract 4 (4 + part.size) = part :=
    (ByteArray.extract_append_size_add' (size_word _).symm (i := 0)).trans
      (ByteArray.extract_append_eq_left rfl)
  have others := decodeParts_append_left (word part.size ++ part) rest 0 (index + 1) count
  rw [ByteArray.append_assoc, ByteArray.size_append, size_word, Nat.add_zero] at others
  rw [decodeParts, if_neg (by omega)]
  dsimp only
  rw [wordAt_zero _ fits, Nat.zero_add, if_neg (by omega), others, middle]

theorem decodeParts_content {parts : List Bytes} (rest : Bytes) (index count : Nat)
    (fits : ∀ part ∈ parts, part.size < Bytes.space 4) :
    decodeParts (content parts ++ rest) 0 index (parts.length + count) =
      (decodeParts rest 0 (index + parts.length) count).map (parts ++ ·) := by
  induction parts generalizing index with
  | nil =>
    rw [content_nil_append, List.length_nil, Nat.zero_add, Nat.add_zero]
    cases decodeParts rest 0 index count <;> rfl
  | cons part parts ih =>
    obtain ⟨first, others⟩ := List.forall_mem_cons.mp fits
    rw [content_cons_append, List.length_cons, Nat.add_right_comm, decodeParts_part _ _ _ first,
      ih (index + 1) others, Nat.add_right_comm, Nat.add_assoc]
    cases decodeParts rest 0 (index + (parts.length + 1)) count <;> rfl

/-- The parts are read behind their count. -/
theorem decode_word {count : Nat} (rest : Bytes) (declared : count < Bytes.space 4) :
    decode (word count ++ rest) = decodeParts rest 0 0 count := by
  have enough : ¬(word count ++ rest).size < 4 := by
    rw [ByteArray.size_append, size_word]
    omega
  rw [decode, if_neg enough, wordAt_zero _ declared]
  exact decodeParts_append_left (word count) rest 0 0 count

theorem decode_encode (count : parts.length < Bytes.space 4)
    (fits : ∀ part ∈ parts, part.size < Bytes.space 4) : decode (encode parts) = .ok parts := by
  have read := decodeParts_content ByteArray.empty 0 0 fits
  rw [ByteArray.append_empty, Nat.add_zero] at read
  rw [encode_eq, decode_word _ count, read]
  exact congrArg Except.ok (List.append_nil parts)

theorem le_size_content {part : Bytes} (member : part ∈ parts) : part.size ≤ (content parts).size := by
  induction parts with
  | nil => cases member
  | cons first parts ih =>
    simp only [content, ByteArray.size_append]
    rcases List.mem_cons.mp member with rfl | later
    · omega
    · have := ih later
      omega

theorem length_le_size_content (parts : List Bytes) : parts.length ≤ (content parts).size := by
  induction parts with
  | nil => exact Nat.zero_le _
  | cons part parts ih =>
    simp only [content, ByteArray.size_append, size_word, List.length_cons]
    omega

theorem frame_lt_space : Limits.frame < Bytes.space 4 := by decide

/-- The count and the lengths of a message whose frame is not too long can be written. -/
theorem bounds_of_short (short : (encode parts).size ≤ Limits.frame) :
    parts.length < Bytes.space 4 ∧ ∀ part ∈ parts, part.size < Bytes.space 4 := by
  have limit := frame_lt_space
  have size : (encode parts).size = 4 + (content parts).size := by
    rw [encode_eq, ByteArray.size_append, size_word]
  have count := length_le_size_content parts
  refine ⟨by omega, fun part member => ?_⟩
  have := le_size_content member
  omega

/-- A message whose frame is not too long is read back from it. -/
theorem received_encode (short : (encode parts).size ≤ Limits.frame) :
    received (encode parts) = .parts parts := by
  obtain ⟨count, fits⟩ := bounds_of_short short
  rw [received, decode_encode count fits]

def stream : List Bytes → Bytes
  | [] => ByteArray.empty
  | frame :: rest => word frame.size ++ frame ++ stream rest

theorem stream_append (one two : List Bytes) : stream (one ++ two) = stream one ++ stream two := by
  induction one with
  | nil => exact ByteArray.empty_append.symm
  | cons frame one ih => rw [List.cons_append, stream, stream, ih]; simp only [ByteArray.append_assoc]

theorem send_eq_ok_iff {bytes : Bytes} :
    send parts = .ok bytes ↔
      (encode parts).size ≤ Limits.frame ∧ bytes = stream [encode parts] := by
  unfold send
  dsimp only
  split
  next long =>
    refine ⟨fun sent => (by cases sent), fun ⟨short, _⟩ => absurd long (Nat.not_lt.mpr short)⟩
  next short =>
    rw [stream, stream, ByteArray.append_empty]
    exact ⟨fun sent => ⟨Nat.not_lt.mp short, (Except.ok.inj sent).symm⟩,
      fun ⟨_, same⟩ => congrArg _ same.symm⟩

/-- What stands before the place from which a stream is read does not matter. -/
theorem split_append_left (before bytes : Bytes) (offset : Nat) :
    split (before ++ bytes) (before.size + offset) = split bytes offset := by
  have size : (before ++ bytes).size = before.size + bytes.size := ByteArray.size_append
  have cut (i j : Nat) :
      (before ++ bytes).extract (before.size + i) (before.size + j) = bytes.extract i j :=
    ByteArray.extract_append_size_add
  have length (i : Nat) : wordAt (before ++ bytes) (before.size + i) = wordAt bytes i := by
    rw [wordAt, wordAt, Nat.add_assoc, cut]
  fun_induction split bytes offset with
  | case1 offset short => rw [split, if_pos (by omega), size, cut]
  | case2 offset whole declared long =>
    rw [split, if_neg (by omega)]
    dsimp only
    rw [length, if_pos long, size, cut]
  | case3 offset whole declared allowed short =>
    rw [split, if_neg (by omega)]
    dsimp only
    rw [length, if_neg allowed, if_pos (by omega), size, cut]
  | case4 offset whole declared allowed enough after ih =>
    rw [split, if_neg (by omega)]
    dsimp only
    have begins : before.size + offset + 4 = before.size + (offset + 4) := Nat.add_assoc _ _ _
    have stop : before.size + (offset + 4) + wordAt bytes offset =
        before.size + (offset + 4 + wordAt bytes offset) := Nat.add_assoc _ _ _
    rw [length, if_neg allowed, if_neg (by omega), begins, stop, cut, ih]

theorem split_empty : split ByteArray.empty 0 = ⟨[], ByteArray.empty, false⟩ := by
  rw [split]
  rfl

/-- Bytes that make no whole frame are held back. -/
theorem split_short {bytes : Bytes} (declared : 4 ≤ bytes.size → wordAt bytes 0 ≤ Limits.frame)
    (short : 4 ≤ bytes.size → bytes.size < 4 + wordAt bytes 0) :
    split bytes 0 = ⟨[], bytes, false⟩ := by
  rw [split]
  split
  · rw [ByteArray.extract_zero_size]
  next whole =>
    have enough : 4 ≤ bytes.size := by omega
    have allowed := declared enough
    have missing := short enough
    dsimp only
    rw [if_neg (by omega), if_pos (by omega), ByteArray.extract_zero_size]

theorem split_frame (short : frame.size ≤ Limits.frame) (rest : Bytes) :
    split (word frame.size ++ frame ++ rest) 0 =
      { split rest 0 with frames := frame :: (split rest 0).frames } := by
  have limit := frame_lt_space
  have size : (word frame.size ++ frame).size = 4 + frame.size := by
    rw [ByteArray.size_append, size_word]
  have whole : (word frame.size ++ frame ++ rest).size = 4 + frame.size + rest.size := by
    rw [ByteArray.size_append, size]
  have declared : wordAt (word frame.size ++ frame ++ rest) 0 = frame.size := by
    rw [ByteArray.append_assoc]
    exact wordAt_zero _ (by omega)
  have middle : (word frame.size ++ frame ++ rest).extract (0 + 4) (0 + 4 + frame.size) = frame := by
    rw [ByteArray.append_assoc, Nat.zero_add]
    exact (ByteArray.extract_append_size_add' (size_word _).symm (i := 0)).trans
      (ByteArray.extract_append_eq_left rfl)
  have after := split_append_left (word frame.size ++ frame) rest 0
  rw [size] at after
  rw [split, if_neg (by omega)]
  dsimp only
  rw [declared, if_neg (by omega), if_neg (by omega), middle, Nat.zero_add, ← after, Nat.add_zero]

/-- However much of a stream has come, its first frames have been read and the others are to follow
what is held back. Once all has come, no frame is left. -/
theorem split_of_append_eq_stream {come coming : Bytes}
    (allowed : ∀ frame ∈ frames, frame.size ≤ Limits.frame) (all : come ++ coming = stream frames) :
    ∃ whole left held, frames = whole ++ left ∧ split come 0 = ⟨whole, held, false⟩ ∧
      held ++ coming = stream left ∧ (coming = ByteArray.empty → left = []) := by
  induction frames generalizing come with
  | nil =>
    obtain ⟨rfl, rfl⟩ := ByteArray.append_eq_empty_iff.mp all
    exact ⟨[], [], _, rfl, split_empty, all, fun _ => rfl⟩
  | cons frame frames ih =>
    have limit := frame_lt_space
    have short := allowed frame List.mem_cons_self
    have size : (word frame.size ++ frame).size = 4 + frame.size := by
      rw [ByteArray.size_append, size_word]
    by_cases part : come.size < 4 + frame.size
    · have declared (enough : 4 ≤ come.size) : wordAt come 0 = frame.size := by
        rw [← wordAt_append_left (by omega) coming, all, stream, ByteArray.append_assoc]
        exact wordAt_zero _ (by omega)
      refine ⟨[], frame :: frames, come, rfl, ?_, all, ?_⟩
      · refine split_short (fun enough => ?_) fun enough => ?_
        · exact (declared enough).symm ▸ short
        · exact (declared enough).symm ▸ part
      · rintro rfl
        have total := congrArg ByteArray.size all
        rw [ByteArray.append_empty, stream, ByteArray.size_append, size] at total
        omega
    · have here : come = come.extract 0 (4 + frame.size) ++ come.extract (4 + frame.size) come.size := by
        rw [ByteArray.extract_append_extract, Nat.zero_min, Nat.max_eq_right (by omega),
          ByteArray.extract_zero_size]
      have first : (come.extract 0 (4 + frame.size)).size = (word frame.size ++ frame).size := by
        rw [ByteArray.size_extract, size]
        omega
      rw [here, ByteArray.append_assoc, stream,
        ByteArray.append_eq_append_iff_of_size_eq_left first] at all
      obtain ⟨begun, followed⟩ := all
      obtain ⟨whole, left, held, same, cut, coming_, ended⟩ :=
        ih (fun other member => allowed other (List.mem_cons_of_mem _ member)) followed
      refine ⟨frame :: whole, left, held, by rw [same]; rfl, ?_, coming_, ended⟩
      rw [here, begun, split_frame short, cut]

/-- A reader of messages that are sent on a stream has read the first of them, and what it holds back
is the beginning of the others. -/
theorem feed_of_append_eq_stream {messages : List (List Bytes)} {reader : Reader} {chunk coming : Bytes}
    (reading : reader.ended = false)
    (allowed : ∀ parts ∈ messages, (encode parts).size ≤ Limits.frame)
    (all : reader.buffer ++ (chunk ++ coming) = stream (messages.map encode)) :
    ∃ whole left held, messages = whole ++ left ∧
      reader.feed chunk = (⟨held, false⟩, whole.map Received.parts) ∧
      held ++ coming = stream (left.map encode) ∧ (coming = ByteArray.empty → left = []) := by
  have short : ∀ frame ∈ messages.map encode, frame.size ≤ Limits.frame := by
    intro frame member
    obtain ⟨parts, sent, rfl⟩ := List.mem_map.mp member
    exact allowed parts sent
  rw [← ByteArray.append_assoc] at all
  obtain ⟨cut, others, held, same, split_, coming_, ended⟩ := split_of_append_eq_stream short all
  obtain ⟨whole, left, rfl, rfl, rfl⟩ := List.map_eq_append_iff.mp same
  refine ⟨whole, left, held, rfl, ?_, coming_, fun empty => List.map_eq_nil_iff.mp (ended empty)⟩
  have results : (whole.map encode).map received = whole.map Received.parts := by
    rw [List.map_map]
    exact List.map_congr_left fun parts member =>
      received_encode (allowed parts (List.mem_append_left _ member))
  rw [Reader.feed, reading, if_neg Bool.false_ne_true]
  dsimp only
  rw [split_, if_neg Bool.false_ne_true, results]

end PeerMesh.Proofs.Framing
