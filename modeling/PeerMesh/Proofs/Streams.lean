import PeerMesh.Proofs.Framing

/-! Streams that arrive in pieces. What a reader gets from a stream is decided by the bytes alone: it does
not matter where they are cut, and a frame that cannot be read takes nothing from those behind it. -/

namespace PeerMesh

def Multipart.joined (chunks : List Bytes) : Bytes := chunks.foldr (· ++ ·) ByteArray.empty

/-- What a reader still gets if these bytes come and then no more. -/
def Multipart.Reader.results (r : Multipart.Reader) (bytes : Bytes) : List Multipart.Received :=
  (r.feed bytes).2 ++ (r.feed bytes).1.finish

namespace Proofs.Streams
open Multipart Framing

variable {one two : Bytes} {frames : List Bytes} {chunks : List Bytes} {reader : Reader}

theorem extract_append_extract_size {bytes : Bytes} {offset : Nat} (inside : offset ≤ bytes.size) :
    bytes.extract 0 offset ++ bytes.extract offset bytes.size = bytes := by
  rw [ByteArray.extract_append_extract, Nat.zero_min, Nat.max_eq_right inside,
    ByteArray.extract_zero_size]

theorem size_extract_zero {bytes : Bytes} {offset : Nat} (inside : offset ≤ bytes.size) :
    (bytes.extract 0 offset).size = offset := by
  rw [ByteArray.size_extract]
  omega

theorem extract_append_size {offset : Nat} (inside : offset ≤ one.size) (two : Bytes) :
    (one ++ two).extract offset (one ++ two).size = one.extract offset one.size ++ two := by
  have cut := extract_append_extract_size inside
  calc (one ++ two).extract offset (one ++ two).size
    _ = (one.extract 0 offset ++ (one.extract offset one.size ++ two)).extract offset
        (one.extract 0 offset ++ (one.extract offset one.size ++ two)).size := by
      rw [← ByteArray.append_assoc, cut]
    _ = one.extract offset one.size ++ two :=
      ByteArray.extract_append_eq_right (size_extract_zero inside).symm ByteArray.size_append

/-- The frames from a place on are those of the bytes from there on. -/
theorem split_extract {bytes : Bytes} {offset : Nat} (inside : offset ≤ bytes.size) :
    split bytes offset = split (bytes.extract offset bytes.size) 0 := by
  have moved := split_append_left (bytes.extract 0 offset) (bytes.extract offset bytes.size) 0
  rwa [size_extract_zero inside, extract_append_extract_size inside, Nat.add_zero] at moved

/-- Bytes that follow go on from what was left, unless the reading has ended before them. -/
theorem split_append (one two : Bytes) {offset : Nat} (inside : offset ≤ one.size) :
    split (one ++ two) offset =
      if (split one offset).tooLong then
        ⟨(split one offset).frames, (split one offset).rest ++ two, true⟩
      else
        { split ((split one offset).rest ++ two) 0 with
          frames := (split one offset).frames ++ (split ((split one offset).rest ++ two) 0).frames } := by
  have size : (one ++ two).size = one.size + two.size := ByteArray.size_append
  -- What is held back of a frame is read again with what follows it.
  have held : split (one ++ two) offset = split (one.extract offset one.size ++ two) 0 := by
    rw [split_extract (by omega), extract_append_size inside]
  fun_induction split one offset with
  | case1 offset short => exact held
  | case2 offset whole declared long =>
    rw [split, if_neg (by omega)]
    dsimp only
    rw [wordAt_append_left (Nat.not_lt.mp whole), if_pos long, extract_append_size inside]
    rfl
  | case3 offset whole declared allowed short => exact held
  | case4 offset whole declared allowed enough after ih =>
    have stop : offset + 4 + wordAt one offset ≤ one.size := Nat.not_lt.mp enough
    have others := ih stop (by rw [split_extract (by omega), extract_append_size stop])
    rw [split, if_neg (by omega)]
    dsimp only
    rw [wordAt_append_left (Nat.not_lt.mp whole), if_neg allowed, if_neg (by omega),
      extract_append_left stop, others]
    split
    · rfl
    · rfl

/-- In what is left of a stream there is no whole frame. -/
theorem split_rest (bytes : Bytes) (reading : (split bytes 0).tooLong = false) :
    split (split bytes 0).rest 0 = ⟨[], (split bytes 0).rest, false⟩ := by
  have again := split_append bytes ByteArray.empty (Nat.zero_le _)
  rw [ByteArray.append_empty, ByteArray.append_empty, reading, if_neg Bool.false_ne_true] at again
  have frames := congrArg Frames.frames again
  have rest := congrArg Frames.rest again
  have tooLong := congrArg Frames.tooLong again
  cases left : split (split bytes 0).rest 0 with
  | mk more held long =>
    rw [left] at frames rest tooLong
    cases List.append_right_eq_self.mp frames.symm
    rw [rest, reading.symm.trans tooLong]

theorem split_stream (allowed : ∀ frame ∈ frames, frame.size ≤ Limits.frame) :
    split (stream frames) 0 = ⟨frames, ByteArray.empty, false⟩ := by
  obtain ⟨whole, left, held, rfl, cut, coming, ended⟩ :=
    split_of_append_eq_stream allowed (ByteArray.append_empty (b := stream frames))
  cases ended rfl
  rw [ByteArray.append_empty] at coming
  rw [cut, List.append_nil, coming]
  rfl

/-- Nothing that a reader holds back is a whole frame. -/
def Settled (r : Reader) : Prop := r.ended = false → split r.buffer 0 = ⟨[], r.buffer, false⟩

theorem settled_start : Settled Reader.start := fun _ => split_empty

theorem settled_feed (settled : Settled reader) (chunk : Bytes) :
    Settled (reader.feed chunk).1 := by
  unfold Reader.feed
  split
  · exact settled
  · dsimp only
    split
    next => exact fun reading => by cases reading
    next reading => exact fun _ => split_rest _ (Bool.eq_false_iff.mpr reading)

theorem feed_reading (buffer chunk : Bytes) :
    Reader.feed ⟨buffer, false⟩ chunk =
      if (split (buffer ++ chunk) 0).tooLong then
        (⟨(split (buffer ++ chunk) 0).rest, true⟩,
          (split (buffer ++ chunk) 0).frames.map received ++ [.fault .readTooLong, .closed])
      else
        (⟨(split (buffer ++ chunk) 0).rest, false⟩, (split (buffer ++ chunk) 0).frames.map received) :=
  rfl

theorem results_reading (buffer bytes : Bytes) :
    Reader.results ⟨buffer, false⟩ bytes =
      (split (buffer ++ bytes) 0).frames.map received ++
        if (split (buffer ++ bytes) 0).tooLong then [.fault .readTooLong, .closed]
        else Reader.finish ⟨(split (buffer ++ bytes) 0).rest, false⟩ := by
  rw [Reader.results, feed_reading]
  split
  · exact List.append_nil _
  · rfl

theorem results_empty (settled : Settled reader) : reader.results ByteArray.empty = reader.finish := by
  obtain ⟨buffer, ended⟩ := reader
  cases ended with
  | true => rfl
  | false =>
    have held : split buffer 0 = ⟨[], buffer, false⟩ := settled rfl
    rw [results_reading, ByteArray.append_empty, held]
    rfl

/-- Bytes that come in two pieces give what the first gives, and then what the second gives a reader of
the first. -/
theorem results_append (reader : Reader) (one two : Bytes) :
    reader.results (one ++ two) = (reader.feed one).2 ++ (reader.feed one).1.results two := by
  obtain ⟨buffer, ended⟩ := reader
  cases ended with
  | true => rfl
  | false =>
    rw [results_reading, ← ByteArray.append_assoc, split_append _ two (Nat.zero_le _), feed_reading]
    cases (split (buffer ++ one) 0).tooLong with
    | true =>
      simp only [if_true]
      exact (List.append_nil _).symm
    | false =>
      simp only [Bool.false_eq_true, if_false, results_reading, List.map_append, List.append_assoc]

private def step (state : Reader × List Received) (chunk : Bytes) : Reader × List Received :=
  ((state.1.feed chunk).1, state.2 ++ (state.1.feed chunk).2)

theorem readAll_eq (chunks : List Bytes) :
    Reader.readAll chunks = Reader.start.results (joined chunks) := by
  have loop : ∀ (chunks : List Bytes) {reader : Reader} (read : List Received), Settled reader →
      (chunks.foldl step (reader, read)).2 ++ (chunks.foldl step (reader, read)).1.finish =
        read ++ reader.results (joined chunks) := by
    intro chunks
    induction chunks with
    | nil => exact fun read settled => congrArg (read ++ ·) (results_empty settled).symm
    | cons chunk chunks ih =>
      intro reader read settled
      have others := ih (read ++ (reader.feed chunk).2) (settled_feed settled chunk)
      rw [List.foldl_cons]
      refine others.trans ?_
      rw [List.append_assoc]
      exact congrArg (read ++ ·) (results_append reader chunk (joined chunks)).symm
  exact loop chunks [] settled_start

theorem readAll_single (bytes : Bytes) : Reader.readAll [bytes] = Reader.start.results bytes := by
  rw [readAll_eq]
  exact congrArg _ ByteArray.append_empty

theorem feed_stream (allowed : ∀ frame ∈ frames, frame.size ≤ Limits.frame) :
    Reader.start.feed (stream frames) = (Reader.start, frames.map received) := by
  rw [Reader.start, feed_reading, ByteArray.empty_append, split_stream allowed]
  rfl

/-- Behind whole frames, whether they can be read or not, a reader begins anew. -/
theorem readAll_stream {rest : Bytes} (allowed : ∀ frame ∈ frames, frame.size ≤ Limits.frame)
    (all : joined chunks = stream frames ++ rest) :
    Reader.readAll chunks = frames.map received ++ Reader.readAll [rest] := by
  rw [readAll_eq, all, results_append, feed_stream allowed, readAll_single]

theorem readAll_empty : Reader.readAll [ByteArray.empty] = [.closed] := by
  rw [readAll_single, results_empty settled_start]
  rfl

theorem send_of_long {parts : List Bytes} (long : Limits.frame < (encode parts).size) :
    send parts = .error .writeTooLong := if_pos long

theorem send_of_short {parts : List Bytes} (short : (encode parts).size ≤ Limits.frame) :
    send parts = .ok (stream [encode parts]) := send_eq_ok_iff.mpr ⟨short, rfl⟩

private def sendBehind (bytes : Bytes) (parts : List Bytes) : Bytes :=
  bytes ++ (send parts).toOption.getD ByteArray.empty

theorem sendAll_append (one two : List (List Bytes)) :
    sendAll (one ++ two) = sendAll one ++ sendAll two := by
  have behind : ∀ (messages : List (List Bytes)) (bytes : Bytes),
      messages.foldl sendBehind bytes = bytes ++ messages.foldl sendBehind ByteArray.empty := by
    intro messages
    induction messages with
    | nil => exact fun bytes => ByteArray.append_empty.symm
    | cons parts messages ih =>
      intro bytes
      rw [List.foldl_cons, List.foldl_cons, ih (sendBehind bytes parts),
        ih (sendBehind ByteArray.empty parts)]
      simp only [sendBehind, ByteArray.append_assoc, ByteArray.empty_append]
  change (one ++ two).foldl sendBehind _ = one.foldl sendBehind _ ++ two.foldl sendBehind _
  rw [List.foldl_append, behind]

theorem sendAll_cons (parts : List Bytes) (messages : List (List Bytes)) :
    sendAll (parts :: messages) =
      (send parts).toOption.getD ByteArray.empty ++ sendAll messages := by
  refine (sendAll_append [parts] messages).trans ?_
  rw [sendAll, List.foldl_cons, List.foldl_nil, ByteArray.empty_append]

theorem sendAll_eq_stream {messages : List (List Bytes)}
    (allowed : ∀ parts ∈ messages, (encode parts).size ≤ Limits.frame) :
    sendAll messages = stream (messages.map encode) := by
  induction messages with
  | nil => rfl
  | cons parts messages ih =>
    obtain ⟨short, others⟩ := List.forall_mem_cons.mp allowed
    rw [sendAll_cons, send_of_short short, ih others]
    exact (stream_append [encode parts] (messages.map encode)).symm

/-- A reader gets the same from a stream wherever its bytes are cut. It gets the messages that were sent,
and of frames that need not be messages each by itself, whatever follows them. A message that is too long
for a frame is refused, and leaves nothing on the stream. -/
theorem streams_read_alike :
    (∀ {bytes chunks}, joined chunks = bytes → Reader.readAll chunks = Reader.readAll [bytes]) ∧
    (∀ {messages chunks}, (∀ parts ∈ messages, (encode parts).size ≤ Limits.frame) →
      joined chunks = sendAll messages →
      Reader.readAll chunks = messages.map Received.parts ++ [.closed]) ∧
    (∀ {frames chunks}, (∀ frame ∈ frames, frame.size ≤ Limits.frame) →
      joined chunks = stream frames → Reader.readAll chunks = frames.map received ++ [.closed]) ∧
    (∀ {frames rest chunks}, (∀ frame ∈ frames, frame.size ≤ Limits.frame) →
      joined chunks = stream frames ++ rest →
      Reader.readAll chunks = frames.map received ++ Reader.readAll [rest]) ∧
    ∀ {parts}, Limits.frame < (encode parts).size → send parts = .error .writeTooLong ∧
      ∀ before after, sendAll (before ++ parts :: after) = sendAll (before ++ after) := by
  have whole {frames chunks : List Bytes} (allowed : ∀ frame ∈ frames, frame.size ≤ Limits.frame)
      (all : joined chunks = stream frames) :
      Reader.readAll chunks = frames.map received ++ [.closed] := by
    rw [← readAll_empty]
    exact readAll_stream allowed (all.trans ByteArray.append_empty.symm)
  refine ⟨fun all => ?_, fun {messages chunks} allowed all => ?_, whole, readAll_stream,
    fun {parts} long => ⟨send_of_long long, fun before after => ?_⟩⟩
  · rw [readAll_eq, all, readAll_single]
  · have read : (messages.map encode).map received = messages.map Received.parts := by
      rw [List.map_map]
      exact List.map_congr_left fun parts member => received_encode (allowed parts member)
    rw [← read]
    exact whole (List.forall_mem_map.mpr allowed) (all.trans (sendAll_eq_stream allowed))
  · rw [sendAll_append, sendAll_append, sendAll_cons, send_of_long long]
    exact congrArg _ ByteArray.empty_append

/-- A subscription and a message of one empty part. -/
private def wishes : List (List Bytes) := [["SUB".toByteArray, "temp".toByteArray], [ByteArray.empty]]

/-- The bytes of the wishes, cut inside a length, inside a name and at an end. -/
private def wishChunks : List Bytes := [
  Bytes.ofList [0, 0],
  Bytes.ofList [0, 19, 0, 0, 0, 2, 0, 0, 0, 3, 83],
  Bytes.ofList [85, 66, 0, 0, 0, 4, 116, 101, 109, 112, 0, 0, 0],
  Bytes.ofList [8, 0, 0, 0, 1, 0, 0, 0, 0],
  ByteArray.empty]

private def pages : List Bytes := [Bytes.ofList [0, 0], encode [Bytes.ofList [7]]]

private def bulk : Bytes := ⟨Array.replicate Limits.frame 0⟩

private theorem long_bulk : Limits.frame < (encode [bulk]).size := by
  have size : bulk.size = Limits.frame := Array.size_replicate
  rw [encode_eq, content, content, ByteArray.append_empty, ByteArray.size_append,
    ByteArray.size_append, size_word, size_word, size]
  omega

theorem wishes_arrive_in_chunks :
    Reader.readAll wishChunks =
      [.parts ["SUB".toByteArray, "temp".toByteArray], .parts [ByteArray.empty], .closed] ∧
    Reader.readAll wishChunks = Reader.readAll [joined wishChunks] ∧
    Reader.readAll (pages.flatMap fun page => [word page.size, page]) =
      [.fault (.frame .truncatedCount), .parts [Bytes.ofList [7]], .closed] ∧
    send [bulk] = .error .writeTooLong ∧ sendAll [["SUB".toByteArray], [bulk], [ByteArray.empty]] =
      sendAll [["SUB".toByteArray], [ByteArray.empty]] := by
  obtain ⟨chunked, sent, whole, -, refused⟩ := streams_read_alike
  obtain ⟨error, nothing⟩ := refused long_bulk
  have results : pages.map received = [.fault (.frame .truncatedCount), .parts [Bytes.ofList [7]]] := by
    decide +kernel
  refine ⟨@sent wishes wishChunks (by decide +kernel) (by decide +kernel), chunked rfl, ?_, error,
    nothing [["SUB".toByteArray]] [[ByteArray.empty]]⟩
  rw [@whole pages (pages.flatMap fun page => [word page.size, page]) (by decide +kernel)
    (by decide +kernel), results]
  rfl

end Proofs.Streams
end PeerMesh
