import Mathlib.Data.List.Forall2
import PeerMesh.Line.Stream
import PeerMesh.Proofs.Lines
import PeerMesh.Proofs.Values

/-! Presence lines on a stream. No byte of a line's text is a line feed, whatever its names and payload
hold, so a reader finds the lines where the writer ended them. -/

namespace PeerMesh

def Text.hexDigits : List Char := "0123456789abcdefABCDEF".toList

/-- Pairs of hexadecimal digits, small or capital. -/
def Text.IsHex (text : String) : Prop := text.length % 2 = 0 ∧ ∀ c ∈ text.toList, c ∈ hexDigits

namespace Proofs.LineStreams
open Line Text

variable {lines : List Line} {text : String} {texts digits : List String} {bytes : List UInt8}
  {frames : List Bytes}

theorem toBytes_text (text : String) :
    Bytes.toBytes text.toByteArray = text.toList.flatMap String.utf8EncodeChar := by
  rw [Bytes.toBytes, ← String.utf8Encode_toList, List.utf8Encode, List.data_toByteArray]

/-- Below 128 a byte stands for its own character only. -/
theorem byte_of_char {c : Char} {b : UInt8} (member : b ∈ String.utf8EncodeChar c) :
    128 ≤ b.toNat ∨ b.toNat = c.toNat := by
  have whole : c.val.toNat = c.toNat := rfl
  unfold String.utf8EncodeChar at member
  dsimp only at member
  split at member
  · simp only [List.mem_singleton] at member
    subst member
    rw [UInt8.toNat_ofNat']
    omega
  · left
    split at member
    · simp only [List.mem_cons, List.not_mem_nil, or_false] at member
      rcases member with rfl | rfl <;> rw [UInt8.toNat_ofNat'] <;> omega
    split at member
    · simp only [List.mem_cons, List.not_mem_nil, or_false] at member
      rcases member with rfl | rfl | rfl <;> rw [UInt8.toNat_ofNat'] <;> omega
    · simp only [List.mem_cons, List.not_mem_nil, or_false] at member
      rcases member with rfl | rfl | rfl | rfl <;> rw [UInt8.toNat_ofNat'] <;> omega

theorem lineFeed_not_mem (plain : '\n' ∉ text.toList) :
    lineFeed ∉ Bytes.toBytes text.toByteArray := by
  rw [toBytes_text, List.mem_flatMap]
  rintro ⟨c, member, byte⟩
  rcases byte_of_char byte with large | same
  · exact absurd large (by decide)
  · have newline : c = '\n' := Char.toNat_inj.mp same.symm
    exact plain (newline ▸ member)

theorem cut_append (plain : lineFeed ∉ bytes) (rest : List UInt8) :
    cut (bytes ++ lineFeed :: rest) = (bytes ++ [lineFeed]) :: cut rest := by
  induction bytes with
  | nil => rw [List.nil_append, cut, if_pos rfl, List.nil_append]
  | cons b bytes ih =>
    obtain ⟨other, plain⟩ := not_or.mp (List.mem_cons.not.mp plain)
    rw [List.cons_append, cut, if_neg (Ne.symm other), ih plain]
    rfl

theorem cut_writeAll (plain : ∀ text ∈ texts, '\n' ∉ text.toList) :
    cut (writeAll texts) =
      texts.map fun text => Bytes.toBytes text.toByteArray ++ [lineFeed] := by
  induction texts with
  | nil => rfl
  | cons text texts ih =>
    obtain ⟨first, others⟩ := List.forall_mem_cons.mp plain
    rw [writeAll, List.flatMap_cons, List.append_assoc, List.singleton_append,
      cut_append (lineFeed_not_mem first), ← writeAll, ih others]
    rfl

theorem decode?_piece (text : String) :
    Utf8.decode? (Bytes.ofList (Bytes.toBytes text.toByteArray ++ [lineFeed])) =
      some (text ++ "\n") := by
  have written : Bytes.ofList (Bytes.toBytes text.toByteArray ++ [lineFeed]) =
      (text ++ "\n").toByteArray := by
    refine ByteArray.ext ?_
    rw [String.toByteArray_append, ByteArray.data_append, Bytes.ofList, Bytes.toBytes,
      ← List.append_toArray, Array.toArray_toList]
    rfl
  rw [written, Utf8.decode?_toByteArray]

theorem received_writeAll (plain : ∀ text ∈ texts, '\n' ∉ text.toList) :
    received (cut (writeAll texts)) = texts.map (· ++ "\n") := by
  rw [cut_writeAll plain]
  clear plain
  induction texts with
  | nil => rfl
  | cons text texts ih => rw [List.map_cons, received, decode?_piece, ih, List.map_cons]

theorem readAll_writeAll (spelled : List.Forall₂ Line.Spells lines texts) :
    readAll (writeAll texts) = lines.map some := by
  have plain : ∀ text ∈ texts, '\n' ∉ text.toList := by
    induction spelled with
    | nil => simp
    | cons first _ ih => exact List.forall_mem_cons.mpr ⟨Lines.newline_not_mem_spelled first, ih⟩
  rw [readAll, received_writeAll plain]
  clear plain
  induction spelled with
  | nil => rfl
  | cons first _ ih =>
    rw [List.map_cons, List.map_cons, Lines.ofText?_append first "\n" (List.all_eq_true.mp rfl), ih,
      List.map_cons]

theorem decodePairs_isOk (even : bytes.length % 2 = 0) (index : Nat) :
    (∃ decoded, Hex.decodePairs index bytes = .ok decoded) ↔
      ∀ b ∈ bytes, (Hex.value? b).isSome = true := by
  fun_induction Hex.decodePairs index bytes with
  | case1 index high low rest none => simp [none]
  | case2 index high low rest h none some => simp [none]
  | case3 index high low rest h l second first ih =>
    have left : rest.length % 2 = 0 := by
      rw [List.length_cons, List.length_cons] at even
      omega
    rw [List.forall_mem_cons, List.forall_mem_cons, ← ih left]
    cases Hex.decodePairs (index + 2) rest <;> simp [Except.map, first, second]
  | case4 bytes index short =>
    match bytes, short, even with
    | [], _, _ => simp
    | [_], _, odd => exact absurd odd (by simp)
    | high :: low :: rest, short, _ => exact (short high low rest rfl).elim

theorem decodeList_isOk (bytes : List UInt8) :
    (∃ decoded, Hex.decodeList bytes = .ok decoded) ↔
      bytes.length % 2 = 0 ∧ ∀ b ∈ bytes, (Hex.value? b).isSome = true := by
  rw [Hex.decodeList]
  split
  next odd => simp [odd]
  next paired =>
    have even : bytes.length % 2 = 0 := by omega
    rw [decodePairs_isOk even, and_iff_right even]

theorem bytes_ascii {c : Char} (ascii : c.toNat < 128) :
    String.utf8EncodeChar c = [c.toNat.toUInt8] := by
  unfold String.utf8EncodeChar
  exact if_pos (Nat.le_of_lt_succ ascii)

theorem ascii_digit {c : Char} (digit : c ∈ hexDigits) : c.toNat < 128 := by
  have all : hexDigits.all (·.toNat < 128) = true := rfl
  exact of_decide_eq_true (List.all_eq_true.mp all c digit)

/-- A character is a digit if its bytes are read as digits. -/
theorem digit_iff (c : Char) :
    (∀ b ∈ String.utf8EncodeChar c, (Hex.value? b).isSome = true) ↔ c ∈ hexDigits := by
  have small : ∀ n : Fin 128, (Hex.value? n.val.toUInt8).isSome = true ↔
      Char.ofNat n.val ∈ hexDigits := by decide +kernel
  have large : ∀ n : Fin 256, 128 ≤ n.val → (Hex.value? (UInt8.ofFin n)).isSome = false := by
    decide +kernel
  by_cases ascii : c.toNat < 128
  · have here := small ⟨c.toNat, ascii⟩
    rw [Char.ofNat_toNat] at here
    rw [bytes_ascii ascii, List.forall_mem_singleton]
    exact here
  · refine iff_of_false (fun read => ?_) (fun digit => ?_)
    · obtain ⟨b, member⟩ := List.exists_mem_of_ne_nil _ (@String.utf8EncodeChar_ne_nil c)
      have high : 128 ≤ b.toNat := by
        have same := byte_of_char member
        omega
      exact Bool.false_ne_true ((large b.toFin high).symm.trans (read b member))
    · exact ascii (ascii_digit digit)

theorem decode_isOk_iff (text : String) :
    (∃ frame, Hex.decode text = .ok frame) ↔ IsHex text := by
  have decoded : (∃ frame, Hex.decode text = .ok frame) ↔
      ∃ bytes, Hex.decodeList (Bytes.toBytes text.toByteArray) = .ok bytes := by
    rw [Hex.decode_eq, Bytes.toBytes]
    cases Hex.decodeList text.toByteArray.data.toList <;> simp [Except.map]
  rw [decoded, decodeList_isOk, toBytes_text, List.forall_mem_flatMap, IsHex]
  simp only [digit_iff]
  -- Whether the digits pair up is asked of the bytes, and each digit is one byte.
  refine and_congr_left fun digits => ?_
  have single : text.toList.flatMap String.utf8EncodeChar =
      text.toList.map fun c => c.toNat.toUInt8 := by
    rw [List.map_eq_flatMap]
    exact List.flatMap_congr fun c member => bytes_ascii (ascii_digit (digits c member))
  rw [single, List.length_map, String.length_toList]

/-- All entries are decoded, each by itself. -/
theorem toFrames?_eq_some : (Payload.frames digits).toFrames? = some frames ↔
    List.Forall₂ (fun text frame => Hex.decode text = .ok frame) digits frames := by
  have decoded (text : String) (frame : Bytes) :
      (Hex.decode text).toOption = some frame ↔ Hex.decode text = .ok frame := by
    cases Hex.decode text <;> simp [Except.toOption]
  change digits.mapM (fun text => (Hex.decode text).toOption) = some frames ↔ _
  induction digits generalizing frames with
  | nil =>
    rw [List.mapM_nil, List.forall₂_nil_left_iff]
    exact ⟨fun same => (Option.some.inj same).symm, fun same => congrArg some same.symm⟩
  | cons text digits ih =>
    rw [List.mapM_cons, List.forall₂_cons_left_iff]
    simp only [Option.bind_eq_bind, Option.bind_eq_some_iff, Option.pure_def, Option.some.injEq,
      decoded, ih]
    constructor
    · rintro ⟨frame, first, others, rest, rfl⟩
      exact ⟨frame, others, first, rest, rfl⟩
    · rintro ⟨frame, others, first, rest, rfl⟩
      exact ⟨frame, first, others, rest, rfl⟩

theorem exists_toFrames?_iff (digits : List String) :
    (∃ frames, (Payload.frames digits).toFrames? = some frames) ↔ ∀ text ∈ digits, IsHex text := by
  simp only [toFrames?_eq_some, ← decode_isOk_iff]
  induction digits with
  | nil => simp
  | cons text digits ih =>
    rw [List.forall_mem_cons, ← ih]
    constructor
    · rintro ⟨frames, decoded⟩
      obtain ⟨frame, others, first, rest, -⟩ := List.forall₂_cons_left_iff.mp decoded
      exact ⟨⟨frame, first⟩, others, rest⟩
    · rintro ⟨⟨frame, first⟩, others, rest⟩
      exact ⟨frame :: others, .cons first rest⟩

theorem toFrames?_eq_none {payload : Payload} : payload.toFrames? = none ↔
    ∃ digits, payload = .frames digits ∧ ∃ text ∈ digits, ¬IsHex text := by
  cases payload with
  | text s => simp [Payload.toFrames?]
  | frames digits =>
    have missing := (exists_toFrames?_iff digits).not
    rw [← Option.isSome_iff_exists, Option.not_isSome_iff_eq_none] at missing
    simpa using missing

theorem toFrames?_ofFrames (frames : List Bytes) :
    (Payload.ofFrames frames).toFrames? = some frames := by
  refine toFrames?_eq_some.mpr ?_
  induction frames with
  | nil => exact .nil
  | cons frame frames ih => exact .cons (Values.decode_encode frame) ih

/-- The text of a line stands on one line and is read as the line, whatever it holds and in whatever order
a hello lists its headers, so a reader gets the lines that were written. Frames come through a line as they
were; a payload has none at all if an entry is not in digits, and only then. -/
theorem lines_come_through :
    (∀ l : Line, l.Spells l.toText) ∧
    (∀ {l : Line} {text}, l.Spells text → '\n' ∉ text.toList ∧ Line.ofText? text = some l) ∧
    (∀ {lines texts}, List.Forall₂ Line.Spells lines texts →
      readAll (writeAll texts) = lines.map some) ∧
    (∀ frames, (Payload.ofFrames frames).toFrames? = some frames ∧
      ∀ {l : Line} {text}, l.payload = some (.ofFrames frames) → l.Spells text →
        (Line.ofText? text).bind Line.frames? = some frames) ∧
    (∀ payload : Payload, payload.toFrames? = none ↔
      ∃ digits, payload = .frames digits ∧ ∃ text ∈ digits, ¬IsHex text) ∧
    ∀ {digits frames}, (Payload.frames digits).toFrames? = some frames →
      List.Forall₂ (fun text frame => Hex.decode text = .ok frame) digits frames := by
  refine ⟨spells_toText,
    fun spelled => ⟨Lines.newline_not_mem_spelled spelled, Lines.ofText?_spelled spelled⟩,
    readAll_writeAll, fun frames => ⟨toFrames?_ofFrames frames, fun {l text} carried spelled => ?_⟩,
    fun _ => toFrames?_eq_none, toFrames?_eq_some.mp⟩
  rw [Lines.ofText?_spelled spelled, Option.bind_some, Line.frames?, carried, Option.bind_some,
    toFrames?_ofFrames]

private def ada : Hello where
  nodeId := "n-1"
  name := "\"Ada\"\n"
  listenAddress := some "127.0.0.1:5670"
  protocol := none
  version := none
  headers := Table.ofList [("publisher", "6000"), ("zone", "\\é")]
  groups := ["town"]

private def greeting : Line := ⟨"n-1", .hello ada, none⟩

private def turned : String :=
  (greeting.jsonOf (helloJson ada [("zone", "\\é"), ("publisher", "6000")])).compact

private def order : List Bytes := ["MUTE".toByteArray, Bytes.ofList [0, 255, 10], ByteArray.empty]

private def whispered : Line := ⟨"n-2", .whisper, some (.ofFrames order)⟩

theorem greeting_comes_through :
    turned ≠ greeting.toText ∧ greeting.Spells turned ∧
    '\n' ∉ turned.toList ∧ Line.ofText? turned = some greeting ∧
    readAll (writeAll [turned, whispered.toText]) = [some greeting, some whispered] ∧
    (Line.ofText? whispered.toText).bind Line.frames? = some order ∧
    (Payload.frames ["00fF", "0g"]).toFrames? = none ∧
    List.Forall₂ (fun text frame => Hex.decode text = .ok frame) ["00fF", ""]
      [Bytes.ofList [0, 255], ByteArray.empty] := by
  obtain ⟨spells, reads, streams, carries, missing, decodes⟩ := lines_come_through
  have spelled : greeting.Spells turned :=
    ⟨_, .hello (List.Perm.swap ("publisher", "6000") ("zone", "\\é") []), rfl⟩
  obtain ⟨plain, read⟩ := reads spelled
  refine ⟨by decide +kernel, spelled, plain, read, ?_, ?_, ?_, decodes (by decide +kernel)⟩
  · exact streams (.cons spelled (.cons (spells whispered) .nil))
  · exact (carries order).2 rfl (spells whispered)
  · refine (missing _).mpr ⟨_, rfl, "0g", by simp, fun hex => ?_⟩
    exact absurd (hex.2 'g' (by decide)) (by decide)

end Proofs.LineStreams
end PeerMesh
