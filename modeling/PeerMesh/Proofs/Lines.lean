import PeerMesh.Line.Text
import PeerMesh.Proofs.JsonText
import PeerMesh.Proofs.Tables

/-! Presence lines are read back as they were written, in whatever order a hello lists its headers. -/

namespace PeerMesh

namespace Line

/-- What a kind can be written as: the headers of a hello have no order of their own. -/
inductive SpellsKind : LineKind → Json → Prop where
  | hello {h : Hello} {headers : List (String × String)} (listed : headers.Perm h.headers.entries) :
      SpellsKind (.hello h) (helloJson h headers)
  | plain (kind : LineKind) : SpellsKind kind (kindJson kind)

/-- Whether a text is one that writes the line. -/
def Spells (l : Line) (text : String) : Prop :=
  ∃ kind, SpellsKind l.kind kind ∧ text = (l.jsonOf kind).compact

theorem spells_toText (l : Line) : l.Spells l.toText := ⟨_, .plain l.kind, rfl⟩

end Line

namespace Proofs.Lines
open Json Json.Document JsonText Line

variable {l : Line} {kind : Json} {text : String} {h : Hello} {headers : List (String × String)}

theorem readOptional?_optional (s : Option String) :
    readOptional? (document (Json.optionalText s)) = some s := by
  cases s <;> rfl

theorem readHeaders?_listed {t : Table String} (listed : headers.Perm t.entries) :
    readHeaders? (document (.object (headers.map fun e => (e.1, .string e.2)))) = some t := by
  have members : ∀ entries : List (String × String),
      (documentMembers (entries.map fun e => (e.1, .string e.2))).mapM readHeader? = some entries := by
    intro entries
    induction entries with
    | nil => rfl
    | cons entry entries ih =>
      rw [List.map_cons, documentMembers, List.mapM_cons, ih]
      rfl
  rw [document, readHeaders?, members, Option.map_some, Table.ofList_of_perm listed]

theorem list?_strings (texts : List String) :
    Document.list? Document.text? (document (strings texts)) = some texts := by
  have read : Document.list? Document.text? (document (.array (texts.map .string))) =
      some (texts.map id) := list?_document texts fun _ _ => rfl
  rwa [List.map_id] at read

theorem list?_peers (peers : List NodeAddress) :
    Document.list? readNodeAddress? (document (.array (peers.map fun p =>
      .object [("node_id", .string p.nodeId), ("addr", .string p.address)]))) = some peers := by
  have read : Document.list? readNodeAddress? (document (.array (peers.map fun p =>
      .object [("node_id", .string p.nodeId), ("addr", .string p.address)]))) =
      some (peers.map id) := list?_document peers fun _ _ => rfl
  rwa [List.map_id] at read

theorem readKind?_hello (listed : headers.Perm h.headers.entries) :
    readKind? (document (helloJson h headers)) = some (.hello h) := by
  change (do
    let listenAddress ← readOptional? (document (Json.optionalText h.listenAddress))
    let protocol ← readOptional? (document (Json.optionalText h.protocol))
    let version ← readOptional? (document (Json.optionalText h.version))
    let headers ← readHeaders? (document (.object
      (headers.map fun (e : String × String) => (e.1, .string e.2))))
    let groups ← Document.list? Document.text? (document (strings h.groups))
    some (Hello.mk h.nodeId h.name listenAddress protocol version headers groups)).map
      LineKind.hello = _
  rw [readOptional?_optional, readOptional?_optional, readOptional?_optional,
    readHeaders?_listed listed, list?_strings]
  rfl

theorem readKind?_document {written : LineKind} (spelled : SpellsKind written kind) :
    readKind? (document kind) = some written := by
  cases spelled with
  | hello listed => exact readKind?_hello listed
  | plain =>
    cases written with
    | hello h => exact readKind?_hello (List.Perm.refl _)
    | peerList peers => exact congrArg (Option.map LineKind.peerList) (list?_peers peers)
    | join group | leave group | shout group => rfl
    | whisper | heartbeat | disconnect => rfl

theorem readPayload?_document (payload : Payload) :
    readPayload? (document (payloadJson payload)) = some (some payload) := by
  cases payload with
  | text s => rfl
  | frames digits =>
    exact congrArg (Option.map fun digits => some (Payload.frames digits)) (list?_strings digits)

theorem ofDocument?_jsonOf (spelled : SpellsKind l.kind kind) :
    Line.ofDocument? (document (l.jsonOf kind)) = some l := by
  have read := readKind?_document spelled
  obtain ⟨sender, written, payload⟩ := l
  cases payload with
  | none =>
    change (do
      let kind ← readKind? (document kind)
      some (Line.mk sender kind none)) = _
    rw [read]
    rfl
  | some payload =>
    change (do
      let kind ← readKind? (document kind)
      let payload ← readPayload? (document (payloadJson payload))
      some (Line.mk sender kind payload)) = _
    rw [read, readPayload?_document]
    rfl

theorem allReadable_strings (texts : List String) : AllReadable (strings texts) := by
  refine allReadableItems_iff.mpr fun item member => ?_
  obtain ⟨_, -, rfl⟩ := List.mem_map.mp member
  exact trivial

theorem allReadable_optional (s : Option String) : AllReadable (Json.optionalText s) := by
  cases s <;> exact trivial

theorem allReadable_helloJson (h : Hello) (headers : List (String × String)) :
    AllReadable (helloJson h headers) := by
  have members (entries : List (String × String)) :
      AllReadableMembers (entries.map fun e => (e.1, .string e.2)) := by
    induction entries with
    | nil => exact trivial
    | cons entry entries ih => exact ⟨trivial, ih⟩
  exact ⟨⟨trivial, trivial, allReadable_optional _, allReadable_optional _, allReadable_optional _,
    members _, allReadable_strings _, trivial⟩, trivial⟩

theorem allReadable_kind {written : LineKind} (spelled : SpellsKind written kind) :
    AllReadable kind := by
  cases spelled with
  | hello => exact allReadable_helloJson _ _
  | plain =>
    cases written with
    | hello h => exact allReadable_helloJson _ _
    | peerList peers =>
      refine ⟨⟨allReadableItems_iff.mpr fun item member => ?_, trivial⟩, trivial⟩
      obtain ⟨_, -, rfl⟩ := List.mem_map.mp member
      exact ⟨trivial, trivial, trivial⟩
    | join group | leave group | shout group => exact ⟨⟨trivial, trivial⟩, trivial⟩
    | whisper | heartbeat | disconnect => exact trivial

theorem allReadable_payloadJson (payload : Payload) : AllReadable (payloadJson payload) := by
  cases payload with
  | text s => exact ⟨trivial, trivial, trivial⟩
  | frames digits => exact ⟨trivial, allReadable_strings digits, trivial⟩

theorem allReadable_jsonOf (spelled : SpellsKind l.kind kind) : AllReadable (l.jsonOf kind) := by
  have readable := allReadable_kind spelled
  obtain ⟨sender, written, payload⟩ := l
  cases payload with
  | none => exact ⟨trivial, readable, trivial, trivial⟩
  | some payload => exact ⟨trivial, readable, allReadable_payloadJson payload, trivial⟩

/-- The text of a line ends with a bracket, and blank characters behind it do not count. -/
theorem trimmedEnd_spelled (spelled : l.Spells text) {tail : String}
    (blank : ∀ c ∈ tail.toList, Text.isBlank c = true) : Text.trimmedEnd (text ++ tail) = text := by
  obtain ⟨kind, -, rfl⟩ := spelled
  have shape : ∃ cs, (l.jsonOf kind).compact.toList = cs ++ ['\x7d'] := by
    rw [jsonOf, compact, String.toList_append]
    exact ⟨_, rfl⟩
  obtain ⟨cs, written⟩ := shape
  have dropped : (tail.toList.reverse ++ ('\x7d' :: cs.reverse)).dropWhile Text.isBlank =
      '\x7d' :: cs.reverse := by
    rw [List.dropWhile_append_of_pos fun c member => blank c (List.mem_reverse.mp member),
      List.dropWhile_cons_of_neg (by decide)]
  rw [Text.trimmedEnd, Text.trimEnd, String.toList_append, written, List.reverse_append,
    List.reverse_append, List.reverse_singleton, List.singleton_append, dropped, List.reverse_cons,
    List.reverse_reverse, ← written, String.ofList_toList]

theorem ofText?_append (spelled : l.Spells text) (tail : String)
    (blank : ∀ c ∈ tail.toList, Text.isBlank c = true) : Line.ofText? (text ++ tail) = some l := by
  rw [Line.ofText?, trimmedEnd_spelled spelled blank]
  obtain ⟨kind, spelled, rfl⟩ := spelled
  rw [ofText?_compact (allReadable_jsonOf spelled)]
  exact ofDocument?_jsonOf spelled

theorem ofText?_spelled (spelled : l.Spells text) : Line.ofText? text = some l := by
  rw [← ofText?_append spelled "" (List.all_eq_true.mp rfl), String.append_empty]

theorem ofText?_toText (l : Line) : Line.ofText? l.toText = some l := ofText?_spelled l.spells_toText

theorem newline_not_mem_spelled (spelled : l.Spells text) : '\n' ∉ text.toList := by
  obtain ⟨kind, -, rfl⟩ := spelled
  exact newline_not_mem_compact _

end Proofs.Lines
end PeerMesh
