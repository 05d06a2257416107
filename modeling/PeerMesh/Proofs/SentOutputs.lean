import PeerMesh.Proofs.DefinitionFiles
import PeerMesh.Proofs.Delivery
import PeerMesh.Proofs.FrameReading
import PeerMesh.Proofs.ValueLimits

/-! Outputs that have been written are sent. What a write stores is held to a limit, and so is the name that
it is stored under, whatever was done to the definition before; together with their lengths and the tag they
go into one frame. A connection that is handed such messages stays up and has them all sent that its
subscriber asks for. -/

namespace PeerMesh

def DataMessage.Written (m : DataMessage) : Prop :=
  ∃ d after value, Definition.Reached d ∧ d.write .output m.name value = .ok (after, m.value)

namespace Proofs.SentOutputs
open DefinitionFiles Framing Multipart Outcomes Publications SlotOperations

variable {d after : Definition} {name : String} {value stored : Value} {m : DataMessage}

/-- The slot that was written, which stands under its own name and is held to the limit. -/
theorem slot_of_write (reached : d.Reached)
    (written : d.write .output name value = .ok (after, stored)) :
    ∃ slot, after.output? name = some slot ∧ slot.Sound name ∧ slot.message = ⟨name, stored⟩ ∧
      slot.value.size ≤ Limits.value := by
  have regular := regular_of_reached reached
  obtain ⟨slot, found, converted, fits, rfl⟩ := write_eq_ok.mp written
  have sound := regular.slots .output name slot found
  refine ⟨{ slot with value := stored }, ?_, ⟨sound.named, sound.clean, ?_⟩, ?_, fits⟩
  · exact (Definitions.get?_insert _ .output .output name name _).trans (if_pos ⟨rfl, rfl⟩)
  · exact Values.type_of_convertTo converted
  · exact congrArg (DataMessage.mk · stored) sound.named

theorem short_of_written (written : m.Written) : (encode m.toFrames).size ≤ Limits.frame := by
  obtain ⟨d, after, value, reached, done⟩ := written
  obtain ⟨slot, -, sound, same, fits⟩ := slot_of_write reached done
  obtain ⟨bytes, sent⟩ := ValueLimits.sends_of_fits sound fits
  rw [same] at sent
  exact (send_eq_ok_iff.mp sent).1

/-- What was written is prepared, if nothing is held back. -/
theorem prepare_of_write (reached : d.Reached)
    (written : d.write .output name value = .ok (after, stored)) {a : Agent}
    (holds : a.definition = after) :
    (a.isOpen name = true → a.prepare name = .ok (.ok ⟨name, stored⟩)) ∧
    (a.isOpen name = false → ∃ gate, a.prepare name = .ok (.error gate)) := by
  obtain ⟨slot, found, -, same, -⟩ := slot_of_write reached written
  unfold Agent.isOpen Agent.prepare
  rw [holds, found, Option.any_some]
  dsimp only
  rw [same]
  cases a.frozen <;> cases a.muted <;> cases slot.muted <;> simp

/-- The bytes that go out for some messages, of which those are sent that the filters have. -/
def wanted (filters : NameSet) (messages : List DataMessage) : Bytes :=
  stream ((messages.filter fun m => Table.contains filters m.name).map fun m => encode m.toFrames)

theorem wanted_cons (filters : NameSet) (m : DataMessage) (messages : List DataMessage) :
    wanted filters (m :: messages) =
      stream (if Table.contains filters m.name then [encode m.toFrames] else []) ++
        wanted filters messages := by
  unfold wanted
  rw [List.filter_cons, ← stream_append]
  split <;> rfl

private def takeNext (state : Publisher.Connection × Bytes) (_ : DataMessage) :
    Publisher.Connection × Bytes :=
  (state.1.takeOne.1, state.2 ++ state.1.takeOne.2)

private theorem foldl_takeNext {c : Publisher.Connection} {messages : List DataMessage} (sent : Bytes)
    (waiting : c.queue = messages) (short : ∀ m ∈ messages, (encode m.toFrames).size ≤ Limits.frame) :
    messages.foldl takeNext (c, sent) =
      ({ c with queue := [] }, sent ++ wanted c.filters messages) := by
  induction messages generalizing c sent with
  | nil =>
    obtain ⟨_, _, _, _⟩ := c
    cases waiting
    exact Prod.ext rfl ByteArray.append_empty.symm
  | cons m messages ih =>
    obtain ⟨first, others⟩ := List.forall_mem_cons.mp short
    rw [List.foldl_cons, takeNext, Delivery.takeOne_cons waiting first, ih _ rfl others, wanted_cons,
      ByteArray.append_assoc]

/-- A connection takes all messages that wait, and stays up, if none of them is too long. -/
theorem takeAll_of_short {c : Publisher.Connection}
    (short : ∀ m ∈ c.queue, (encode m.toFrames).size ≤ Limits.frame) :
    c.takeAll = ({ c with queue := [] }, wanted c.filters c.queue) := by
  have taken := foldl_takeNext ByteArray.empty rfl short
  rw [ByteArray.empty_append] at taken
  exact taken

/-- Once an output has been written, the message with its value is prepared, unless the agent or the output
is held back. It goes into one frame; so it is sent, and a connection whose messages are such sends all
that its subscriber asks for, and does not end. -/
theorem written_outputs_are_sent :
    (∀ {d after : Definition} {name value stored}, d.Reached →
      d.write .output name value = .ok (after, stored) →
      DataMessage.Written ⟨name, stored⟩ ∧ ∀ a : Agent, a.definition = after →
        (a.isOpen name = true → a.prepare name = .ok (.ok ⟨name, stored⟩)) ∧
        (a.isOpen name = false → ∃ gate, a.prepare name = .ok (.error gate))) ∧
    (∀ m : DataMessage, m.Written →
      Fits m.toFrames ∧ (encode m.toFrames).size ≤ Limits.frame ∧
        send m.toFrames = .ok (stream [encode m.toFrames])) ∧
    ∀ c : Publisher.Connection, (∀ m ∈ c.queue, m.Written) →
      c.takeAll = ({ c with queue := [] }, wanted c.filters c.queue) := by
  refine ⟨fun reached written => ⟨⟨_, _, _, reached, written⟩, fun a holds =>
    prepare_of_write reached written holds⟩, fun m written => ?_, fun c written => ?_⟩
  · have short := short_of_written written
    exact ⟨bounds_of_short short, short, send_eq_ok_iff.mpr ⟨short, rfl⟩⟩
  · exact takeAll_of_short fun m member => short_of_written (written m member)

/-! The longest name and the greatest value that there are. -/

private def banner : String := String.ofList (List.replicate Name.maxLength '😀')

private def cargo : Bytes := ⟨Array.replicate Limits.value 0⟩

private theorem size_cargo : cargo.size = Limits.value := Array.size_replicate

private def emptyHold : Slot := ⟨banner, .data, .data ByteArray.empty, false⟩

private def depot : Definition :=
  { Definition.new "depot" with outputs := Table.insert Table.empty banner emptyHold }

private theorem sanitize_banner : Name.sanitize banner = banner := by
  refine Names.sanitize_of_plain (fun c member => ?_) ?_
  · rw [banner, String.toList_ofList] at member
    rw [List.eq_of_mem_replicate member]
    decide
  · rw [banner, String.toList_ofList, List.length_replicate]

private theorem depot_created : (Definition.new "depot").attempt (.create .output banner .data none) =
    .ok depot := by
  have spelled : banner.isEmpty = false := by
    rw [String.isEmpty_eq_false_iff, banner, ne_eq, String.ofList_eq_empty_iff]
    exact List.cons_ne_nil _ _
  refine (attempt_eq_ok _).mpr ⟨?_, fun other => by cases other <;> rfl, _, rfl, ?_⟩
  · rw [sanitize_banner]
    exact spelled
  · rw [sanitize_banner]
    exact puts_insert (Definition.new "depot") .output banner emptyHold

private theorem depot_reached : depot.Reached := by
  refine ⟨_, .new "depot", [.create .output banner .data none], ?_⟩
  rw [Definition.performAll, List.foldl_cons, List.foldl_nil]
  exact perform_of_done depot_created

private def loaded : Definition :=
  depot.setTable .output ((depot.table .output).insert banner { emptyHold with value := .data cargo })

private theorem cargo_written :
    depot.write .output banner (.data cargo) = .ok (loaded, .data cargo) := by
  have found : depot.get? .output banner = some emptyHold :=
    (Table.get?_insert Table.empty banner banner emptyHold).trans (if_pos rfl)
  exact write_eq_ok.mpr ⟨emptyHold, found, rfl, Nat.le_of_eq size_cargo, rfl⟩

private def quay : Publisher.Connection :=
  { Publisher.Connection.new with
    filters := NameSet.add Table.empty banner, queue := [⟨banner, .data cargo⟩] }

theorem cargo_is_sent :
    depot.write .output banner (.data cargo) = .ok (loaded, .data cargo) ∧
    Agent.prepare { Agent.new "depot" with definition := loaded } banner =
      .ok (.ok ⟨banner, .data cargo⟩) ∧
    (encode (DataMessage.toFrames ⟨banner, .data cargo⟩)).size ≤ Limits.frame ∧
    quay.takeAll.1.ended = false ∧
    quay.takeAll.2 = stream [encode (DataMessage.toFrames ⟨banner, .data cargo⟩)] := by
  obtain ⟨prepares, fits, sends⟩ := written_outputs_are_sent
  obtain ⟨written, prepared⟩ := prepares depot_reached cargo_written
  have taken := sends quay (List.forall_mem_singleton.mpr written)
  have asked : Table.contains quay.filters banner = true := by
    rw [quay, NameSet.contains_add, decide_eq_true rfl, Bool.true_or]
  have open_ : Agent.isOpen { Agent.new "depot" with definition := loaded } banner = true := by
    have found : loaded.output? banner = some { emptyHold with value := .data cargo } :=
      (Definitions.get?_insert _ .output .output banner banner _).trans (if_pos ⟨rfl, rfl⟩)
    rw [Agent.isOpen, found]
    rfl
  refine ⟨cargo_written, (prepared _ rfl).1 open_, (fits _ written).2.1, congrArg (·.1.ended) taken, ?_⟩
  rw [taken, show quay.queue = [⟨banner, .data cargo⟩] from rfl, wanted_cons, asked, if_pos rfl]
  exact ByteArray.append_empty

end Proofs.SentOutputs
end PeerMesh
