import PeerMesh.Proofs.DataMessages
import PeerMesh.Proofs.FilterLinks
import PeerMesh.Proofs.Framing
import PeerMesh.Reactor.Lifecycle

/-! What comes out of a connection from a publisher to a subscription. Messages are published, and
changes of the filters come in, in any order; each message is taken from the queue some time later and
goes out if the filters of that moment have its name. Its bytes arrive in pieces of any size. The agent is
given the messages that were wanted when they were taken, in the order of publication, and nothing else. -/

namespace PeerMesh

/-- A publisher's connection, the bytes on their way to the subscriber, and the socket that reads them. -/
structure Feed where
  near : Publisher.Connection
  wire : Bytes
  far : Subscription

namespace Feed

inductive Act where
  | publish (message : DataMessage)
  /-- A message of the subscriber comes in, whatever its parts. -/
  | control (parts : List Bytes)
  /-- The connection takes the oldest message from its queue. -/
  | take

/-! What is said of some acts, the latest of which is the first of the list. -/

def published : List Act → List DataMessage
  | [] => []
  | .publish message :: past => published past ++ [message]
  | _ :: past => published past

/-- Whether the last control that names an output asks for it. -/
def wants (output : String) : List Act → Bool
  | [] => false
  | .control parts :: past =>
    if parts = [FilterChange.subscribeWord, output.toByteArray] then true
    else if parts = [FilterChange.unsubscribeWord, output.toByteArray] then false
    else wants output past
  | _ :: past => wants output past

/-- What had happened when the messages were taken, one after the other. -/
def takes : List Act → List (List Act)
  | [] => []
  | .take :: past => takes past ++ [past]
  | _ :: past => takes past

/-- The messages that were wanted when they were taken. -/
def selected (acts : List Act) : List DataMessage :=
  ((published acts).zip (takes acts)).filterMap fun (message, past) =>
    if wants message.name past then some message else none

/-- A connection that stays up, from the moment at which a socket has connected. The queue never
overflows, and every message fits into a frame. The agent is told what the socket reads. -/
inductive Run (socket : Subscription) : List Act → Feed → List Stimulus → Prop where
  | connected : Run socket [] ⟨.new, ByteArray.empty, socket.connect.1⟩ []
  | publish {acts : List Act} {feed : Feed} {told : List Stimulus} {message : DataMessage}
      {bytes : Bytes} (run : Run socket acts feed told)
      (fits : Multipart.send message.toFrames = .ok bytes)
      (room : feed.near.queue.length < Publisher.Connection.capacity) :
      Run socket (.publish message :: acts) { feed with near := feed.near.enqueue [message] } told
  | control {acts : List Act} {feed : Feed} {told : List Stimulus} (parts : List Bytes)
      (run : Run socket acts feed told) :
      Run socket (.control parts :: acts) { feed with near := feed.near.handle (.parts parts) } told
  | take {acts : List Act} {feed : Feed} {told : List Stimulus} (run : Run socket acts feed told)
      (waiting : feed.near.queue ≠ []) :
      Run socket (.take :: acts)
        { feed with near := feed.near.takeOne.1, wire := feed.wire ++ feed.near.takeOne.2 } told
  | arrive {acts : List Act} {feed : Feed} {told : List Stimulus} {chunk rest : Bytes}
      (run : Run socket acts feed told) (sent : feed.wire = chunk ++ rest) :
      Run socket acts { feed with wire := rest, far := (feed.far.receive chunk).1 }
        (told ++ (feed.far.receive chunk).2.map (.published feed.far.peerId))
  /-- The socket is given a change of its filters, or takes one. -/
  | change {acts : List Act} {feed : Feed} {told : List Stimulus} (change : FilterChange)
      (run : Run socket acts feed told) :
      Run socket acts { feed with far := feed.far.change change } told
  | pass {acts : List Act} {feed : Feed} {told : List Stimulus} (run : Run socket acts feed told) :
      Run socket acts { feed with far := feed.far.takeOne.1 } told

end Feed

namespace Proofs.Delivery
open Feed FilterLinks Framing Multipart

variable {socket : Subscription} {acts : List Act} {feed : Feed} {told : List Stimulus}

theorem contains_handle {near : Publisher.Connection} (living : near.ended = false)
    (parts : List Bytes) (output : String) :
    Table.contains (near.handle (.parts parts)).filters output =
      if parts = [FilterChange.subscribeWord, output.toByteArray] then true
      else if parts = [FilterChange.unsubscribeWord, output.toByteArray] then false
      else Table.contains near.filters output := by
  have different : FilterChange.subscribeWord ≠ FilterChange.unsubscribeWord := by decide
  cases read : FilterChange.ofFrames? parts with
  | none =>
    have foreign (change : FilterChange) : parts ≠ change.toFrames := fun same => by
      rw [ofFrames?_eq_some_iff.mpr same] at read
      cases read
    rw [handle_foreign read]
    exact ((if_neg (foreign (.subscribe output))).trans (if_neg (foreign (.unsubscribe output)))).symm
  | some change =>
    obtain rfl := ofFrames?_eq_some_iff.mp read
    rw [handle_toFrames living]
    cases change with
    | subscribe name =>
      simp [FilterChange.apply, FilterChange.toFrames, NameSet.contains_add, different,
        String.toByteArray_inj]
    | unsubscribe name =>
      simp [FilterChange.apply, FilterChange.toFrames, Table.contains_erase, different.symm,
        String.toByteArray_inj]

theorem queue_handle (near : Publisher.Connection) (parts : List Bytes) :
    (near.handle (.parts parts)).queue = near.queue := by
  unfold Publisher.Connection.handle
  dsimp only
  split
  · rfl
  · split <;> rfl

/-- While there is room in the queue, nothing is lost. -/
theorem enqueue_of_room {near : Publisher.Connection} (message : DataMessage)
    (room : near.queue.length < Publisher.Connection.capacity) :
    near.enqueue [message] = { near with queue := near.queue ++ [message] } := by
  have all : (near.queue ++ [message]).length - Publisher.Connection.capacity = 0 := by
    rw [List.length_append, List.length_singleton]
    omega
  rw [Publisher.Connection.enqueue, all, List.drop_zero]

/-- The frame of a message goes out, if its name is among the filters. -/
theorem takeOne_cons {near : Publisher.Connection} {message : DataMessage} {rest : List DataMessage}
    (waiting : near.queue = message :: rest)
    (short : (encode message.toFrames).size ≤ Limits.frame) :
    near.takeOne = ({ near with queue := rest },
      stream (if Table.contains near.filters message.name then [encode message.toFrames] else [])) := by
  rw [Publisher.Connection.takeOne, waiting]
  dsimp only
  rw [send_eq_ok_iff.mpr ⟨short, rfl⟩]
  split <;> rfl

theorem foldl_handle {far : Subscription} (reading : far.reader.isSome = true)
    (messages known : List DataMessage) :
    (messages.map fun message => Received.parts message.toFrames).foldl
        (fun (state : Subscription × List DataMessage) item =>
          ((state.1.handle item).1, state.2 ++ (state.1.handle item).2))
        (far, known) = (far, known ++ messages) := by
  induction messages generalizing known with
  | nil => simp
  | cons message messages ih =>
    have first : far.handle (.parts message.toFrames) = (far, [message]) := by
      rw [Subscription.handle, if_pos reading, DataMessages.ofFrames_toFrames]
      rfl
    rw [List.map_cons, List.foldl_cons, first, ih, List.append_assoc]
    rfl

/-- What a socket holds back and what is on its way are the frames of the messages that it has yet to
read; if nothing is on its way, it has read them all. -/
structure Awaits (far : Subscription) (coming : Bytes) (left : List DataMessage) : Prop where
  reading : ∃ reader, far.reader = some reader ∧ reader.ended = false ∧
    reader.buffer ++ coming = stream (left.map fun message => encode message.toFrames)
  drained : coming = ByteArray.empty → left = []

theorem receive_of_awaits {far : Subscription} {chunk coming : Bytes} {left : List DataMessage}
    (awaits : Awaits far (chunk ++ coming) left)
    (short : ∀ message ∈ left, (encode message.toFrames).size ≤ Limits.frame) :
    ∃ whole later, left = whole ++ later ∧ (far.receive chunk).2 = whole ∧
      (far.receive chunk).1.peerId = far.peerId ∧ Awaits (far.receive chunk).1 coming later := by
  obtain ⟨reader, connected, reading, all⟩ := awaits.reading
  have frames : left.map (fun message => encode message.toFrames) =
      (left.map DataMessage.toFrames).map encode := by
    rw [List.map_map]
    rfl
  rw [frames] at all
  obtain ⟨read, unread, held, same, fed, coming_, drained⟩ :=
    feed_of_append_eq_stream reading (by simpa using short) all
  obtain ⟨whole, later, rfl, rfl, rfl⟩ := List.map_eq_append_iff.mp same
  have received : far.receive chunk = ({ far with reader := some ⟨held, false⟩ }, whole) := by
    rw [Subscription.receive, connected]
    dsimp only
    rw [fed, List.map_map]
    exact foldl_handle rfl whole []
  rw [received]
  refine ⟨whole, later, rfl, rfl, rfl, ⟨_, rfl, rfl, ?_⟩, fun empty => ?_⟩
  · rw [coming_, List.map_map]
    rfl
  · exact List.map_eq_nil_iff.mp (drained empty)

/-- What a feed has come to after some acts. -/
structure Faithful (socket : Subscription) (acts : List Act) (feed : Feed) (told : List Stimulus) :
    Prop where
  living : feed.near.ended = false
  filters : ∀ output, Table.contains feed.near.filters output = wants output acts
  /-- The messages in the queue are those that have not been taken. -/
  queued : ∃ taken, published acts = taken ++ feed.near.queue ∧ taken.length = (takes acts).length
  short : ∀ message ∈ published acts, (encode message.toFrames).size ≤ Limits.frame
  peer : feed.far.peerId = socket.peerId
  delivered : ∃ read left, selected acts = read ++ left ∧
    told = read.map (.published socket.peerId) ∧ Awaits feed.far feed.wire left

/-- What has been selected of the messages that were taken. -/
theorem selected_of_taken {taken queue : List DataMessage} (all : published acts = taken ++ queue)
    (count : taken.length = (takes acts).length) :
    selected acts = (taken.zip (takes acts)).filterMap fun (message, past) =>
      if wants message.name past then some message else none := by
  have pairs : (taken ++ queue).zip (takes acts) = taken.zip (takes acts) := by
    have parts : (taken ++ queue).zip (takes acts ++ []) = taken.zip (takes acts) ++ queue.zip [] :=
      List.zip_append count
    rwa [List.append_nil, List.zip_nil_right, List.append_nil] at parts
  rw [selected, all, pairs]

theorem mem_published_of_selected {message : DataMessage} (member : message ∈ selected acts) :
    message ∈ published acts := by
  obtain ⟨⟨other, past⟩, pair, chosen⟩ := List.mem_filterMap.mp member
  dsimp only at chosen
  split at chosen
  · cases chosen
    exact (List.of_mem_zip pair).1
  · cases chosen

theorem short_of_selected (faithful : Faithful socket acts feed told) :
    ∀ message ∈ selected acts, (encode message.toFrames).size ≤ Limits.frame := fun message member =>
  faithful.short message (mem_published_of_selected member)

theorem faithful_connected (socket : Subscription) :
    Faithful socket [] ⟨.new, ByteArray.empty, socket.connect.1⟩ [] where
  living := rfl
  filters _ := rfl
  queued := ⟨[], rfl, rfl⟩
  short _ member := by cases member
  peer := rfl
  delivered := ⟨[], [], rfl, rfl, ⟨_, rfl, rfl, ByteArray.append_empty⟩, fun _ => rfl⟩

theorem faithful_publish (faithful : Faithful socket acts feed told) {message : DataMessage} {bytes : Bytes}
    (fits : send message.toFrames = .ok bytes)
    (room : feed.near.queue.length < Publisher.Connection.capacity) :
    Faithful socket (.publish message :: acts)
      { feed with near := feed.near.enqueue [message] } told := by
  obtain ⟨taken, all, count⟩ := faithful.queued
  have longer : published (.publish message :: acts) = taken ++ (feed.near.queue ++ [message]) := by
    rw [published, all, List.append_assoc]
  rw [enqueue_of_room message room]
  refine ⟨faithful.living, faithful.filters, ⟨taken, longer, count⟩, ?_, faithful.peer, ?_⟩
  · intro other member
    rcases List.mem_append.mp member with early | last
    · exact faithful.short other early
    · obtain rfl := List.mem_singleton.mp last
      exact (send_eq_ok_iff.mp fits).1
  · have same : selected (.publish message :: acts) = selected acts :=
      (selected_of_taken longer count).trans (selected_of_taken all count).symm
    rw [same]
    exact faithful.delivered

theorem faithful_control (faithful : Faithful socket acts feed told) (parts : List Bytes) :
    Faithful socket (.control parts :: acts)
      { feed with near := feed.near.handle (.parts parts) } told := by
  obtain ⟨taken, all, count⟩ := faithful.queued
  refine ⟨ended_handle faithful.living parts, fun output => ?_, ⟨taken, ?_, count⟩, faithful.short,
    faithful.peer, faithful.delivered⟩
  · rw [wants, contains_handle faithful.living, faithful.filters]
  · rw [queue_handle]
    exact all

theorem faithful_take (faithful : Faithful socket acts feed told) (waiting : feed.near.queue ≠ []) :
    Faithful socket (.take :: acts)
      { feed with near := feed.near.takeOne.1, wire := feed.wire ++ feed.near.takeOne.2 } told := by
  obtain ⟨taken, all, count⟩ := faithful.queued
  obtain ⟨message, rest, queue⟩ := List.exists_cons_of_ne_nil waiting
  have more : published (.take :: acts) = (taken ++ [message]) ++ rest := by
    rw [← List.append_cons, ← queue]
    exact all
  have longer : (taken ++ [message]).length = (takes (.take :: acts)).length := by
    simp [takes, count]
  have member : message ∈ published acts := by
    rw [all, queue]
    exact List.mem_append_right _ List.mem_cons_self
  have chosen : selected (.take :: acts) =
      selected acts ++ if wants message.name acts then [message] else [] := by
    rw [selected_of_taken more longer, takes, List.zip_append count, List.filterMap_append,
      ← selected_of_taken all count]
    cases wanted : wants message.name acts <;> simp [wanted]
  have step := takeOne_cons queue (faithful.short message member)
  obtain ⟨read, left, same, sent, awaits⟩ := faithful.delivered
  rw [faithful.filters] at step
  rw [step]
  refine ⟨faithful.living, faithful.filters, ⟨taken ++ [message], more, longer⟩, faithful.short,
    faithful.peer, ?_⟩
  refine ⟨read, left ++ if wants message.name acts then [message] else [], ?_, sent, ?_⟩
  · rw [chosen, same, List.append_assoc]
  · obtain ⟨reader, connected, reading, coming⟩ := awaits.reading
    refine ⟨⟨reader, connected, reading, ?_⟩, fun empty => ?_⟩
    · rw [← ByteArray.append_assoc, coming, List.map_append, stream_append]
      cases wants message.name acts <;> rfl
    · obtain ⟨nothing, silent⟩ := ByteArray.append_eq_empty_iff.mp empty
      rw [awaits.drained nothing]
      cases wanted : wants message.name acts with
      | false => rfl
      | true =>
        rw [wanted] at silent
        have size := congrArg ByteArray.size silent
        simp [stream, ByteArray.size_append] at size

theorem faithful_arrive (faithful : Faithful socket acts feed told) {chunk rest : Bytes}
    (sent : feed.wire = chunk ++ rest) :
    Faithful socket acts { feed with wire := rest, far := (feed.far.receive chunk).1 }
      (told ++ (feed.far.receive chunk).2.map (.published feed.far.peerId)) := by
  obtain ⟨read, left, same, before, awaits⟩ := faithful.delivered
  have short := short_of_selected faithful
  rw [same] at short
  rw [sent] at awaits
  obtain ⟨whole, later, rfl, received, peer, awaits⟩ := receive_of_awaits awaits fun message member =>
    short message (List.mem_append_right _ member)
  refine ⟨faithful.living, faithful.filters, faithful.queued, faithful.short,
    peer.trans faithful.peer, ?_⟩
  refine ⟨read ++ whole, later, ?_, ?_, awaits⟩
  · rw [same, List.append_assoc]
  · rw [before, received, faithful.peer, List.map_append]

/-- What a socket does with its filters does not matter to what it reads. -/
theorem faithful_socket (faithful : Faithful socket acts feed told) {far : Subscription}
    (reader : far.reader = feed.far.reader) (peer : far.peerId = feed.far.peerId) :
    Faithful socket acts { feed with far := far } told := by
  obtain ⟨read, left, same, sent, reading, drained⟩ := faithful.delivered
  rw [← reader] at reading
  exact ⟨faithful.living, faithful.filters, faithful.queued, faithful.short, peer.trans faithful.peer,
    read, left, same, sent, reading, drained⟩

theorem peerId_takeOne (far : Subscription) : far.takeOne.1.peerId = far.peerId := by
  unfold Subscription.takeOne
  split <;> rfl

theorem faithful_of_run (run : Run socket acts feed told) : Faithful socket acts feed told := by
  induction run with
  | connected => exact faithful_connected socket
  | publish _ fits room ih => exact faithful_publish ih fits room
  | control parts _ ih => exact faithful_control ih parts
  | take _ waiting ih => exact faithful_take ih waiting
  | arrive _ sent ih => exact faithful_arrive ih sent
  | change change _ ih => exact faithful_socket ih rfl rfl
  | pass _ ih => exact faithful_socket ih (reader_takeOne _) (peerId_takeOne _)

/-- Whatever controls come in, the connection goes on. Every message is taken once, in the order of
publication. What the agent has been told and what it will be told of the bytes on their way are the
messages that were wanted when they were taken, each under the publisher's name; so they are all that
it has been told once nothing is on its way. -/
theorem wanted_messages_arrive (run : Run socket acts feed told) :
    feed.near.ended = false ∧ feed.far.reader.isSome = true ∧
    (∃ taken, published acts = taken ++ feed.near.queue ∧ taken.length = (takes acts).length) ∧
    told ++ (feed.far.receive feed.wire).2.map (.published socket.peerId) =
      (selected acts).map (.published socket.peerId) ∧
    (feed.wire = ByteArray.empty → told = (selected acts).map (.published socket.peerId)) := by
  have faithful := faithful_of_run run
  obtain ⟨read, left, same, before, awaits⟩ := faithful.delivered
  have connected : feed.far.reader.isSome = true := by
    obtain ⟨reader, connected, -⟩ := awaits.reading
    rw [connected]
    rfl
  refine ⟨faithful.living, connected, faithful.queued, ?_, fun empty => ?_⟩
  · have short := short_of_selected faithful
    rw [same] at short
    rw [← ByteArray.append_empty (b := feed.wire)] at awaits
    obtain ⟨whole, later, rfl, received, -, rest⟩ := receive_of_awaits awaits fun message member =>
      short message (List.mem_append_right _ member)
    rw [same, before, received, rest.drained rfl, List.append_nil, List.map_append]
  · rw [same, before, awaits.drained empty, List.append_nil]

private def level : DataMessage := ⟨"level", .double .nan⟩

private def levels : DataMessage := ⟨"levels", .integer 7⟩

private def late : DataMessage := ⟨"level", .string "late"⟩

private def gauge : Subscription := .new "g" (.tcp "127.0.0.1:5000")

private def subscribed : List Act := [.publish late, .publish levels, .publish level,
  .control [FilterChange.subscribeWord],
  .control [FilterChange.subscribeWord, "level".toByteArray]]

private def unsubscribed : List Act :=
  [.take, .control [FilterChange.unsubscribeWord, "level".toByteArray], .take, .take] ++ subscribed

private theorem fits (message : DataMessage) (short : (encode message.toFrames).size ≤ Limits.frame) :
    send message.toFrames = .ok (stream [encode message.toFrames]) := send_eq_ok_iff.mpr ⟨short, rfl⟩

private theorem unsubscribed_run : ∃ feed, Run gauge unsubscribed feed [] :=
  have start : Run gauge [] _ [] := .connected
  ⟨_, start
    |>.control [FilterChange.subscribeWord, "level".toByteArray]
    |>.control [FilterChange.subscribeWord]
    |>.publish (fits level (by decide +kernel)) (by decide)
    |>.publish (fits levels (by decide +kernel)) (by decide)
    |>.publish (fits late (by decide +kernel)) (by decide)
    |>.take (by decide)
    |>.take (by decide +kernel)
    |>.control [FilterChange.unsubscribeWord, "level".toByteArray]
    |>.take (by decide +kernel)⟩

/-- Of three messages one is told: `levels` only begins with the name that is wanted, and `late` is taken
when nothing is wanted any more. -/
theorem gauge_reads_level : ∃ feed told, Run gauge unsubscribed feed told ∧
    published unsubscribed = [level, levels, late] ∧ feed.wire = ByteArray.empty ∧
    told = [.published "g" level] := by
  obtain ⟨feed, run⟩ := unsubscribed_run
  have pieces : feed.wire = feed.wire.extract 0 5 ++ feed.wire.extract 5 feed.wire.size := by
    rw [ByteArray.extract_append_extract, Nat.zero_min, ByteArray.extract_zero_max_size]
  have arrived := (run.arrive pieces).arrive ByteArray.append_empty.symm
  obtain ⟨-, -, -, -, drained⟩ := wanted_messages_arrive arrived
  have selected_ : selected unsubscribed = [level] := by decide +kernel
  rw [selected_] at drained
  exact ⟨_, _, arrived, rfl, rfl, drained rfl⟩

end Proofs.Delivery
end PeerMesh
