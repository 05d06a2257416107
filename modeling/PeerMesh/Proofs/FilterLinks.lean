import PeerMesh.Proofs.Outcomes
import PeerMesh.Proofs.Tables
import PeerMesh.Publisher.Connection
import PeerMesh.Subscriber.Resolution
import PeerMesh.Subscription

/-! The filters for one peer are kept three times: by the subscriber, by its socket, and by the
publisher for the connection of the moment. Changes wait in the socket's queue and travel on the
connection, which can be lost at any point and is then made anew. The three sets differ by what is
waiting and by what is in flight, and by nothing else. -/

namespace PeerMesh

structure Channel where
  /-- What the socket has yet to send of its filters, since it has connected. -/
  unsent : List (List Bytes)
  /-- What has been sent and has not arrived, oldest first. -/
  wire : List (List Bytes)
  /-- The publisher's end. -/
  far : Publisher.Connection

def Channel.inFlight (c : Channel) : List (List Bytes) := c.wire ++ c.unsent

/-- A subscriber with its socket, and the connection if there is one. -/
structure Circuit where
  subscriber : Subscriber
  socket : Subscription
  channel : Option Channel

namespace Circuit

def new (peerId peerName : String) (endpoint : Endpoint) : Circuit :=
  ⟨Subscriber.new peerId peerName, Subscription.new peerId endpoint, none⟩

def changed (c : Circuit) (result : Subscriber × List FilterChange) : Circuit :=
  { c with subscriber := result.1, socket := result.2.foldl Subscription.change c.socket }

def link (c : Circuit) (channel : Channel) : Circuit := { c with channel := some channel }

inductive Step (c : Circuit) : Circuit → Prop where
  | subscribe (output : String) : Step c (c.changed (c.subscriber.subscribe output))
  | unsubscribe (output : String) : Step c (c.changed (c.subscriber.unsubscribe output))
  | clear : Step c (c.changed c.subscriber.clearFilters)
  | learn {text : String} {next : Subscriber} (read : c.subscriber.applyDefinition text = .ok next) :
      Step c { c with subscriber := next }
  | resolve (own : Definition) (mapping : Mapping) (policy : FilterPolicy) :
      Step c (c.changed ((c.subscriber.resolve own mapping policy).1,
        (c.subscriber.resolve own mapping policy).2.changes))
  | refused (down : c.channel = none) : Step c c
  | connect (down : c.channel = none) (unread : c.socket.reader = none) :
      Step c ({ c with socket := c.socket.connect.1 }.link ⟨c.socket.connect.2, [], .new⟩)
  | replay {frames : List Bytes} {unsent wire : List (List Bytes)} {far : Publisher.Connection}
      (up : c.channel = some ⟨frames :: unsent, wire, far⟩) :
      Step c (c.link ⟨unsent, wire ++ [frames], far⟩)
  /-- The socket takes a change and passes it on, once its filters have been sent. -/
  | pass {wire : List (List Bytes)} {far : Publisher.Connection}
      (up : c.channel = some ⟨[], wire, far⟩) :
      Step c ({ c with socket := c.socket.takeOne.1 }.link ⟨[], wire ++ c.socket.takeOne.2, far⟩)
  | arrive {unsent wire : List (List Bytes)} {frames : List Bytes} {far : Publisher.Connection}
      (up : c.channel = some ⟨unsent, frames :: wire, far⟩) :
      Step c (c.link ⟨unsent, wire, far.handle (.parts frames)⟩)
  /-- The connection is lost with all that is on its way and with the publisher's end, be it that
  something could not be sent. -/
  | lose : Step c { c with channel := none }
  /-- The socket takes a change while it has no connection, or has not noticed that it is lost. -/
  | keep (down : c.channel = none) : Step c { c with socket := c.socket.takeOne.1 }
  | notice (down : c.channel = none) : Step c { c with socket := c.socket.disconnect }

inductive Reachable : Circuit → Prop where
  | new (peerId peerName : String) (endpoint : Endpoint) : Reachable (new peerId peerName endpoint)
  | step {c next : Circuit} (reachable : Reachable c) (step : Step c next) : Reachable next

end Circuit

namespace Proofs.FilterLinks
open Circuit

theorem ofFrames?_eq_some_iff {frames : List Bytes} {change : FilterChange} :
    FilterChange.ofFrames? frames = some change ↔ frames = change.toFrames := by
  constructor
  · intro read
    unfold FilterChange.ofFrames? at read
    split at read
    next word name =>
      split at read
      · cases read
      next output decoded =>
        rw [Text.Utf8.eq_toByteArray_of_decode? decoded]
        split at read
        next same =>
          cases read
          rw [same]
          rfl
        · split at read
          next same =>
            cases read
            rw [same]
            rfl
          · cases read
    · cases read
  · rintro rfl
    have different : FilterChange.unsubscribeWord ≠ FilterChange.subscribeWord := by decide
    cases change with
    | subscribe output =>
      simp [FilterChange.toFrames, FilterChange.ofFrames?, Text.Utf8.decode?_toByteArray]
    | unsubscribe output =>
      simp [FilterChange.toFrames, FilterChange.ofFrames?, Text.Utf8.decode?_toByteArray, different]

theorem handle_toFrames {far : Publisher.Connection} (open_ : far.ended = false)
    (change : FilterChange) :
    far.handle (.parts change.toFrames) = { far with filters := change.apply far.filters } := by
  simp [Publisher.Connection.handle, open_, ofFrames?_eq_some_iff.mpr rfl]

theorem handle_foreign {far : Publisher.Connection} {frames : List Bytes}
    (foreign : FilterChange.ofFrames? frames = none) : far.handle (.parts frames) = far := by
  simp [Publisher.Connection.handle, foreign]

theorem apply_of_not_affects {change : FilterChange} {filters : NameSet}
    (idle : change.affects filters = false) : change.apply filters = filters := by
  cases change with
  | subscribe output =>
    refine NameSet.ext_contains fun name => ?_
    rw [FilterChange.apply, NameSet.contains_add]
    by_cases same : output = name
    · subst same
      simpa [FilterChange.affects] using idle
    · simp [same]
  | unsubscribe output =>
    refine NameSet.ext_contains fun name => ?_
    rw [FilterChange.apply, Table.contains_erase]
    by_cases same : output = name
    · subst same
      rw [decide_eq_true rfl, Bool.not_true, Bool.false_and]
      exact idle.symm
    · simp [same]

/-- The changes that a subscriber passes on lead from its filters to its new ones. -/
def Leads (before after : Subscriber) (changes : List FilterChange) : Prop :=
  changes.foldl FilterChange.apply before.filters = after.filters

theorem leads_subscribe (s : Subscriber) (output : String) :
    Leads s (s.subscribe output).1 (s.subscribe output).2 := by
  unfold Subscriber.subscribe
  split
  · rfl
  · rfl

theorem leads_unsubscribe (s : Subscriber) (output : String) :
    Leads s (s.unsubscribe output).1 (s.unsubscribe output).2 := by
  unfold Subscriber.unsubscribe
  split
  · rfl
  · rfl

theorem leads_clearFilters (s : Subscriber) : Leads s s.clearFilters.1 s.clearFilters.2 := by
  refine NameSet.ext_contains fun name => ?_
  change Table.contains ((s.filters.toList.map FilterChange.unsubscribe).foldl
    FilterChange.apply s.filters) name = false
  rw [List.foldl_map]
  change Table.contains (s.filters.toList.foldl Table.erase s.filters) name = false
  rw [NameSet.contains_foldl_erase]
  cases present : Table.contains s.filters name with
  | true => simp [NameSet.mem_toList, present]
  | false => rw [Bool.and_false]

theorem leads_resolve (s : Subscriber) (own : Definition) (mapping : Mapping)
    (policy : FilterPolicy) :
    Leads s (s.resolve own mapping policy).1 (s.resolve own mapping policy).2.changes := by
  unfold Leads FilterDelta.changes
  rw [List.foldl_append, List.foldl_map, List.foldl_map]
  rfl

def arrived (far : Publisher.Connection) (frames : List (List Bytes)) : Publisher.Connection :=
  frames.foldl (fun far frames => far.handle (.parts frames)) far

/-- A connection whose publisher has what its socket filters for, but for what is in flight. -/
structure Linked (socket : Subscription) (channel : Channel) : Prop where
  connected : socket.reader.isSome = true
  living : channel.far.ended = false
  sent : (arrived channel.far channel.inFlight).filters = socket.filters

/-- The three sets differ by what waits and by what is in flight. -/
structure InStep (c : Circuit) : Prop where
  queued : c.socket.queue.foldl FilterChange.apply c.socket.filters = c.subscriber.filters
  linked : ∀ channel, c.channel = some channel → Linked c.socket channel

variable {c : Circuit}

theorem foldl_change (changes : List FilterChange) (socket : Subscription) :
    changes.foldl Subscription.change socket =
      { socket with queue := socket.queue ++ changes } := by
  induction changes generalizing socket with
  | nil => rw [List.foldl_nil, List.append_nil]
  | cons change changes ih =>
    rw [List.foldl_cons, ih]
    simp [Subscription.change]

theorem inStep_changed {result : Subscriber × List FilterChange} (inStep : InStep c)
    (leads : Leads c.subscriber result.1 result.2) : InStep (c.changed result) := by
  have socket := foldl_change result.2 c.socket
  unfold Circuit.changed
  rw [socket]
  refine ⟨?_, fun channel up => ⟨(inStep.linked channel up).connected,
    (inStep.linked channel up).living, (inStep.linked channel up).sent⟩⟩
  change (c.socket.queue ++ result.2).foldl FilterChange.apply c.socket.filters = result.1.filters
  rw [List.foldl_append, inStep.queued]
  exact leads

theorem queued_takeOne {socket : Subscription} {filters : NameSet}
    (queued : socket.queue.foldl FilterChange.apply socket.filters = filters) :
    socket.takeOne.1.queue.foldl FilterChange.apply socket.takeOne.1.filters = filters := by
  unfold Subscription.takeOne
  split
  · exact queued
  next change rest waiting =>
    rw [waiting] at queued
    exact queued

/-- What a connected socket tells of the change that it takes makes the same difference at the
publisher. -/
theorem arrived_takeOne {socket : Subscription} {far : Publisher.Connection}
    (connected : socket.reader.isSome = true) (living : far.ended = false)
    (same : far.filters = socket.filters) :
    (arrived far socket.takeOne.2).filters = socket.takeOne.1.filters := by
  unfold Subscription.takeOne
  split
  · exact same
  next change rest waiting =>
    dsimp only
    rw [connected, Bool.true_and]
    cases affects : change.affects socket.filters with
    | true =>
      change (far.handle (.parts change.toFrames)).filters = _
      rw [handle_toFrames living, same]
    | false => exact same.trans (apply_of_not_affects affects).symm

theorem ended_handle {far : Publisher.Connection} (living : far.ended = false)
    (frames : List Bytes) : (far.handle (.parts frames)).ended = false := by
  unfold Publisher.Connection.handle
  dsimp only
  split
  · exact living
  · split
    · exact living
    · exact living

theorem ended_arrived {far : Publisher.Connection} (living : far.ended = false)
    (frames : List (List Bytes)) : (arrived far frames).ended = false := by
  induction frames generalizing far with
  | nil => exact living
  | cons first frames ih => exact ih (ended_handle living first)

theorem arrived_append (far : Publisher.Connection) (one two : List (List Bytes)) :
    arrived far (one ++ two) = arrived (arrived far one) two := List.foldl_append

/-- A new connection has all filters once the replay has arrived. -/
theorem arrived_replay (socket : Subscription) :
    (arrived .new socket.replay).filters = socket.filters := by
  have loop : ∀ (names : List String) (far : Publisher.Connection), far.ended = false →
      (arrived far (names.map fun output => (FilterChange.subscribe output).toFrames)).filters =
        names.foldl NameSet.add far.filters := by
    intro names
    induction names with
    | nil => exact fun _ _ => rfl
    | cons name names ih =>
      intro far living
      have told := handle_toFrames living (.subscribe name)
      rw [List.map_cons, arrived, List.foldl_cons, told]
      exact ih { far with filters := far.filters.add name } living
  refine (loop socket.filters.toList .new rfl).trans (NameSet.ext_contains fun name => ?_)
  rw [NameSet.contains_foldl_add]
  cases present : Table.contains socket.filters name with
  | true => simp [NameSet.mem_toList, present]
  | false => simp [NameSet.mem_toList, present, Publisher.Connection.new]

theorem reader_takeOne (socket : Subscription) : socket.takeOne.1.reader = socket.reader := by
  unfold Subscription.takeOne
  split
  · rfl
  · rfl

private theorem inStep_link {socket : Subscription} {channel : Channel}
    (queued : socket.queue.foldl FilterChange.apply socket.filters = c.subscriber.filters)
    (linked : Linked socket channel) : InStep ({ c with socket := socket }.link channel) :=
  ⟨queued, fun _ up => Option.some.inj up ▸ linked⟩

private theorem inStep_down {socket : Subscription}
    (queued : socket.queue.foldl FilterChange.apply socket.filters = c.subscriber.filters)
    (down : c.channel = none) : InStep { c with socket := socket } :=
  ⟨queued, fun _ up => by cases down.symm.trans up⟩

theorem inStep_step {next : Circuit} (step : Step c next) (inStep : InStep c) : InStep next := by
  cases step with
  | subscribe output => exact inStep_changed inStep (leads_subscribe c.subscriber output)
  | unsubscribe output => exact inStep_changed inStep (leads_unsubscribe c.subscriber output)
  | clear => exact inStep_changed inStep (leads_clearFilters c.subscriber)
  | learn read =>
    obtain ⟨definition, -, rfl⟩ := Outcomes.map_eq_ok.mp read
    exact ⟨inStep.queued, inStep.linked⟩
  | resolve own mapping policy =>
    exact inStep_changed inStep (leads_resolve c.subscriber own mapping policy)
  | refused => exact inStep
  | connect => exact inStep_link inStep.queued ⟨rfl, rfl, arrived_replay c.socket⟩
  | replay up =>
    obtain ⟨connected, living, sent⟩ := inStep.linked _ up
    refine inStep_link inStep.queued ⟨connected, living, ?_⟩
    rw [Channel.inFlight, List.append_cons] at sent
    exact sent
  | pass up =>
    obtain ⟨connected, living, sent⟩ := inStep.linked _ up
    rw [Channel.inFlight, List.append_nil] at sent
    refine inStep_link (queued_takeOne inStep.queued) ⟨?_, living, ?_⟩
    · rw [reader_takeOne]
      exact connected
    · rw [Channel.inFlight, List.append_nil, arrived_append]
      exact arrived_takeOne connected (ended_arrived living _) sent
  | arrive up =>
    obtain ⟨connected, living, sent⟩ := inStep.linked _ up
    exact inStep_link inStep.queued ⟨connected, ended_handle living _, sent⟩
  | lose => exact ⟨inStep.queued, fun _ up => by cases up⟩
  | keep down => exact inStep_down (queued_takeOne inStep.queued) down
  | notice down => exact inStep_down inStep.queued down

theorem inStep_of_reachable (reachable : Reachable c) : InStep c := by
  induction reachable with
  | new => exact ⟨rfl, fun _ up => by cases up⟩
  | step _ step ih => exact inStep_step step ih

/-- In every circuit, the changes in the queue lead from the socket's filters to the subscriber's, and
what is in flight on a connection leads from the publisher's to the socket's, so that all three are
the same once nothing waits. What is not exactly one of the two words and a name changes nothing at
the publisher. -/
theorem filters_differ_by_what_waits {c : Circuit} (reachable : Reachable c) :
    c.socket.queue.foldl FilterChange.apply c.socket.filters = c.subscriber.filters ∧
    (∀ channel, c.channel = some channel →
      (arrived channel.far channel.inFlight).filters = c.socket.filters ∧
      (c.socket.queue = [] → channel.inFlight = [] →
        channel.far.filters = c.socket.filters ∧ c.socket.filters = c.subscriber.filters)) ∧
    ∀ (far : Publisher.Connection) (frames : List Bytes),
      (∀ name : String, frames ≠ [FilterChange.subscribeWord, name.toByteArray] ∧
        frames ≠ [FilterChange.unsubscribeWord, name.toByteArray]) →
      (far.handle (.parts frames)).filters = far.filters := by
  have inStep := inStep_of_reachable reachable
  refine ⟨inStep.queued, fun channel up => ⟨(inStep.linked channel up).sent, ?_⟩, ?_⟩
  · intro drained arrivedAll
    have queued := inStep.queued
    have sent := (inStep.linked channel up).sent
    rw [drained] at queued
    rw [arrivedAll] at sent
    exact ⟨sent, queued⟩
  · intro far frames foreign
    have unread : FilterChange.ofFrames? frames = none := by
      refine Option.eq_none_iff_forall_ne_some.mpr fun change read => ?_
      rw [ofFrames?_eq_some_iff] at read
      cases change with
      | subscribe name => exact (foreign name).1 read
      | unsubscribe name => exact (foreign name).2 read
    rw [handle_foreign unread]

private def spring : Circuit := .new "p" "spring" (.tcp "127.0.0.1:5000")

private def wanted : Circuit := spring.changed (spring.subscriber.subscribe "flow")

private def tracked : Circuit := { wanted with socket := wanted.socket.takeOne.1 }

private def dialed : Circuit :=
  { tracked with socket := tracked.socket.connect.1 }.link ⟨tracked.socket.connect.2, [], .new⟩

private def lost : Circuit := { dialed with channel := none }

private def rewanted : Circuit := lost.changed (lost.subscriber.subscribe "level")

private def noticed : Circuit := { rewanted with socket := rewanted.socket.disconnect }

private def redialed : Circuit :=
  { noticed with socket := noticed.socket.connect.1 }.link ⟨noticed.socket.connect.2, [], .new⟩

private def flow : List Bytes := (FilterChange.subscribe "flow").toFrames

private def level : List Bytes := (FilterChange.subscribe "level").toFrames

private def replayed : Circuit := redialed.link ⟨[], [] ++ [flow], .new⟩

private def passed : Circuit :=
  { replayed with socket := replayed.socket.takeOne.1 }.link
    ⟨[], [] ++ [flow] ++ replayed.socket.takeOne.2, .new⟩

private def halfway : Circuit := passed.link ⟨[], [level], Publisher.Connection.new.handle (.parts flow)⟩

private def drained : Circuit :=
  halfway.link ⟨[], [], (Publisher.Connection.new.handle (.parts flow)).handle (.parts level)⟩

/-- The first connection is lost in the middle of its replay, and a change waits until the second is up. -/
private theorem passed_reachable : Reachable passed := by
  have down : Reachable lost :=
    .step (.step (.step (.step (.new _ _ _) (.subscribe "flow")) (.keep rfl)) (.connect rfl rfl)) .lose
  have again : Reachable redialed :=
    .step (.step (.step down (.subscribe "level")) (.notice rfl)) (.connect rfl rfl)
  have sent : Reachable replayed := .step again (.replay rfl)
  exact .step sent (.pass rfl)

theorem spring_filters_in_step :
    (∃ channel, passed.channel = some channel ∧ channel.inFlight = [flow, level] ∧
      channel.far.filters.toList = [] ∧ passed.socket.filters.toList = ["flow", "level"] ∧
      (arrived channel.far channel.inFlight).filters = passed.socket.filters) ∧
    ∃ channel, Reachable drained ∧ drained.channel = some channel ∧
      drained.socket.queue = [] ∧ channel.inFlight = [] ∧
      drained.subscriber.filters.toList = ["flow", "level"] ∧
      channel.far.filters = drained.socket.filters ∧
      drained.socket.filters = drained.subscriber.filters ∧
      (channel.far.handle (.parts [FilterChange.unsubscribeWord])).filters = channel.far.filters := by
  have last : Reachable drained := .step (.step passed_reachable (.arrive rfl)) (.arrive rfl)
  obtain ⟨-, linked, -⟩ := filters_differ_by_what_waits passed_reachable
  obtain ⟨-, settled, foreign⟩ := filters_differ_by_what_waits last
  obtain ⟨far, socket⟩ := (settled _ rfl).2 rfl rfl
  exact ⟨⟨_, rfl, rfl, rfl, rfl, (linked _ rfl).1⟩, _, last, rfl, rfl, rfl, rfl, far, socket,
    foreign _ _ fun name => ⟨by simp, by simp⟩⟩

end Proofs.FilterLinks
end PeerMesh
