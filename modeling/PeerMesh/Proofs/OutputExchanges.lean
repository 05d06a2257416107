import PeerMesh.Proofs.CatchUp
import PeerMesh.Proofs.InputTypes
import PeerMesh.Proofs.Models
import PeerMesh.Proofs.Publications

/-! What comes of asking a peer for its outputs. The peer whispers the outputs that no gate holds
back; whoever asked writes those that it filters for to the inputs that they feed. It is then as if
the peer had just published them, and an input that one of them alone feeds holds what that converts
into. -/

namespace PeerMesh

namespace Agent

/-- The agent shows an output, with this value, to those that ask. -/
def Offers (a : Agent) (output : String) (value : Value) : Prop :=
  a.muted = false ∧ a.frozen = false ∧
    ∃ slot, a.definition.output? output = some slot ∧ slot.muted = false ∧ slot.value = value

def Feeds (a : Agent) (peerName output input : String) : Prop :=
  ∃ e ∈ a.mapping.elements, e.input = input ∧ e.output = output ∧ e.targets peerName = true

def deliverAll (a : Agent) (peerName : String) (messages : List DataMessage) : Agent :=
  messages.foldl (fun a m => (a.deliver peerName m).agent) a

/-- Nothing has changed but the values of inputs. -/
structure Refilled (before after : Agent) : Prop where
  rest : ∃ inputs,
    after = { before with definition := { before.definition with inputs := inputs } }
  slots : ∀ input, (after.definition.input? input = none ∧ before.definition.input? input = none) ∨
    ∃ slot v, before.definition.input? input = some slot ∧
      after.definition.input? input = some { slot with value := v }

end Agent

/-- What a subscriber filters for of the outputs that a peer shows. -/
def Subscriber.Receives (subscriber : Subscriber) (a : Agent) (output : String) (value : Value) :
    Prop :=
  subscriber.filters.contains output = true ∧ a.Offers output value

namespace Proofs.OutputExchanges
open CatchUp HostRuns InputTypes ReactorMoves

variable {a b c : Agent} {peerName input : String} {m : DataMessage} {slot : Slot} {v : Value}

theorem feeds_iff : input ∈ fedBy a peerName m ↔
    a.frozen = false ∧ a.Feeds peerName m.name input := mem_fedBy

theorem refilled_refl (a : Agent) : a.Refilled a := by
  refine ⟨⟨a.definition.inputs, rfl⟩, fun input => ?_⟩
  cases a.definition.input? input with
  | none => exact .inl ⟨rfl, rfl⟩
  | some slot => exact .inr ⟨slot, slot.value, rfl, rfl⟩

theorem refilled_trans (first : a.Refilled b) (last : b.Refilled c) : a.Refilled c := by
  constructor
  · obtain ⟨early, rfl⟩ := first.rest
    obtain ⟨late, rfl⟩ := last.rest
    exact ⟨late, rfl⟩
  · intro input
    rcases first.slots input with ⟨absent, none⟩ | ⟨slot, v, found, middle⟩
    · rcases last.slots input with ⟨gone, -⟩ | ⟨slot, v, found, -⟩
      · exact .inl ⟨gone, none⟩
      · cases absent.symm.trans found
    · rcases last.slots input with ⟨-, absent⟩ | ⟨slot', w, found', stands⟩
      · cases absent.symm.trans middle
      · cases middle.symm.trans found'
        exact .inr ⟨slot, w, found, stands⟩

theorem refilled_deliver (a : Agent) (peerName : String) (m : DataMessage) :
    a.Refilled (a.deliver peerName m).agent := by
  have delivered := delivered_deliver a peerName m
  refine ⟨delivered.rest, fun input => ?_⟩
  exact (slot_of_delivered delivered input).imp_left And.symm

/-- Elements and gates stay as they are. -/
theorem feeds_of_refilled (refilled : a.Refilled b) {output : String} :
    b.Feeds peerName output input ↔ a.Feeds peerName output input := by
  obtain ⟨inputs, rfl⟩ := refilled.rest
  exact Iff.rfl

theorem frozen_of_refilled (refilled : a.Refilled b) : b.frozen = a.frozen := by
  obtain ⟨inputs, rfl⟩ := refilled.rest
  rfl

theorem kept_deliver (apart : ¬a.Feeds peerName m.name input) :
    (a.deliver peerName m).agent.definition.input? input = a.definition.input? input := by
  have delivered := delivered_deliver a peerName m
  apply delivered.kept
  rintro u member rfl
  exact apart (feeds_iff.mp (delivered.updated u member).1).2

theorem holds_deliver (thawed : a.frozen = false) (fed : a.Feeds peerName m.name input)
    (found : a.definition.input? input = some slot) (takes : slot.Takes m.value v) :
    (a.deliver peerName m).agent.definition.input? input = some { slot with value := v } := by
  have delivered := delivered_deliver a peerName m
  obtain ⟨u, member, rfl⟩ := delivered.taken input (feeds_iff.mpr ⟨thawed, fed⟩) slot v found takes
  obtain ⟨-, other, again, stored, stands⟩ := delivered.updated u member
  cases found.symm.trans again
  rw [stands, Except.ok.inj (stored.1.symm.trans takes.1)]

theorem refilled_deliverAll (messages : List DataMessage) (a : Agent) :
    a.Refilled (a.deliverAll peerName messages) := by
  induction messages generalizing a with
  | nil => exact refilled_refl a
  | cons m messages ih => exact refilled_trans (refilled_deliver a peerName m) (ih _)

theorem kept_deliverAll {messages : List DataMessage}
    (apart : ∀ m ∈ messages, ¬a.Feeds peerName m.name input) :
    (a.deliverAll peerName messages).definition.input? input = a.definition.input? input := by
  induction messages generalizing a with
  | nil => rfl
  | cons first messages ih =>
    obtain ⟨here, later⟩ := List.forall_mem_cons.mp apart
    have next := refilled_deliver a peerName first
    refine Eq.trans (ih fun m member fed => ?_) (kept_deliver here)
    exact later m member ((feeds_of_refilled next).mp fed)

/-- An input that no other message feeds holds the value of the one that feeds it. -/
theorem holds_deliverAll {messages : List DataMessage} (thawed : a.frozen = false)
    (member : m ∈ messages) (fed : a.Feeds peerName m.name input)
    (only : ∀ other ∈ messages, a.Feeds peerName other.name input → other = m)
    (found : a.definition.input? input = some slot) (takes : slot.Takes m.value v) :
    (a.deliverAll peerName messages).definition.input? input = some { slot with value := v } := by
  induction messages generalizing a slot with
  | nil => cases member
  | cons first messages ih =>
    obtain ⟨here, later⟩ := List.forall_mem_cons.mp only
    have next := refilled_deliver a peerName first
    have stands : first = m → (a.deliver peerName first).agent.definition.input? input =
        some { slot with value := v } := by
      rintro rfl
      exact holds_deliver thawed fed found takes
    by_cases again : m ∈ messages
    · have thawed := (frozen_of_refilled next).trans thawed
      have fedNext := (feeds_of_refilled next).mpr fed
      have onlyNext := fun other member fed => later other member ((feeds_of_refilled next).mp fed)
      by_cases same : first = m
      · have takesAgain : Slot.Takes { slot with value := v } m.value v := takes
        have held := ih thawed again fedNext onlyNext (stands same) takesAgain
        exact held
      · have apart : ¬a.Feeds peerName first.name input := fun fed => same (here fed)
        exact ih thawed again fedNext onlyNext ((kept_deliver apart).trans found) takes
    · have same : first = m := ((List.mem_cons.mp member).resolve_right again).symm
      have apart : ∀ other ∈ messages,
          ¬(a.deliver peerName first).agent.Feeds peerName other.name input := by
        intro other member fed
        exact again (later other member ((feeds_of_refilled next).mp fed) ▸ member)
      exact (kept_deliverAll apart).trans (stands same)

variable {r p : Reactor} {s t : Surroundings} {subscriber : Subscriber}

theorem reactor_forEach_deliver (peerName : String) (messages : List DataMessage) (r : Reactor) :
    (r.forEach messages (Reactor.deliver peerName)).reactor =
      r.setAgent (r.agent.deliverAll peerName messages) := by
  induction messages using List.reverseRecOn with
  | nil => rfl
  | append_singleton messages m ih =>
    have last : r.agent.deliverAll peerName (messages ++ [m]) =
        ((r.agent.deliverAll peerName messages).deliver peerName m).agent := List.foldl_append
    rw [forEach_concat, Reaction.andThen, ih, last]
    rfl

/-- While a subscription stays, a published message goes where a listed one goes. -/
theorem forEach_published {near : String} (subscribed : r.subscribers.get? near = some subscriber)
    (u : Surroundings) (messages : List DataMessage) :
    r.forEach messages (fun m r => r.react u (.published near m)) =
      r.forEach messages (Reactor.deliver subscriber.peerName) := by
  induction messages using List.reverseRecOn with
  | nil => rfl
  | append_singleton messages m ih =>
    have still : (r.forEach messages (Reactor.deliver subscriber.peerName)).reactor.subscribers.get?
        near = some subscriber := by
      rw [reactor_forEach_deliver]
      exact subscribed
    rw [forEach_concat, forEach_concat, ih, Reaction.andThen, Reaction.andThen]
    simp only [Reactor.react, Reactor.handlePublished, still]

def replyOf (a : Agent) : List Bytes := (Command.listing .outputs a.openOutputs).toFrames

theorem whispered_reply (s : Surroundings) (p : Reactor) (asker name : String) :
    whispered asker (p.react s (.presence
      (.whisper asker name (Command.order .requestOutputs).toFrames))).effects =
        [replyOf p.agent] := by
  have read : Command.ofFrames (Command.order .requestOutputs).toFrames =
    .ok (.order .requestOutputs) := CommandCodec.ofFrames_toFrames trivial
  obtain ⟨log, handled⟩ := handleCommand_eq s asker (.order .requestOutputs) p
  simp only [Reactor.react, Reactor.handlePresence, Reactor.handleWhisper, read]
  rw [handled]
  exact (whispered_append _ _).trans
    (congrArg (· ++ []) (whispered_whisper s p asker (.listing .outputs p.agent.openOutputs)))

/-- The outputs of a reply that are filtered for are delivered, and what came of it is logged. -/
theorem react_reply {near : String} {peer : Peer} (entered : r.directory.get? near = some peer)
    (subscribed : r.subscribers.get? near = some subscriber) (t : Surroundings) (sender : String)
    (a : Agent) :
    ∃ entry, r.react t (.presence (.whisper near sender (replyOf a))) =
      (r.forEach (a.openOutputs.filter fun m => subscriber.filters.contains m.name)
        (Reactor.deliver peer.name)).andThen (·.tell [.log entry]) := by
  have read : Command.ofFrames (replyOf a) = .ok (.listing .outputs a.openOutputs) :=
    CommandCodec.ofFrames_toFrames trivial
  obtain ⟨entry, handled⟩ := handleCommand_eq t near (.listing .outputs a.openOutputs) r
  refine ⟨entry, ?_⟩
  simp only [Reactor.react, Reactor.handlePresence, Reactor.handleWhisper, read]
  rw [handled]
  simp only [Reactor.execute, Reactor.executeOutputs, Reactor.peerName, entered, subscribed]
  rfl

theorem offers_iff (sound : a.Sound) : m ∈ a.openOutputs ↔ a.Offers m.name m.value := by
  rw [Publications.mem_openOutputs, Agent.Offers]
  refine and_congr_right fun _ => and_congr_right fun _ => ⟨?_, ?_⟩
  · rintro ⟨output, slot, found, audible, rfl⟩
    have named : slot.message.name = output := (sound.definition.slots found).named
    exact ⟨slot, named ▸ found, audible, rfl⟩
  · rintro ⟨slot, found, audible, holds⟩
    have named : slot.name = m.name := (sound.definition.slots found).named
    refine ⟨m.name, slot, found, audible, ?_⟩
    rw [Slot.message, named, holds]

theorem offers_unique {output : String} {one two : Value} (first : a.Offers output one)
    (second : a.Offers output two) : one = two := by
  obtain ⟨-, -, slot, found, -, rfl⟩ := first
  obtain ⟨-, -, again, there, -, rfl⟩ := second
  cases found.symm.trans there
  rfl

theorem receives_iff (sound : a.Sound) :
    m ∈ a.openOutputs.filter (fun m => subscriber.filters.contains m.name) ↔
      subscriber.Receives a m.name m.value := by
  rw [List.mem_filter, offers_iff sound, and_comm]
  rfl

/-- Asked for its outputs, a peer whispers those that no gate holds back. Of these, an agent that is
not frozen takes those that it filters for: an input that one of them alone feeds holds what that
converts into. It is as if they had been published one after the other; nothing else has changed, and
nothing at all if the peer is muted or frozen. -/
theorem outputs_reach_inputs (reachable : Reachable p.agent) {near : String} {peer : Peer}
    (entered : r.directory.get? near = some peer) (named : peer.name = p.agent.name)
    (subscribed : r.subscribers.get? near = some subscriber)
    (known : subscriber.peerName = p.agent.name) (s t : Surroundings) (asker name sender : String) :
    let reaction := r.react t (.presence (.whisper near sender (replyOf p.agent)))
    let after := reaction.reactor.agent
    let received := p.agent.openOutputs.filter fun m => subscriber.filters.contains m.name
    whispered asker (p.react s (.presence
      (.whisper asker name (Command.order .requestOutputs).toFrames))).effects =
        [replyOf p.agent] ∧
    (r.agent.frozen = false → ∀ output value input slot stored,
      subscriber.Receives p.agent output value → r.agent.Feeds p.agent.name output input →
      r.agent.definition.input? input = some slot → slot.Takes value stored →
      (∀ other w, subscriber.Receives p.agent other w → r.agent.Feeds p.agent.name other input →
        other = output) →
      after.definition.input? input = some { slot with value := stored }) ∧
    (∀ input, (∀ output value, subscriber.Receives p.agent output value →
        ¬r.agent.Feeds p.agent.name output input) →
      after.definition.input? input = r.agent.definition.input? input) ∧
    (reaction.reactor = r.setAgent after ∧ r.agent.Refilled after) ∧
    (∀ u : Surroundings, ∃ entry, reaction =
      (r.forEach received fun m r => r.react u (.published near m)).andThen (·.tell [.log entry])) ∧
    (p.agent.muted = true ∨ p.agent.frozen = true → reaction.reactor = r) := by
  intro reaction after received
  have sound : p.agent.Sound := Models.sound_of_reachable reachable
  obtain ⟨entry, handled⟩ := react_reply entered subscribed t sender p.agent
  have delivered : reaction.reactor = r.setAgent (r.agent.deliverAll p.agent.name received) := by
    refine Eq.trans (congrArg Reaction.reactor handled) ?_
    rw [named]
    exact reactor_forEach_deliver p.agent.name received r
  have agent : after = r.agent.deliverAll p.agent.name received :=
    congrArg Reactor.agent delivered
  refine ⟨whispered_reply s p asker name, ?_, ?_, ⟨?_, ?_⟩, ?_, ?_⟩
  · intro thawed output value input slot stored receives fed found takes only
    rw [agent]
    have member : ⟨output, value⟩ ∈ received := (receives_iff sound).mpr receives
    refine holds_deliverAll thawed member fed (fun other listed feeds => ?_) found takes
    have receivesOther := (receives_iff sound).mp listed
    have same : other.name = output := only other.name other.value receivesOther feeds
    obtain ⟨otherName, otherValue⟩ := other
    cases same
    cases offers_unique receivesOther.2 receives.2
    rfl
  · intro input apart
    rw [agent]
    apply kept_deliverAll
    intro m listed
    exact apart m.name m.value ((receives_iff sound).mp listed)
  · rw [delivered, agent]
  · rw [agent]
    exact refilled_deliverAll received r.agent
  · intro u
    refine ⟨entry, handled.trans ?_⟩
    rw [forEach_published subscribed, known, named]
  · intro held
    have nothing : p.agent.openOutputs = [] := by
      unfold Agent.openOutputs
      rw [if_pos (Bool.or_eq_true_iff.mpr held)]
    have none : received = [] :=
      congrArg (List.filter fun m => subscriber.filters.contains m.name) nothing
    rw [delivered, none]
    rfl

private def warmth : Double := ⟨4612811918334230528⟩

private def stoveTurns : List Turn := [
  .start .calm "" "host" ⟨"1", "stove", none⟩ (.ok ⟨5000, none⟩),
  .edit (.create .output "heat" .double (some (.double warmth))),
  .edit (.create .output "smoke" .integer (some (.integer 9))),
  .edit (.muteOutput "smoke" true)]

private def stove : Host := (Host.new "stove" Config.empty "s").after stoveTurns

private def stoveText : String :=
  "\x7b\"definition\":\x7b\"name\":\"stove\",\"outputs\":[" ++
    "\x7b\"name\":\"heat\",\"type\":\"DOUBLE\"\x7d," ++
    "\x7b\"name\":\"smoke\",\"type\":\"INTEGER\"\x7d]\x7d\x7d"

private def panel : Host := (Host.new "panel" Config.empty "n").after [
  .start .calm "" "host" ⟨"2", "panel", none⟩ (.ok ⟨4000, none⟩),
  .edit (.create .input "degrees" .integer none),
  .edit (.create .input "haze" .integer none),
  .edit (.addElement "degrees" "*" "heat"),
  .edit (.addElement "haze" "stove" "smoke"),
  .happen .calm (.presence (.enter "s" "stove" "host" (Table.ofList [("publisher", "5000")]))),
  .happen .calm (.presence (.whisper "s" "stove"
    (Command.enclosure .externalDefinition stoveText).toFrames))]

private def informed (p r : Reactor) : Agent :=
  (r.react .calm (.presence (.whisper "s" "stove" (replyOf p.agent)))).reactor.agent

private structure Scene where
  peerName : String
  subscriberName : String
  filters : List String
  elements : List Element
  frozen : Bool
  degrees : Option ValueType
  haze : Option Slot
  deriving DecidableEq

private def sceneOf? (r : Reactor) : Option Scene :=
  (r.directory.get? "s").bind fun peer => (r.subscribers.get? "s").map fun subscriber =>
    ⟨peer.name, subscriber.peerName, subscriber.filters.toList, r.agent.mapping.elements,
      r.agent.frozen, (r.agent.definition.input? "degrees").map (·.type),
      r.agent.definition.input? "haze"⟩

private theorem scene : panel.reactor?.bind sceneOf? = some ⟨"stove", "stove", ["heat", "smoke"],
    [⟨"degrees", "*", "heat"⟩, ⟨"haze", "stove", "smoke"⟩], false, some .integer,
    some (Slot.new "haze" .integer)⟩ := by
  decide +kernel

private theorem stove_state :
    stove.reactor?.map (fun p => (p.agent.name, p.agent.muted, p.agent.frozen,
      p.agent.definition.output? "heat", p.agent.definition.output? "smoke")) =
        some ("stove", false, false, some ⟨"heat", .double, .double warmth, false⟩,
          some ⟨"smoke", .integer, .integer 9, true⟩) := by
  decide +kernel

/-- The heat arrives as whole degrees; the smoke is muted, and the haze stays as it was. -/
theorem panel_shows_degrees : ∃ (p r : Reactor) (slot : Slot),
    stove.reactor? = some p ∧ panel.reactor? = some r ∧
      r.agent.definition.input? "degrees" = some slot ∧
      (informed p r).definition.input? "degrees" = some { slot with value := .integer 2 } ∧
      (informed p r).definition.input? "haze" = some (Slot.new "haze" .integer) := by
  obtain ⟨p, burning, held⟩ := Option.map_eq_some_iff.mp stove_state
  obtain ⟨r, watching, seen⟩ := Option.bind_eq_some_iff.mp scene
  obtain ⟨peer, entered, seen⟩ := Option.bind_eq_some_iff.mp seen
  obtain ⟨subscriber, subscribed, seen⟩ := Option.map_eq_some_iff.mp seen
  simp only [Prod.mk.injEq] at held
  simp only [Scene.mk.injEq] at seen
  obtain ⟨name, unmuted, thawedPeer, heat, smoke⟩ := held
  obtain ⟨peerName, subscriberName, filters, elements, thawed, degrees, haze⟩ := seen
  obtain ⟨slot, found, integer⟩ := Option.map_eq_some_iff.mp degrees
  obtain ⟨history, run⟩ : ∃ history, Run stove history :=
    run_after stoveTurns (.new "stove" Config.empty "s")
  have reachable : Reachable p.agent := agent_of_reactor? burning ▸ run.reachable
  obtain ⟨-, holds, keeps, -⟩ := outputs_reach_inputs reachable entered (peerName.trans name.symm)
    subscribed (subscriberName.trans name.symm) .calm .calm "n" "panel" "stove"
  have receives : subscriber.Receives p.agent "heat" (.double warmth) := by
    refine ⟨NameSet.mem_toList.mp ?_, unmuted, thawedPeer, _, heat, rfl, rfl⟩
    rw [filters]
    exact List.mem_cons_self
  have fed : r.agent.Feeds p.agent.name "heat" "degrees" :=
    ⟨⟨"degrees", "*", "heat"⟩, by rw [elements]; exact List.mem_cons_self, rfl, rfl, rfl⟩
  have takes : slot.Takes (.double warmth) (.integer 2) := by
    rw [Slot.Takes, integer]
    exact ⟨by decide +kernel, by decide⟩
  have alone : ∀ other, r.agent.Feeds p.agent.name other "degrees" → other = "heat" := by
    rintro other ⟨e, member, input, rfl, -⟩
    rw [elements] at member
    rcases List.mem_pair.mp member with rfl | rfl
    · rfl
    · exact absurd input (by decide)
  refine ⟨p, r, slot, burning, watching, found, ?_, ?_⟩
  · exact holds thawed "heat" _ "degrees" slot _ receives fed found takes fun other _ _ feeds =>
      alone other feeds
  · refine (keeps "haze" fun output value shown => ?_).trans haze
    rintro ⟨e, member, input, rfl, -⟩
    rw [elements] at member
    rcases List.mem_pair.mp member with rfl | rfl
    · exact absurd input (by decide)
    · obtain ⟨-, -, -, output, there, audible, -⟩ := shown
      cases smoke.symm.trans there
      cases audible

end Proofs.OutputExchanges
end PeerMesh
