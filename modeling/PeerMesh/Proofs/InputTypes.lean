import PeerMesh.Agent.Delivery
import PeerMesh.Proofs.Definitions
import PeerMesh.Proofs.HostRuns

/-! Which inputs take a message. A peer's output is subscribed to when some input accepts its type, but
then it is delivered to all inputs that the mapping feeds from it, and each of them takes what the
value converts into. Some values convert into types that do not accept theirs; apart from these, an
input is left alone by values of a type that it does not accept. -/

namespace PeerMesh

/-- The values that convert into a type that does not accept theirs, and what becomes of them. -/
inductive Value.Strays : Value → ValueType → Value → Prop where
  | impulsion {type : ValueType} (other : type ≠ .impulsion) :
      Strays .impulsion type (.default type)
  | text (s : String) : Strays (.string s) .data (.data s.toByteArray)
  | bytes {bytes : Bytes} {s : String} (read : Text.Utf8.decode bytes = .ok s) :
      Strays (.data bytes) .string (.string s)

/-- A slot can hold what a value converts into. -/
def Slot.Takes (slot : Slot) (value stored : Value) : Prop :=
  value.convertTo slot.type = .ok stored ∧ stored.size ≤ Limits.value

namespace Proofs.InputTypes
open HostRuns Outcomes

variable {a : Agent} {value v : Value} {type : ValueType} {d : Delivery} {fed : List String}
  {input : String} {slot now : Slot}

theorem not_accepts_of_strays (strays : value.Strays type v) : type.accepts value.type = false := by
  cases strays with
  | impulsion other =>
    cases type with
    | impulsion => exact absurd rfl other
    | integer | double | string | bool | data => rfl
  | text | bytes => rfl

/-- Nothing else converts into a type that does not accept it. -/
theorem converts_iff_strays (unaccepted : type.accepts value.type = false) :
    value.convertTo type = .ok v ↔ value.Strays type v := by
  rw [Values.convertTo_eq_ok]
  constructor
  · intro converted
    cases value with
    | integer | double | bool =>
      cases type with
      | data => cases converted
      | integer | double | string | bool | impulsion => cases unaccepted
    | string s =>
      cases type with
      | data =>
        cases converted
        exact .text s
      | integer | double | string | bool | impulsion => cases unaccepted
    | impulsion =>
      cases type with
      | impulsion => cases unaccepted
      | integer | double | string | bool | data =>
        cases converted
        exact .impulsion (by decide)
    | data bytes =>
      cases type with
      | string =>
        simp only [Value.convertOrFault] at converted
        split at converted
        next s read =>
          cases converted
          exact .bytes read
        next => cases converted
      | integer | double | bool => cases converted
      | impulsion | data => cases unaccepted
  · intro strays
    cases strays with
    | impulsion => cases type <;> rfl
    | text => rfl
    | bytes read => simp only [Value.convertOrFault, read]

/-- What has become of an agent after a value was written to some of its inputs. -/
structure Delivered (a : Agent) (value : Value) (fed : List String) (d : Delivery) : Prop where
  rest : ∃ inputs, d.agent = { a with definition := { a.definition with inputs := inputs } }
  updated : ∀ u ∈ d.updates, u.input ∈ fed ∧ ∃ slot, a.definition.input? u.input = some slot ∧
    slot.Takes value u.value ∧
    d.agent.definition.input? u.input = some { slot with value := u.value }
  kept : ∀ input, (∀ u ∈ d.updates, u.input ≠ input) →
    d.agent.definition.input? input = a.definition.input? input
  taken : ∀ input ∈ fed, ∀ slot v, a.definition.input? input = some slot → slot.Takes value v →
    ∃ u ∈ d.updates, u.input = input

/-- Whatever was written to an input, it keeps its type. -/
theorem slot_of_delivered (delivered : Delivered a value fed d) (input : String) :
    a.definition.input? input = none ∧ d.agent.definition.input? input = none ∨
      ∃ slot v, a.definition.input? input = some slot ∧
        d.agent.definition.input? input = some { slot with value := v } := by
  by_cases updated : ∃ u ∈ d.updates, u.input = input
  · obtain ⟨u, member, rfl⟩ := updated
    obtain ⟨-, slot, found, -, stored⟩ := delivered.updated u member
    exact .inr ⟨slot, u.value, found, stored⟩
  · have kept := delivered.kept input fun u member same => updated ⟨u, member, same⟩
    rw [kept]
    cases a.definition.input? input with
    | none => exact .inl ⟨rfl, rfl⟩
    | some slot => exact .inr ⟨slot, slot.value, rfl, rfl⟩

/-- An input that is there and can take the value takes it; no other does. -/
private theorem write_cases (value : Value) (d : Delivery) (e : Element) :
    ((Delivery.write value d e).agent = d.agent ∧ (Delivery.write value d e).updates = d.updates ∧
      ∀ now v, d.agent.definition.input? e.input = some now → ¬now.Takes value v) ∨
    ∃ now stored, d.agent.definition.input? e.input = some now ∧ now.Takes value stored ∧
      (Delivery.write value d e).agent = { d.agent with
        definition := d.agent.definition.setTable .input
          ((d.agent.definition.table .input).insert e.input { now with value := stored }) } ∧
      (Delivery.write value d e).updates = d.updates ++ [⟨e.input, stored⟩] := by
  unfold Delivery.write
  split
  next absent =>
    refine .inl ⟨rfl, rfl, fun now v found => ?_⟩
    rw [found] at absent
    cases absent
  next =>
    split
    next definition stored written =>
      obtain ⟨now, found, converted, fits, rfl⟩ := write_eq_ok.mp written
      exact .inr ⟨now, stored, found, ⟨converted, fits⟩, rfl, rfl⟩
    next fault refused =>
      refine .inl ⟨rfl, rfl, fun now v found takes => ?_⟩
      have written := write_eq_ok.mpr ⟨now, found, takes.1, takes.2, rfl⟩
      exact absurd (refused.symm.trans written) nofun

private theorem fed_cases {last : String} (member : input ∈ fed ++ [last]) :
    input ∈ fed ∨ input = last := by simpa using member

/-- An input that cannot take the value is passed over. -/
private theorem delivered_of_refused {after : Delivery} (delivered : Delivered a value fed d)
    (input : String) (sameAgent : after.agent = d.agent) (sameUpdates : after.updates = d.updates)
    (refuses : ∀ now v, d.agent.definition.input? input = some now → ¬now.Takes value v) :
    Delivered a value (fed ++ [input]) after := by
  constructor
  · rw [sameAgent]
    exact delivered.rest
  · intro u member
    rw [sameUpdates] at member
    rw [sameAgent]
    obtain ⟨inside, others⟩ := delivered.updated u member
    exact ⟨List.mem_append_left _ inside, others⟩
  · rw [sameAgent, sameUpdates]
    exact delivered.kept
  · rw [sameUpdates]
    intro other member slot v present fits
    rcases fed_cases member with inside | rfl
    · exact delivered.taken other inside slot v present fits
    · rcases slot_of_delivered delivered other with ⟨absent, -⟩ | ⟨original, w, first, standing⟩
      · exact absurd (absent.symm.trans present) nofun
      · cases first.symm.trans present
        have refused := refuses _ v standing
        exact absurd fits refused

/-- An input that can take the value holds it from then on. -/
private theorem delivered_of_stored {after : Delivery} (delivered : Delivered a value fed d)
    {stored : Value} (found : d.agent.definition.input? input = some now)
    (takes : now.Takes value stored)
    (agent : after.agent = { d.agent with
      definition := d.agent.definition.setTable .input
        ((d.agent.definition.table .input).insert input { now with value := stored }) })
    (updates : after.updates = d.updates ++ [⟨input, stored⟩]) :
    Delivered a value (fed ++ [input]) after := by
  obtain ⟨slot, original, same⟩ : ∃ slot, a.definition.input? input = some slot ∧
      { now with value := stored } = { slot with value := stored } ∧ now.type = slot.type := by
    rcases slot_of_delivered delivered input with ⟨-, absent⟩ | ⟨slot, w, first, standing⟩
    · exact absurd (absent.symm.trans found) nofun
    · cases standing.symm.trans found
      exact ⟨slot, first, rfl, rfl⟩
  have placed (other : String) : after.agent.definition.input? other =
      if input = other then some { slot with value := stored }
      else d.agent.definition.input? other := by
    rw [agent, same.1]
    exact (Definitions.get?_insert _ .input .input _ _ _).trans (by simp [Definition.input?])
  have converted : value.convertTo slot.type = .ok stored := same.2 ▸ takes.1
  constructor
  · obtain ⟨inputs, rest⟩ := delivered.rest
    exact ⟨_, by rw [agent, rest]; rfl⟩
  · intro u member
    rw [updates] at member
    rcases List.mem_append.mp member with earlier | last
    · obtain ⟨inside, other, first, fits, stays⟩ := delivered.updated u earlier
      refine ⟨List.mem_append_left _ inside, other, first, fits, (placed u.input).trans ?_⟩
      split
      next again =>
        rw [← again, original] at first
        cases first
        rw [Except.ok.inj (fits.1.symm.trans converted)]
      next => exact stays
    · cases List.mem_singleton.mp last
      exact ⟨by simp, slot, original, ⟨converted, takes.2⟩, (placed input).trans (if_pos rfl)⟩
  · rw [updates]
    intro other others
    have different : input ≠ other := others ⟨input, stored⟩ (by simp)
    rw [placed other, if_neg different]
    apply delivered.kept
    intro u earlier
    exact others u (List.mem_append_left _ earlier)
  · rw [updates]
    intro other member present v first fits
    rcases fed_cases member with inside | rfl
    · obtain ⟨u, earlier, named⟩ := delivered.taken other inside present v first fits
      exact ⟨u, List.mem_append_left _ earlier, named⟩
    · exact ⟨⟨other, stored⟩, by simp, rfl⟩

private theorem delivered_write (delivered : Delivered a value fed d) (e : Element) :
    Delivered a value (fed ++ [e.input]) (Delivery.write value d e) := by
  rcases write_cases value d e with
    ⟨sameAgent, sameUpdates, refuses⟩ | ⟨now, stored, found, takes, agent, updates⟩
  · exact delivered_of_refused delivered e.input sameAgent sameUpdates refuses
  · exact delivered_of_stored delivered found takes agent updates

def fedBy (a : Agent) (peerName : String) (m : DataMessage) : List String :=
  if a.frozen then [] else (a.mapping.elementsFor peerName m.name).map (·.input)

theorem mem_fedBy {peerName : String} {m : DataMessage} : input ∈ fedBy a peerName m ↔
    a.frozen = false ∧ ∃ e ∈ a.mapping.elements,
      e.input = input ∧ e.output = m.name ∧ e.targets peerName = true := by
  unfold fedBy Mapping.elementsFor
  cases a.frozen with
  | true => simp
  | false => simp [and_comm, and_left_comm]

theorem delivered_deliver (a : Agent) (peerName : String) (m : DataMessage) :
    Delivered a m.value (fedBy a peerName m) (a.deliver peerName m) := by
  have start : Delivered a m.value [] ⟨a, [], []⟩ :=
    ⟨⟨a.definition.inputs, rfl⟩, nofun, fun _ _ => rfl, nofun⟩
  have run : ∀ (elements : List Element) {fed : List String} {d : Delivery},
      Delivered a m.value fed d → Delivered a m.value (fed ++ elements.map (·.input))
        (elements.foldl (Delivery.write m.value) d) := by
    intro elements
    induction elements with
    | nil => exact fun sofar => by simpa using sofar
    | cons e elements ih => exact fun sofar => by simpa using ih (delivered_write sofar e)
  unfold fedBy Agent.deliver
  split
  · exact start
  · exact run _ start

/-- A message changes nothing but inputs that it is written to, and reports them. An input whose type
does not accept the message's type takes it in three cases only: if it is an impulsion, a text for
data, or data for a text that it spells. -/
theorem unaccepted_inputs_take_strays (a : Agent) (peerName : String) (m : DataMessage) :
    let d := a.deliver peerName m
    (∃ inputs, d.agent = { a with definition := { a.definition with inputs := inputs } }) ∧
    (∀ u ∈ d.updates, ∃ slot, a.definition.input? u.input = some slot ∧
      d.agent.definition.input? u.input = some { slot with value := u.value } ∧
      (slot.type.accepts m.value.type = true ∨ m.value.Strays slot.type u.value)) ∧
    (∀ input, (∀ u ∈ d.updates, u.input ≠ input) →
      d.agent.definition.input? input = a.definition.input? input) ∧
    ∀ input slot, a.definition.input? input = some slot →
      (slot.type.accepts m.value.type = false ∧ (∃ u ∈ d.updates, u.input = input) ↔
        a.frozen = false ∧
        (∃ e ∈ a.mapping.elements,
          e.input = input ∧ e.output = m.name ∧ e.targets peerName = true) ∧
        ∃ v, m.value.Strays slot.type v ∧ v.size ≤ Limits.value) := by
  intro d
  have delivered : Delivered a m.value (fedBy a peerName m) d := delivered_deliver a peerName m
  refine ⟨delivered.rest, fun u member => ?_, delivered.kept, fun input slot found => ?_⟩
  · obtain ⟨-, slot, found, takes, stored⟩ := delivered.updated u member
    refine ⟨slot, found, stored, ?_⟩
    cases accepted : slot.type.accepts m.value.type with
    | true => exact .inl rfl
    | false => exact .inr ((converts_iff_strays accepted).mp takes.1)
  · constructor
    · rintro ⟨unaccepted, u, member, rfl⟩
      obtain ⟨inside, other, present, takes, -⟩ := delivered.updated u member
      cases found.symm.trans present
      obtain ⟨thawed, fed⟩ := mem_fedBy.mp inside
      exact ⟨thawed, fed, u.value, (converts_iff_strays unaccepted).mp takes.1, takes.2⟩
    · rintro ⟨thawed, fed, v, strays, fits⟩
      have unaccepted := not_accepts_of_strays strays
      exact ⟨unaccepted, delivered.taken input (mem_fedBy.mpr ⟨thawed, fed⟩) slot v found
        ⟨(converts_iff_strays unaccepted).mpr strays, fits⟩⟩

private def meterTurns : List Turn := [
  .edit (.create .input "count" .integer (some (.integer 7))),
  .edit (.create .input "beat" .impulsion none),
  .edit (.addElement "count" "clock" "tick"),
  .edit (.addElement "beat" "clock" "tick")]

private def meter : Agent := ((Host.new "meter" Config.empty "m").after meterTurns).agent

/-- The tick is subscribed to for the beat, and sets the count back to zero. -/
theorem tick_resets_count :
    (∃ slot, meter.definition.input? "count" = some slot ∧ slot.value = .integer 7 ∧
      slot.type.accepts .impulsion = false) ∧
    (∃ slot, meter.definition.input? "beat" = some slot ∧ slot.type.accepts .impulsion = true) ∧
    ∃ u ∈ (meter.deliver "clock" ⟨"tick", .impulsion⟩).updates, u.input = "count" ∧
      u.value = .integer 0 := by
  have counts : (meter.definition.input? "count").map (fun slot => (slot.value, slot.type)) =
      some (.integer 7, .integer) := by decide +kernel
  have beats : (meter.definition.input? "beat").map (·.type) = some .impulsion := by decide +kernel
  have thawed : meter.frozen = false := by decide +kernel
  have fed : ⟨"count", "clock", "tick"⟩ ∈ meter.mapping.elements := by decide +kernel
  obtain ⟨slot, found, same⟩ := Option.map_eq_some_iff.mp counts
  obtain ⟨beat, present, type⟩ := Option.map_eq_some_iff.mp beats
  obtain ⟨seven, integer⟩ := Prod.mk.inj same
  obtain ⟨-, reports, -, reported⟩ :=
    unaccepted_inputs_take_strays meter "clock" ⟨"tick", .impulsion⟩
  obtain ⟨unaccepted, u, member, named⟩ := (reported "count" slot found).mpr
    ⟨thawed, ⟨_, fed, rfl, rfl, by decide⟩, .default slot.type, .impulsion (by rw [integer]; decide),
      by rw [integer]; decide⟩
  obtain ⟨other, again, -, accepted | strays⟩ := reports u member
  · rw [named, found] at again
    cases again
    exact absurd (unaccepted.symm.trans accepted) nofun
  · rw [named, found] at again
    cases again
    have default : ∀ type v, Value.Strays .impulsion type v → v = .default type := by
      rintro type v ⟨_⟩
      rfl
    refine ⟨⟨slot, found, seven, unaccepted⟩, ⟨beat, present, by rw [type]; rfl⟩, u, member, named, ?_⟩
    rw [default _ _ strays, integer]
    rfl

end Proofs.InputTypes
end PeerMesh
