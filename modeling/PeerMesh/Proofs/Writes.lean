import PeerMesh.Proofs.Definitions
import PeerMesh.Reactor.Execution

/-! What a write brings about. The host of an agent stores values and its peers store texts, which
are read at the type of the slot. The value of an output then goes out by the same gates. -/

namespace PeerMesh

/-- The message with an output's current value, if no gate holds it back. -/
def Agent.message? (a : Agent) (output : String) : Option DataMessage :=
  match a.prepare output with
  | .ok (.ok message) => some message
  | _ => none

/-- What goes out once a slot has been written. -/
def Agent.outgoing? (a : Agent) (kind : SlotKind) (name : String) : Option DataMessage :=
  match kind with
  | .output => a.message? name
  | .input | .parameter => none

namespace Proofs.Writes
open Outcomes Values

variable {a after : Agent} {r : Reactor} {kind : SlotKind} {name text : String}
  {definition : Definition} {stored : Value}

theorem message?_eq (a : Agent) (output : String) :
    a.message? output = (a.definition.output? output).bind fun slot =>
      if a.frozen || a.muted || slot.muted then none else some slot.message := by
  unfold Agent.message? Agent.prepare
  cases a.definition.output? output with
  | none => rfl
  | some slot =>
    dsimp only [Option.bind_some]
    cases a.frozen <;> cases a.muted <;> cases slot.muted <;> rfl

/-- Just after a write the output is there, with the value that was stored. -/
theorem output?_of_write {value : Value}
    (written : a.definition.write .output name value = .ok (definition, stored)) :
    ∃ slot, a.definition.output? name = some slot ∧
      definition.output? name = some { slot with value := stored } := by
  obtain ⟨slot, found, -, -, rfl⟩ := write_eq_ok.mp written
  refine ⟨slot, found, ?_⟩
  exact (Definitions.get?_insert _ .output .output _ _ _).trans (if_pos ⟨rfl, rfl⟩)

/-- A host's write stores, tells and sends in one. -/
theorem write_eq (a : Agent) (kind : SlotKind) (name : String) (value : Value) :
    a.write kind name value = (a.definition.write kind name value).map fun (definition, stored) =>
      ⟨{ a with definition := definition }, [.updated kind name stored],
        Agent.outgoing? { a with definition := definition } kind name, none⟩ := by
  unfold Agent.write
  cases a.definition.write kind name value with
  | error fault => rfl
  | ok result => cases kind <;> rfl

/-- But for data, a text spells what it converts into. -/
theorem parse_of_ne_data {type : ValueType} (other : type ≠ .data) (text : String) :
    Value.parse type text = (Value.string text).convertTo type := by
  cases type with
  | data => exact absurd rfl other
  | integer | double | string | bool | impulsion => rfl

/-- Storing what a text converts into is storing the text. -/
theorem write_converted {d : Definition} {slot : Slot} {source value : Value}
    (found : d.get? kind name = some slot) (converted : source.convertTo slot.type = .ok value) :
    d.write kind name value = d.write kind name source := by
  have again : value.convertTo slot.type = .ok value :=
    type_of_convertTo converted ▸ convertTo_type value
  simp only [Definition.write, found, converted, again]

/-- Where no data is kept, a peer's text is stored as the host would store it. -/
theorem setText_eq_write
    (plain : ∀ slot, a.definition.get? kind name = some slot → slot.type ≠ .data) :
    a.setText kind name text =
      (a.definition.write kind name (.string text)).map fun (definition, stored) =>
        ({ a with definition := definition }, stored) := by
  unfold Agent.setText
  cases found : a.definition.get? kind name with
  | none => simp only [Definition.write, found, Except.map]
  | some slot =>
    dsimp only
    rw [parse_of_ne_data (plain slot found)]
    cases converted : (Value.string text).convertTo slot.type with
    | error fault => simp only [Definition.write, found, converted, Except.map]
    | ok value =>
      dsimp only
      rw [write_converted found converted]

/-- A text that can be stored is never refused: the output that was just written is there. -/
theorem set_of_setText (set : r.agent.setText kind name text = .ok (after, stored)) :
    ∃ remark, r.set kind name text = ⟨(r.setAgent after).tell
      (.notify (.updated kind name stored) :: ((after.outgoing? kind name).map .publish).toList),
      .ok remark⟩ := by
  unfold Reactor.set
  rw [set]
  cases kind with
  | input | parameter => exact ⟨none, rfl⟩
  | output =>
    obtain ⟨value, definition, written, rfl⟩ := write_of_setText set
    obtain ⟨slot, -, found⟩ := output?_of_write written
    have prepared : ∃ outcome, Agent.prepare { r.agent with definition := definition } name =
        .ok outcome := by
      unfold Agent.prepare
      rw [found]
      exact ⟨_, rfl⟩
    obtain ⟨outcome, prepared⟩ := prepared
    simp only [Agent.outgoing?, Agent.message?, prepared]
    cases outcome with
    | ok message => exact ⟨none, rfl⟩
    | error gate => exact ⟨some (.held gate), rfl⟩

theorem set_of_refused {fault : ModelFault}
    (refused : r.agent.setText kind name text = .error fault) :
    r.set kind name text = .refused r (.model fault) := by
  unfold Reactor.set
  rw [refused]

end Proofs.Writes
end PeerMesh
