import Mathlib.Data.List.Forall2
import PeerMesh.Proofs.InputTypes
import PeerMesh.Proofs.Resolution

/-! What comes of one message, element by element. Each mapping element that feeds an input from the
message contributes one entry: the value that the input takes, or why it takes none. The elements do
not get in each other's way, since a write leaves every input its type: what an element contributes
can be told from the agent that the message found. -/

namespace PeerMesh

/-- The elements that feed an input from an output of a peer, in the order of the mapping. -/
def Agent.inlets (a : Agent) (peerName output : String) : List Element :=
  a.mapping.elements.filter fun e =>
    e.output = output && e.targets peerName && (a.definition.input? e.input).isSome

/-- What an element contributes to the delivery of a value. -/
inductive Agent.Contributes (a : Agent) (value : Value) (e : Element) :
    Except ModelFault InputUpdate → Prop where
  | update {slot : Slot} {stored : Value} (found : a.definition.input? e.input = some slot)
      (takes : slot.Takes value stored) : Contributes a value e (.ok ⟨e.input, stored⟩)
  | unconverted {slot : Slot} {fault : ModelFault} (found : a.definition.input? e.input = some slot)
      (refused : value.convertTo slot.type = .error fault) : Contributes a value e (.error fault)
  | tooLarge {slot : Slot} {converted : Value} (found : a.definition.input? e.input = some slot)
      (converts : value.convertTo slot.type = .ok converted)
      (long : Limits.value < converted.size) :
      Contributes a value e (.error (.valueTooLarge e.input converted.size))

namespace Proofs.Inlets
open AgentChanges InputTypes Resolution

variable {a : Agent} {value : Value} {d : Delivery} {e : Element}
  {entry : Except ModelFault InputUpdate}

def updatesOf (entries : List (Except ModelFault InputUpdate)) : List InputUpdate :=
  entries.filterMap Except.toOption

def faultsOf (entries : List (Except ModelFault InputUpdate)) : List ModelFault :=
  entries.filterMap fun
    | .ok _ => none
    | .error fault => some fault

/-- An input whose element contributes a fault cannot take the value. -/
theorem not_takes_of_fault {fault : ModelFault} {slot : Slot} {stored : Value}
    (faulty : a.Contributes value e (.error fault))
    (found : a.definition.input? e.input = some slot) : ¬slot.Takes value stored := by
  intro takes
  cases faulty with
  | unconverted again refused =>
    cases found.symm.trans again
    cases takes.1.symm.trans refused
  | tooLarge again converts long =>
    cases found.symm.trans again
    cases takes.1.symm.trans converts
    exact absurd takes.2 (Nat.not_le.mpr long)

/-- A write to an input that is there, by whether the input can take the value. -/
theorem write_found {now : Slot} (value : Value)
    (found : d.agent.definition.input? e.input = some now) :
    (∃ definition stored, now.Takes value stored ∧
      d.agent.definition.write .input e.input value = .ok (definition, stored)) ∨
    (∃ fault, value.convertTo now.type = .error fault ∧
      d.agent.definition.write .input e.input value = .error fault) ∨
    ∃ converted, value.convertTo now.type = .ok converted ∧ Limits.value < converted.size ∧
      d.agent.definition.write .input e.input value =
        .error (.valueTooLarge e.input converted.size) := by
  have found : d.agent.definition.get? .input e.input = some now := found
  cases converts : value.convertTo now.type with
  | error fault =>
    refine .inr (.inl ⟨fault, rfl, ?_⟩)
    simp only [Definition.write, found, converts]
  | ok converted =>
    by_cases long : Limits.value < converted.size
    · refine .inr (.inr ⟨converted, rfl, long, ?_⟩)
      simp only [Definition.write, found, converts, if_pos long]
    · have fits : converted.size ≤ Limits.value := Nat.not_lt.mp long
      have written := Outcomes.write_eq_ok.mpr ⟨now, found, converts, fits, rfl⟩
      exact .inl ⟨_, converted, ⟨converts, fits⟩, written⟩

/-- An element whose input is not there is passed over. -/
theorem write_absent (absent : d.agent.definition.input? e.input = none) :
    Delivery.write value d e = d := by
  rw [Delivery.write, absent]
  rfl

/-- An element whose input is there contributes one entry, whatever was written before. -/
theorem write_present (outline : d.agent.definition.outline = a.definition.outline)
    {slot : Slot} (found : a.definition.input? e.input = some slot) :
    ∃ entry, a.Contributes value e entry ∧
      (Delivery.write value d e).updates = d.updates ++ updatesOf [entry] ∧
      (Delivery.write value d e).faults = d.faults ++ faultsOf [entry] ∧
      (Delivery.write value d e).agent.definition.outline = a.definition.outline := by
  have types := input?_of_outline outline e.input
  rw [found] at types
  obtain ⟨now, standing, same⟩ := Option.map_eq_some_iff.mp types
  have type : now.type = slot.type := same
  have present : (d.agent.definition.input? e.input).isNone = false := by rw [standing]; rfl
  rcases write_found value standing with
    ⟨definition, stored, takes, written⟩ | ⟨fault, refused, written⟩ |
    ⟨converted, converts, long, written⟩
  · have takes : slot.Takes value stored := ⟨type ▸ takes.1, takes.2⟩
    refine ⟨.ok ⟨e.input, stored⟩, .update found takes, ?_⟩
    simp only [Delivery.write, present, written]
    exact ⟨rfl, (List.append_nil _).symm, (outline_of_write written).trans outline⟩
  · refine ⟨.error fault, .unconverted found (type ▸ refused), ?_⟩
    simp only [Delivery.write, present, written]
    exact ⟨(List.append_nil _).symm, rfl, outline⟩
  · refine ⟨_, .tooLarge found (type ▸ converts) long, ?_⟩
    simp only [Delivery.write, present, written]
    exact ⟨(List.append_nil _).symm, rfl, outline⟩

theorem updatesOf_cons (entry : Except ModelFault InputUpdate)
    (entries : List (Except ModelFault InputUpdate)) :
    updatesOf (entry :: entries) = updatesOf [entry] ++ updatesOf entries :=
  List.filterMap_append (l := [entry])

theorem faultsOf_cons (entry : Except ModelFault InputUpdate)
    (entries : List (Except ModelFault InputUpdate)) :
    faultsOf (entry :: entries) = faultsOf [entry] ++ faultsOf entries :=
  List.filterMap_append (l := [entry])

/-- The elements of a list contribute in its order, those with no input apart. -/
theorem foldl_write (elements : List Element)
    (outline : d.agent.definition.outline = a.definition.outline) :
    ∃ entries,
      List.Forall₂ (a.Contributes value)
        (elements.filter fun e => (a.definition.input? e.input).isSome) entries ∧
      (elements.foldl (Delivery.write value) d).updates = d.updates ++ updatesOf entries ∧
      (elements.foldl (Delivery.write value) d).faults = d.faults ++ faultsOf entries := by
  induction elements generalizing d with
  | nil => exact ⟨[], .nil, (List.append_nil _).symm, (List.append_nil _).symm⟩
  | cons e elements ih =>
    rw [List.foldl_cons]
    cases found : a.definition.input? e.input with
    | none =>
      have types := input?_of_outline outline e.input
      rw [found] at types
      rw [write_absent (Option.map_eq_none_iff.mp types),
        List.filter_cons_of_neg (by simp [found])]
      exact ih outline
    | some slot =>
      obtain ⟨entry, contributes, updates, faults, kept⟩ :=
        @write_present a value d e outline slot found
      obtain ⟨entries, each, allUpdates, allFaults⟩ := ih kept
      refine ⟨entry :: entries, ?_, ?_, ?_⟩
      · rw [List.filter_cons_of_pos (by simp [found])]
        exact .cons contributes each
      · rw [allUpdates, updates, List.append_assoc, ← updatesOf_cons]
      · rw [allFaults, faults, List.append_assoc, ← faultsOf_cons]

theorem inlets_eq (a : Agent) (peerName output : String) :
    a.inlets peerName output = (a.mapping.elementsFor peerName output).filter fun e =>
      (a.definition.input? e.input).isSome := by
  rw [Mapping.elementsFor, List.filter_filter, Agent.inlets]
  simp only [Bool.and_comm]

/-- Each element that feeds an input from a message contributes one entry, in the order of the
mapping, whatever the others contribute. The inputs that are named by updates hold the values of
these, and nothing else is changed. -/
theorem deliver_element_by_element (a : Agent) (peerName : String) (m : DataMessage) :
    let d := a.deliver peerName m
    (a.frozen = true → d = ⟨a, [], []⟩) ∧
    (a.frozen = false → ∃ entries,
      List.Forall₂ (a.Contributes m.value) (a.inlets peerName m.name) entries ∧
        d.updates = updatesOf entries ∧ d.faults = faultsOf entries) ∧
    (∃ inputs, d.agent = { a with definition := { a.definition with inputs := inputs } }) ∧
    (∀ u ∈ d.updates, ∃ slot, a.definition.input? u.input = some slot ∧
      d.agent.definition.input? u.input = some { slot with value := u.value }) ∧
    (∀ input, (∀ u ∈ d.updates, u.input ≠ input) →
      d.agent.definition.input? input = a.definition.input? input) ∧
    ∀ e fault, a.Contributes m.value e (.error fault) →
      d.agent.definition.input? e.input = a.definition.input? e.input := by
  intro d
  have delivered : Delivered a m.value (fedBy a peerName m) d := delivered_deliver a peerName m
  refine ⟨fun frozen => ?_, fun thawed => ?_, delivered.rest, fun u member => ?_, delivered.kept,
    ?_⟩
  · exact if_pos frozen
  · have folded : d = (a.mapping.elementsFor peerName m.name).foldl (Delivery.write m.value)
        ⟨a, [], []⟩ := if_neg (by simp [thawed])
    rw [folded, inlets_eq]
    exact foldl_write (d := ⟨a, [], []⟩) _ rfl
  · obtain ⟨-, slot, found, -, stored⟩ := delivered.updated u member
    exact ⟨slot, found, stored⟩
  · intro e fault faulty
    apply delivered.kept
    intro u member same
    obtain ⟨-, slot, found, takes, -⟩ := delivered.updated u member
    exact not_takes_of_fault faulty (same ▸ found) takes

private def signTurns : List Turn := [
  .edit (.create .input "count" .integer (some (.integer 7))),
  .edit (.create .input "label" .string none),
  .edit (.addElement "count" "desk" "text"),
  .edit (.addElement "label" "desk" "text"),
  .edit (.addElement "label" "*" "text"),
  .edit (.addElement "nowhere" "*" "text")]

private def sign : Agent := ((Host.new "sign" Config.empty "s").after signTurns).agent

private def seven : DataMessage := ⟨"text", .string "seven"⟩

private theorem count_refuses
    (contributes : sign.Contributes seven.value ⟨"count", "desk", "text"⟩ entry) :
    ∃ fault, entry = .error fault := by
  have counts : (sign.definition.input? "count").map (·.type) = some .integer := by decide +kernel
  have unread : (seven.value.convertTo .integer).toOption = none := by decide +kernel
  obtain ⟨count, found, integer⟩ := Option.map_eq_some_iff.mp counts
  cases contributes with
  | update again takes =>
    cases found.symm.trans again
    rw [← integer, takes.1] at unread
    cases unread
  | unconverted | tooLarge => exact ⟨_, rfl⟩

private theorem label_takes {agent : String}
    (contributes : sign.Contributes seven.value ⟨"label", agent, "text"⟩ entry) :
    entry = .ok ⟨"label", .string "seven"⟩ := by
  have labels : (sign.definition.input? "label").map (·.type) = some .string := by decide +kernel
  obtain ⟨label, found, text⟩ := Option.map_eq_some_iff.mp labels
  have converts : seven.value.convertTo label.type = .ok (.string "seven") := by rw [text]; rfl
  cases contributes with
  | update again takes =>
    cases found.symm.trans again
    rw [Except.ok.inj (takes.1.symm.trans converts)]
  | unconverted again refused =>
    cases found.symm.trans again
    cases refused.symm.trans converts
  | tooLarge again converted long =>
    cases found.symm.trans again
    cases converted.symm.trans converts
    exact absurd long (by decide)

/-- A text that spells no number is refused once, and taken twice by the one input that can. -/
theorem label_takes_text_twice :
    (sign.deliver "desk" seven).updates =
      [⟨"label", .string "seven"⟩, ⟨"label", .string "seven"⟩] ∧
    (sign.deliver "desk" seven).faults.length = 1 ∧
    ((sign.deliver "desk" seven).agent.definition.input? "label").map (·.value) =
      some (.string "seven") ∧
    (sign.deliver "desk" seven).agent.definition.input? "count" =
      sign.definition.input? "count" := by
  have thawed : sign.frozen = false := by decide +kernel
  have inlets : sign.inlets "desk" "text" =
      [⟨"count", "desk", "text"⟩, ⟨"label", "*", "text"⟩, ⟨"label", "desk", "text"⟩] := by
    decide +kernel
  obtain ⟨-, run, -, held, kept, -⟩ := deliver_element_by_element sign "desk" seven
  obtain ⟨entries, each, updates, faults⟩ := run thawed
  rw [show seven.name = "text" from rfl, inlets] at each
  obtain ⟨first, rest, number, labels, rfl⟩ := List.forall₂_cons_left_iff.mp each
  obtain ⟨second, rest, one, last, rfl⟩ := List.forall₂_cons_left_iff.mp labels
  obtain ⟨third, rest, two, none, rfl⟩ := List.forall₂_cons_left_iff.mp last
  cases List.forall₂_nil_left_iff.mp none
  obtain ⟨fault, rfl⟩ := count_refuses number
  cases label_takes one
  cases label_takes two
  have updates : (sign.deliver "desk" seven).updates =
    [⟨"label", .string "seven"⟩, ⟨"label", .string "seven"⟩] := updates
  have faults : (sign.deliver "desk" seven).faults = [fault] := faults
  obtain ⟨label, -, stored⟩ := held ⟨"label", .string "seven"⟩ (by rw [updates]; simp)
  refine ⟨updates, by rw [faults]; rfl, by rw [stored]; rfl, kept "count" fun u member same => ?_⟩
  rw [updates] at member
  simp only [List.mem_cons, List.not_mem_nil, or_false, or_self] at member
  subst member
  exact absurd same (by decide)

end Proofs.Inlets
end PeerMesh
