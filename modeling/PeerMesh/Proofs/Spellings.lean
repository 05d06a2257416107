import PeerMesh.Proofs.DefinitionFiles
import PeerMesh.Proofs.InputTypes
import PeerMesh.Proofs.MappingOperations

/-! The spellings of a name. A slot is created under the sanitized form of a name, whose other spellings
are then refused as clashes. But only the sanitized form finds the slot again: a definition looks up
names as they are spelled, while a mapping sanitizes those of an element that is to be removed. -/

namespace PeerMesh

namespace Definition

/-- A name under which a slot is found, whatever is asked of it. -/
structure Answers (d : Definition) (kind : SlotKind) (name : String) (slot : Slot) : Prop where
  found : d.get? kind name = some slot
  written : ∀ value stored, slot.Takes value stored → ∃ after,
    d.write kind name value = .ok (after, stored) ∧
      d.Puts after kind slot.name (some { slot with value := stored })
  muted : kind = .output → ∀ muted, ∃ after, d.setOutputMuted? name muted = some after ∧
    d.Puts after .output slot.name (some { slot with muted := muted })
  removed : ∃ after, d.remove kind name = .ok (after, slot) ∧ d.Puts after kind slot.name none

/-- A name under which no slot is found, whatever is asked of it. -/
structure Misses (d : Definition) (kind : SlotKind) (name : String) : Prop where
  absent : d.get? kind name = none
  unwritten : ∀ value, d.write kind name value = .error (.unknownSlot kind name)
  unmuted : kind = .output → ∀ muted, d.setOutputMuted? name muted = none
  unremoved : d.remove kind name = .error (.unknownSlot kind name)

end Definition

/-- Names of an element in spellings of which the same is left. -/
structure Element.Respells (other e : Element) : Prop where
  input : Name.sanitize other.input = Name.sanitize e.input
  agent : Name.sanitize other.agent = Name.sanitize e.agent
  output : Name.sanitize other.output = Name.sanitize e.output

namespace Proofs.Spellings
open Definition DefinitionFiles Outcomes SlotOperations

variable {d after : Definition} {kind : SlotKind} {name spelling : String} {slot : Slot}
  {type : ValueType} {value : Option Value}

theorem answers_of_get? (found : d.get? kind slot.name = some slot) :
    d.Answers kind slot.name slot where
  found := found
  written _ _ takes :=
    ⟨_, write_eq_ok.mpr ⟨slot, found, takes.1, takes.2, rfl⟩, puts_insert d kind slot.name _⟩
  muted output muted := by
    subst output
    have changed : d.setOutputMuted? slot.name muted = (d.get? .output slot.name).map _ := rfl
    rw [changed, found]
    exact ⟨_, rfl, puts_insert d .output slot.name _⟩
  removed := ⟨_, remove_eq_ok.mpr ⟨found, rfl⟩, puts_erase d kind slot.name⟩

theorem misses_of_get? (absent : d.get? kind name = none) : d.Misses kind name where
  absent := absent
  unwritten value := by rw [Definition.write, absent]
  unmuted output muted := by
    subst output
    have changed : d.setOutputMuted? name muted = (d.get? .output name).map _ := rfl
    rw [changed, absent]
    rfl
  unremoved := by rw [Definition.remove, absent]

/-- No slot stands under a name that sanitizing would change. -/
theorem get?_of_unclean (regular : d.Regular) (changed : Name.sanitize name ≠ name) :
    d.get? kind name = none := by
  cases found : d.get? kind name with
  | none => rfl
  | some slot => exact absurd (Names.sanitize_of_isClean (regular.slots _ _ _ found).clean) changed

theorem create_of_taken {existing : SlotKind} (spelled : (Name.sanitize name).isEmpty = false)
    (taken : d.kindOf? (Name.sanitize name) = some existing) :
    d.create kind name type value = .error (.nameClash (Name.sanitize name) existing) := by
  unfold Definition.create
  dsimp only
  rw [if_neg (by simp [spelled]), taken]

theorem regular_of_create (regular : d.Regular)
    (created : d.create kind name type value = .ok (after, slot)) : after.Regular := by
  have done : d.attempt (.create kind name type value) = .ok after := by
    rw [attempt, created]
    rfl
  exact regular_of_becomes regular ((attempt_eq_ok _).mp done)

theorem sanitizeAgent_eq (agent : String) : Element.sanitizeAgent agent = Name.sanitize agent := by
  unfold Element.sanitizeAgent
  split
  next any =>
    subst any
    decide
  next => rfl

theorem ofNames_of_respells {e other : Element} (respells : other.Respells e) :
    Element.ofNames other.input other.agent other.output = Element.ofNames e.input e.agent e.output := by
  simp only [Element.ofNames, sanitizeAgent_eq, respells.input, respells.agent, respells.output]

theorem mem_of_add {m next : Mapping} {id : UInt64} {input agent output : String}
    (added : m.add input agent output = .ok (next, id)) :
    Element.ofNames input agent output ∈ next.elements := by
  unfold Mapping.add at added
  split at added
  · cases added
  · cases added
    exact Mappings.mem_place.mpr (.inl rfl)

/-- An element that has been added is removed by any spellings of its names. -/
theorem remove_of_respells {m next : Mapping} {id : UInt64} {e other : Element}
    (added : m.add e.input e.agent e.output = .ok (next, id)) (respells : other.Respells e) :
    next.remove other.input other.agent other.output =
      .ok (next.drop (Element.ofNames e.input e.agent e.output),
        Element.ofNames e.input e.agent e.output) := by
  rw [← ofNames_of_respells respells]
  refine MappingOperations.remove_of_mem ?_
  rw [ofNames_of_respells respells]
  exact mem_of_add added

/-- Any spelling of the name of a slot that has been created is refused for another slot. The sanitized
one finds the slot, whatever is asked of it, and every other one finds none. In a mapping, any spellings
of its names remove an element that has been added. -/
theorem sanitized_spelling_alone_finds_slot (reached : d.Reached)
    (created : d.create kind name type value = .ok (after, slot))
    (same : Name.sanitize spelling = Name.sanitize name) :
    (∀ other otherType otherValue,
      after.create other spelling otherType otherValue = .error (.nameClash slot.name kind)) ∧
    (spelling = slot.name → after.Answers kind spelling slot) ∧
    (spelling ≠ slot.name → after.Misses kind spelling) ∧
    ∀ (m next : Mapping) (id : UInt64) (e other : Element),
      m.add e.input e.agent e.output = .ok (next, id) → other.Respells e →
      next.remove other.input other.agent other.output =
        .ok (next.drop (Element.ofNames e.input e.agent e.output),
          Element.ofNames e.input e.agent e.output) := by
  have regular : after.Regular := regular_of_create (regular_of_reached reached) created
  obtain ⟨spelled, -, stored, -, made, changed⟩ := create_eq_ok.mp created
  have named : Name.sanitize spelling = slot.name := by rw [same, made]
  have found : after.get? kind slot.name = some slot := by
    rw [changed, ← same, named, Definitions.get?_insert, if_pos ⟨rfl, rfl⟩]
  refine ⟨fun other otherType otherValue => ?_, ?_, fun differs => ?_,
    fun m next id e other => remove_of_respells⟩
  · have taken : after.kindOf? (Name.sanitize spelling) = some kind :=
      (regular.kinds _ _).mpr ⟨slot, named ▸ found⟩
    rw [create_of_taken (same ▸ spelled) taken, named]
  · rintro rfl
    exact answers_of_get? found
  · have changed : Name.sanitize spelling ≠ spelling := fun clean => differs (clean.symm.trans named)
    exact misses_of_get? (get?_of_unclean regular changed)

private def pump : Definition := Definition.new "pump"

/-- A flow rate is found by its sanitized name, and not by the name that it was created under. -/
theorem pump_misses_flow_rate : ∃ (after : Definition) (slot : Slot),
    pump.create .output "flow rate" .integer none = .ok (after, slot) ∧
    after.create .input "flow rate" .double none = .error (.nameClash "flow_rate" .output) ∧
    after.Answers .output "flow_rate" slot ∧ after.Misses .output "flow rate" := by
  have reached : pump.Reached := ⟨_, .new "pump", [], rfl⟩
  have creates : (pump.create .output "flow rate" .integer none).toOption.map (·.2.name) =
      some "flow_rate" := by decide +kernel
  cases created : pump.create .output "flow rate" .integer none with
  | error fault =>
    rw [created] at creates
    cases creates
  | ok result =>
    obtain ⟨after, slot⟩ := result
    rw [created] at creates
    have named : slot.name = "flow_rate" := Option.some.inj creates
    have clean : Name.sanitize "flow_rate" = Name.sanitize "flow rate" := by decide +kernel
    obtain ⟨clashes, -, misses, -⟩ := sanitized_spelling_alone_finds_slot reached created rfl
    obtain ⟨-, answers, -⟩ := sanitized_spelling_alone_finds_slot reached created clean
    refine ⟨after, slot, rfl, ?_, answers named.symm, misses (by simp [named])⟩
    rw [clashes, named]

end Proofs.Spellings
end PeerMesh
