import Mathlib.Logic.Relation
import PeerMesh.Proofs.Outcomes
import PeerMesh.Proofs.Tables

/-! What hosts and peers can do to an agent. Every edit and every command comes down to a few changes
of its state, and none of them goes unnoted: as long as neither the definition nor the mapping is
marked as changed, both are what they were, values aside. -/

namespace PeerMesh

/-- A definition without its values: what decides which outputs may feed which inputs. -/
structure Outline where
  name : String
  description : String
  version : String
  inputs : Table ValueType
  outputs : Table ValueType
  parameters : Table ValueType
  deriving DecidableEq

namespace Definition

def types (slots : Table Slot) : Table ValueType := slots.mapValues fun _ slot => slot.type

def outline (d : Definition) : Outline :=
  ⟨d.name, d.description, d.version, types d.inputs, types d.outputs, types d.parameters⟩

end Definition

namespace Proofs.AgentChanges
open Outcomes

/-- One change of an agent's state, by its host or by a peer. -/
inductive Change : Agent → Agent → Prop where
  | create {a b : Agent} {kind name type value} (done : a.create kind name type value = .ok b) :
      Change a b
  | remove {a b : Agent} {kind name} (done : a.remove kind name = .ok b) : Change a b
  | write {a : Agent} {kind name value definition stored}
      (done : a.definition.write kind name value = .ok (definition, stored)) :
      Change a { a with definition := definition }
  | muteOutput {a b : Agent} {output muted} (done : a.setOutputMuted output muted = .ok b) :
      Change a b
  | loadDefinition {a b : Agent} {text} (done : a.loadDefinition text = .ok b) : Change a b
  | loadMapping {a b : Agent} {text} (done : a.loadMapping text = .ok b) : Change a b
  | clearMapping {a : Agent} : Change a a.clearMapping
  | addElement {a b : Agent} {input agent output id}
      (done : a.addElement input agent output = .ok (b, id)) : Change a b
  | removeElement {a b : Agent} {input agent output}
      (done : a.removeElement input agent output = .ok b) : Change a b
  | removeElementById {a b : Agent} {id} (done : a.removeElementById id = .ok b) : Change a b
  /-- What is neither in the definition nor in the mapping. -/
  | manner {a : Agent} (muted frozen canBeFrozen : Bool) (state : String)
      (logFilePath definitionPath mappingPath : Option String) :
      Change a { a with
        muted := muted
        frozen := frozen
        canBeFrozen := canBeFrozen
        state := state
        logFilePath := logFilePath
        definitionPath := definitionPath
        mappingPath := mappingPath }

abbrev Changes : Agent → Agent → Prop := Relation.ReflTransGen Change

theorem changes_of_setText {a b : Agent} {kind : SlotKind} {name text : String} {stored : Value}
    (done : a.setText kind name text = .ok (b, stored)) : Changes a b := by
  obtain ⟨value, definition, written, rfl⟩ := write_of_setText done
  exact .single (.write written)

theorem changes_setPath (a : Agent) (path : String) (topic : Topic) :
    Changes a (a.setPath path topic) := by
  cases topic with
  | logFilePath => exact .single (.manner _ _ _ _ (some path) _ _)
  | definitionFilePath => exact .single (.manner _ _ _ _ _ (some path) _)
  | mappingFilePath => exact .single (.manner _ _ _ _ _ _ (some path))
  | mute | unmute | setLogPath | setDefinitionPath | setMappingPath | outputMuted | outputUnmuted =>
    exact .refl

private theorem changes_write (value : Value) (d : Delivery) (e : Element) :
    Changes d.agent (Delivery.write value d e).agent := by
  unfold Delivery.write
  split
  · exact .refl
  split
  next written => exact .single (.write written)
  next => exact .refl

theorem changes_deliver (a : Agent) (peerName : String) (m : DataMessage) :
    Changes a (a.deliver peerName m).agent := by
  have fold : ∀ (elements : List Element) (d : Delivery),
      Changes d.agent (elements.foldl (Delivery.write m.value) d).agent := by
    intro elements
    induction elements with
    | nil => exact fun _ => .refl
    | cons e elements ih => exact fun d => (changes_write m.value d e).trans (ih _)
  unfold Agent.deliver
  split
  · exact .refl
  · exact fold _ ⟨a, [], []⟩

private theorem changes_load {a b : Agent} {text : String} {path : Option String}
    {document : Document} (done : a.load text path document = .ok b) : Changes a b := by
  cases document with
  | definition =>
    obtain ⟨loaded, read, rfl⟩ := map_eq_ok.mp done
    exact (Relation.ReflTransGen.single (.loadDefinition read)).tail (.manner _ _ _ _ _ _ _)
  | mapping =>
    obtain ⟨loaded, read, rfl⟩ := map_eq_ok.mp done
    exact (Relation.ReflTransGen.single (.loadMapping read)).tail (.manner _ _ _ _ _ _ _)

private theorem changes_of_write {a : Agent} {kind : SlotKind} {name : String} {value : Value}
    {edited : Edited} (done : a.write kind name value = .ok edited) : Changes a edited.agent := by
  unfold Agent.write at done
  split at done
  · cases done
  next definition stored written =>
    cases done
    exact .single (.write written)

private theorem changes_mute (a : Agent) (muted : Bool) : Changes a (a.mute muted).agent := by
  unfold Agent.mute
  split
  · exact .refl
  · exact .single (.manner muted _ _ _ _ _ _)

private theorem changes_freeze {a : Agent} {frozen : Bool} {edited : Edited}
    (done : a.freeze frozen = .ok edited) : Changes a edited.agent := by
  unfold Agent.freeze at done
  split at done
  · cases done
  split at done
  · cases done
    exact .refl
  · cases done
    exact .single (.manner _ frozen _ _ _ _ _)

/-- An edit is made of changes. -/
theorem changes_of_edit {a : Agent} {e : Edit} {edited : Edited} (done : e.apply a = .ok edited) :
    Changes a edited.agent := by
  cases e with
  | create kind name type value =>
    obtain ⟨b, created, rfl⟩ := map_eq_ok.mp done
    exact .single (.create (lift_eq_ok.mp created))
  | remove kind name =>
    obtain ⟨b, removed, rfl⟩ := map_eq_ok.mp done
    exact .single (.remove (lift_eq_ok.mp removed))
  | write kind name value => exact changes_of_write (lift_eq_ok.mp done)
  | load document text path =>
    obtain ⟨b, loaded, rfl⟩ := map_eq_ok.mp done
    exact changes_load (lift_eq_ok.mp loaded)
  | addElement input agent output =>
    obtain ⟨⟨b, id⟩, added, rfl⟩ := map_eq_ok.mp done
    exact .single (.addElement (lift_eq_ok.mp added))
  | removeElement input agent output =>
    obtain ⟨b, removed, rfl⟩ := map_eq_ok.mp done
    exact .single (.removeElement (lift_eq_ok.mp removed))
  | removeElementById id =>
    obtain ⟨b, removed, rfl⟩ := map_eq_ok.mp done
    exact .single (.removeElementById (lift_eq_ok.mp removed))
  | clearMapping =>
    cases done
    exact .single .clearMapping
  | mute muted =>
    cases done
    exact changes_mute a muted
  | muteOutput output muted =>
    obtain ⟨b, set, rfl⟩ := map_eq_ok.mp done
    exact .single (.muteOutput (lift_eq_ok.mp set))
  | freeze frozen => exact changes_freeze done
  | permitFreezing permitted =>
    cases done
    exact .single (.manner _ _ permitted _ _ _ _)
  | setState state =>
    cases done
    exact .single (.manner _ _ _ state _ _ _)

theorem types_insert {slots : Table Slot} {key : String} {slot other : Slot}
    (found : slots.get? key = some slot) (same : other.type = slot.type) :
    Definition.types (slots.insert key other) = Definition.types slots := by
  refine Table.ext_get? fun name => ?_
  simp only [Definition.types, Table.get?_mapValues, Table.get?_insert]
  split
  next equal => simp [← equal, found, same]
  next => rfl

theorem outline_setTable {d : Definition} (kind : SlotKind) {slots : Table Slot}
    (same : Definition.types slots = Definition.types (d.table kind)) :
    (d.setTable kind slots).outline = d.outline := by
  cases kind <;> simp_all [Definition.outline, Definition.setTable, Definition.table]

/-- Writing a value changes no outline. -/
theorem outline_of_write {d after : Definition} {kind : SlotKind} {name : String}
    {value stored : Value} (written : d.write kind name value = .ok (after, stored)) :
    after.outline = d.outline := by
  obtain ⟨slot, found, -, -, rfl⟩ := write_eq_ok.mp written
  exact outline_setTable kind (types_insert found rfl)

theorem outline_of_setOutputMuted {d after : Definition} {name : String} {muted : Bool}
    (set : d.setOutputMuted? name muted = some after) : after.outline = d.outline := by
  obtain ⟨slot, found, rfl⟩ := Option.map_eq_some_iff.mp set
  exact outline_setTable .output (types_insert found rfl)

/-- What has changed from one state to the next is marked in the second. -/
structure Noted (a b : Agent) : Prop where
  definition : b.definitionDirty = false →
    a.definitionDirty = false ∧ b.definition.outline = a.definition.outline
  mapping : b.mappingDirty = false → a.mappingDirty = false ∧ b.mapping = a.mapping
  /-- A replacement stays marked. -/
  kept : a.mappingReplaced = true → b.mappingReplaced = true
  due : b.mappingReplaced = true → a.mappingReplaced = true ∨ b.mappingDirty = true

theorem Noted.refl (a : Agent) : Noted a a :=
  ⟨fun clean => ⟨clean, rfl⟩, fun clean => ⟨clean, rfl⟩, fun replaced => replaced, .inl⟩

theorem Noted.trans {a b c : Agent} (first : Noted a b) (last : Noted b c) : Noted a c := by
  refine ⟨fun clean => ?_, fun clean => ?_, fun replaced => last.kept (first.kept replaced),
    fun replaced => ?_⟩
  · obtain ⟨middle, same⟩ := last.definition clean
    obtain ⟨start, before⟩ := first.definition middle
    exact ⟨start, same.trans before⟩
  · obtain ⟨middle, same⟩ := last.mapping clean
    obtain ⟨start, before⟩ := first.mapping middle
    exact ⟨start, same.trans before⟩
  · cases dirty : c.mappingDirty with
    | true => exact .inr rfl
    | false =>
      have clean := (last.mapping dirty).1
      rcases last.due replaced with middle | marked
      · rcases first.due middle with start | marked
        · exact .inl start
        · rw [clean] at marked; cases marked
      · rw [dirty] at marked; cases marked

/-- A change that touches neither mark nor the mapping, and the definition in its values only. -/
private theorem noted_of_outline {a b : Agent} (definition : b.definition.outline = a.definition.outline)
    (mapping : b.mapping = a.mapping) (dirty : b.definitionDirty = a.definitionDirty)
    (due : b.mappingDirty = a.mappingDirty) (replaced : b.mappingReplaced = a.mappingReplaced) :
    Noted a b :=
  ⟨fun clean => ⟨dirty ▸ clean, definition⟩, fun clean => ⟨due ▸ clean, mapping⟩,
    fun marked => replaced.trans marked, fun marked => .inl (replaced ▸ marked)⟩

private theorem noted_of_definitionDirty {a b : Agent} (dirty : b.definitionDirty = true)
    (mapping : b.mapping = a.mapping) (due : b.mappingDirty = a.mappingDirty)
    (replaced : b.mappingReplaced = a.mappingReplaced) : Noted a b :=
  ⟨fun clean => absurd (dirty.symm.trans clean) (by simp), fun clean => ⟨due ▸ clean, mapping⟩,
    fun marked => replaced.trans marked, fun marked => .inl (replaced ▸ marked)⟩

private theorem noted_of_mappingDirty {a b : Agent} (definition : b.definition = a.definition)
    (dirty : b.definitionDirty = a.definitionDirty) (due : b.mappingDirty = true)
    (kept : a.mappingReplaced = true → b.mappingReplaced = true) : Noted a b :=
  ⟨fun clean => ⟨dirty ▸ clean, by rw [definition]⟩,
    fun clean => absurd (due.symm.trans clean) (by simp), kept, fun _ => .inr due⟩

theorem noted_of_change {a b : Agent} (change : Change a b) : Noted a b := by
  cases change with
  | create done | remove done =>
    obtain ⟨_, -, rfl⟩ := map_eq_ok.mp done
    exact noted_of_definitionDirty rfl rfl rfl rfl
  | loadDefinition done =>
    obtain ⟨_, -, rfl⟩ := map_eq_ok.mp done
    exact noted_of_definitionDirty rfl rfl rfl rfl
  | write done => exact noted_of_outline (outline_of_write done) rfl rfl rfl rfl
  | muteOutput done =>
    unfold Agent.setOutputMuted at done
    split at done
    next set =>
      cases done
      exact noted_of_outline (outline_of_setOutputMuted set) rfl rfl rfl rfl
    next => cases done
  | loadMapping done =>
    obtain ⟨_, -, rfl⟩ := map_eq_ok.mp done
    exact noted_of_mappingDirty rfl rfl rfl fun _ => rfl
  | clearMapping => exact noted_of_mappingDirty rfl rfl rfl fun _ => rfl
  | addElement done =>
    obtain ⟨_, -, same⟩ := map_eq_ok.mp done
    cases same
    exact noted_of_mappingDirty rfl rfl rfl fun marked => marked
  | removeElement done | removeElementById done =>
    obtain ⟨_, -, rfl⟩ := map_eq_ok.mp done
    exact noted_of_mappingDirty rfl rfl rfl fun marked => marked
  | manner => exact noted_of_outline rfl rfl rfl rfl rfl

theorem noted_of_changes {a b : Agent} (changes : Changes a b) : Noted a b := by
  induction changes with
  | refl => exact .refl a
  | tail _ change ih => exact ih.trans (noted_of_change change)

end Proofs.AgentChanges
end PeerMesh
