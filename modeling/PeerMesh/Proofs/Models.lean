import PeerMesh.Proofs.Definitions
import PeerMesh.Proofs.HostRuns
import PeerMesh.Proofs.Mappings

/-! The models of agents are sound. A new agent has nothing that could be wrong, and no change, by
whomever, brings in anything that its document would not bring back. -/

namespace PeerMesh

structure Agent.Sound (a : Agent) : Prop where
  named : Name.sanitize a.name = a.name
  definition : a.definition.Sound
  mapping : a.mapping.Sound

namespace Proofs.Models
open AgentChanges HostRuns Outcomes

variable {a b : Agent}

theorem sound_new (name : String) (permitted : Bool) :
    Agent.Sound { Agent.new (Name.sanitize name) with canBeFrozen := permitted } where
  named := Names.sanitize_sanitize name
  definition := Definitions.sound_new (Names.sanitize_sanitize name) "" ""
  mapping := Mappings.sound_new (Name.sanitize name) "" ""

/-- A definition that is loaded takes the agent's name. -/
private theorem sound_rename {d : Definition} (sound : d.Sound) {name : String}
    (named : Name.sanitize name = name) : Definition.Sound { d with name := name } := by
  have same (kind : SlotKind) (key : String) :
      d.get? kind key = Definition.get? { d with name := name } kind key := by
    cases kind <;> rfl
  exact ⟨named, fun found => sound.slots ((same _ _).trans found),
    fun one two => sound.apart ((same _ _).trans one) ((same _ _).trans two)⟩

theorem sound_of_change (change : Change a b) (sound : a.Sound) : b.Sound := by
  cases change with
  | create done =>
    obtain ⟨⟨d, slot⟩, created, rfl⟩ := map_eq_ok.mp done
    exact ⟨sound.named, Definitions.sound_of_create sound.definition created, sound.mapping⟩
  | remove done =>
    obtain ⟨⟨d, slot⟩, removed, rfl⟩ := map_eq_ok.mp done
    exact ⟨sound.named, Definitions.sound_of_remove sound.definition removed, sound.mapping⟩
  | write done => exact ⟨sound.named, Definitions.sound_of_write sound.definition done, sound.mapping⟩
  | muteOutput done =>
    unfold Agent.setOutputMuted at done
    split at done
    next set =>
      cases done
      exact ⟨sound.named, Definitions.sound_of_setOutputMuted sound.definition set, sound.mapping⟩
    next => cases done
  | loadDefinition done =>
    obtain ⟨d, read, rfl⟩ := map_eq_ok.mp done
    exact ⟨sound.named, sound_rename (Definitions.sound_of_ofText read) sound.named, sound.mapping⟩
  | loadMapping done =>
    obtain ⟨m, read, rfl⟩ := map_eq_ok.mp done
    exact ⟨sound.named, sound.definition, Mappings.sound_of_ofText read⟩
  | clearMapping => exact ⟨sound.named, sound.definition, Mappings.sound_clear _⟩
  | addElement done =>
    obtain ⟨⟨m, id⟩, added, same⟩ := map_eq_ok.mp done
    cases same
    exact ⟨sound.named, sound.definition, Mappings.sound_of_add sound.mapping added⟩
  | removeElement done =>
    obtain ⟨⟨m, e⟩, removed, rfl⟩ := map_eq_ok.mp done
    exact ⟨sound.named, sound.definition, Mappings.sound_of_remove sound.mapping removed⟩
  | removeElementById done =>
    obtain ⟨⟨m, e⟩, removed, rfl⟩ := map_eq_ok.mp done
    exact ⟨sound.named, sound.definition, Mappings.sound_of_removeById sound.mapping removed⟩
  | manner => exact ⟨sound.named, sound.definition, sound.mapping⟩

theorem sound_of_evolves {fires : Prop} (evolves : Evolves fires a b) (sound : a.Sound) : b.Sound := by
  induction evolves with
  | refl => exact sound
  | tail _ evolution ih =>
    cases evolution with
    | change change => exact sound_of_change change ih
    | announceDefinition | announceMapping => exact ⟨ih.named, ih.definition, ih.mapping⟩

/-- Whatever hosts and peers have done to an agent. -/
theorem sound_of_reachable (reachable : Reachable a) : a.Sound := by
  obtain ⟨name, permitted, evolves⟩ := reachable
  exact sound_of_evolves evolves (sound_new name permitted)

end Proofs.Models
end PeerMesh
