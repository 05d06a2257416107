import PeerMesh.Proofs.CommandCodec
import PeerMesh.Proofs.DisplayedValues
import PeerMesh.Proofs.Models
import PeerMesh.Proofs.SlotOperations

/-! What a peer stores in a slot from the text that shows a value. The text travels behind the name of
the slot, and is read at the type of the slot: the value that is stored is the one that was shown. -/

namespace PeerMesh.Proofs.RemoteWrites
open DisplayedValues HostRuns Outcomes

variable {a : Agent} {r : Reactor} {kind : SlotKind} {name : String} {slot : Slot} {value : Value}

/-- The line of a command ends a slot's name where it should. -/
theorem carried_set (sound : slot.Sound name) (text : String) :
    Command.ofFrames (Command.set kind slot.name text).toFrames =
      .ok (Command.set kind slot.name text) := by
  have word : Words.Word slot.name := Names.word_of_isClean (sound.named ▸ sound.clean)
  refine CommandCodec.ofFrames_toFrames ⟨word.1, fun space => ?_⟩
  have blank := word.2 ' ' space
  cases blank

/-- The slot takes the value that is shown, and the rest of the definition stays. -/
theorem setText_display (found : a.definition.get? kind name = some slot)
    (typed : value.type = slot.type) (fits : value.size ≤ Limits.value) (telling : value.Telling) :
    ∃ definition, a.setText kind name value.display = .ok ({ a with definition := definition }, value) ∧
      a.definition.Puts definition kind name (some { slot with value := value }) := by
  have parsed : Value.parse slot.type value.display = .ok value := typed ▸ parse_display telling
  have converted : value.convertTo slot.type = .ok value := typed ▸ Values.convertTo_type value
  have written := write_eq_ok.mpr ⟨slot, found, converted, fits, rfl⟩
  refine ⟨_, ?_, SlotOperations.puts_insert a.definition kind name _⟩
  simp only [Agent.setText, found, parsed, written, Except.map]

/-- Whatever hosts and peers have done to an agent, a peer that sets a slot to the text of a value of
its type gets that value stored, and changes nothing else of the agent or of the reactor. -/
theorem remote_set_stores_displayed_value (reachable : Reachable r.agent)
    (found : r.agent.definition.get? kind name = some slot) (typed : value.type = slot.type)
    (fits : value.size ≤ Limits.value) (telling : value.Telling)
    (s : Surroundings) (peer peerName : String) :
    ∃ command definition remark,
      Command.ofFrames (Command.set kind slot.name value.display).toFrames = .ok command ∧
      (r.execute s peer peerName command).outcome = .ok remark ∧
      (r.execute s peer peerName command).reaction.reactor =
        r.setAgent { r.agent with definition := definition } ∧
      r.agent.definition.Puts definition kind slot.name (some { slot with value := value }) := by
  have sound : slot.Sound name := (Models.sound_of_reachable reachable).definition.slots found
  obtain rfl : slot.name = name := sound.named
  obtain ⟨definition, set, puts⟩ := setText_display found typed fits telling
  obtain ⟨remark, executed⟩ := Writes.set_of_setText set
  have executed : r.execute s peer peerName (.set kind slot.name value.display) = _ := executed
  refine ⟨_, definition, remark, carried_set sound value.display, ?_, ?_, puts⟩
  · rw [executed]
  · rw [executed]
    rfl

private def boardTurns : List Turn := [
  .edit (.create .parameter "note" .string (some (.string "hello"))),
  .start .calm "" "host" ⟨"1", "board", none⟩ (.ok ⟨4000, none⟩)]

private def board : Host := (Host.new "board" Config.empty "b").after boardTurns

/-- A note of nothing but blanks and a number sign arrives as it was written. -/
theorem board_keeps_note_of_blanks : ∃ (r : Reactor) (command : Command) (remark : Option Remark),
    board.reactor? = some r ∧
    Command.ofFrames (Command.set .parameter "note" " \n# ").toFrames = .ok command ∧
    (r.execute .calm "p" "peer" command).outcome = .ok remark ∧
    (r.execute .calm "p" "peer" command).reaction.reactor.agent.definition.get? .parameter "note" =
      some ⟨"note", .string, .string " \n# ", false⟩ := by
  obtain ⟨history, run⟩ : ∃ history, Run board history :=
    run_after boardTurns (.new "board" Config.empty "b")
  have starts : board.reactor?.isSome = true := by decide +kernel
  have there : board.agent.definition.get? .parameter "note" =
      some ⟨"note", .string, .string "hello", false⟩ := by decide +kernel
  obtain ⟨r, running⟩ := Option.isSome_iff_exists.mp starts
  have same : board.agent = r.agent := agent_of_reactor? running
  rw [same] at there
  have typed : (Value.string " \n# ").type = .string := rfl
  obtain ⟨command, definition, remark, read, accepted, stored, puts⟩ :=
    remote_set_stores_displayed_value (same ▸ run.reachable) there typed (by decide) trivial
      .calm "p" "peer"
  refine ⟨r, command, remark, running, read, accepted, ?_⟩
  rw [stored]
  exact (puts.slots .parameter "note").trans (if_pos ⟨rfl, rfl⟩)

end PeerMesh.Proofs.RemoteWrites
