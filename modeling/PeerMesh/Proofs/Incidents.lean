import PeerMesh.Proofs.HostRuns

/-! What a running reactor meets with, one incident after the other: stimuli, each in surroundings of
its own, and edits by its host. Every reactor of a run has met with a series of incidents since it was
started. -/

namespace PeerMesh

inductive Incident where
  | happen (s : Surroundings) (stimulus : Stimulus)
  | edit (e : Edit)

namespace Reactor

/-- An edit goes into the reactor's agent, or is refused without any change. -/
def edit (r : Reactor) (e : Edit) : Reaction :=
  match e.apply r.agent with
  | .ok edited => (r.setAgent edited.agent).tell
      ((edited.published.map Effect.publish).toList ++ edited.told.map Effect.notify)
  | .error _ => r.idle

def meet (r : Reactor) : Incident → Reaction
  | .happen s stimulus => r.react s stimulus
  | .edit e => r.edit e

def meetAll (r : Reactor) (incidents : List Incident) : Reaction :=
  r.forEach incidents fun incident r => r.meet incident

end Reactor

namespace Proofs.Incidents
open HostRuns ReactorMoves

variable {h : Host} {r after : Reactor}

theorem meetAll_concat (r : Reactor) (incidents : List Incident) (incident : Incident) :
    r.meetAll (incidents ++ [incident]) =
      (r.meetAll incidents).andThen fun r => r.meet incident :=
  forEach_concat _ incidents incident r

/-- An edit changes nothing but the agent. -/
theorem edit_cases (r : Reactor) (e : Edit) : ∃ (agent : Agent) (published : Option DataMessage)
    (told : List HostEvent), r.edit e = (r.setAgent agent).tell
      ((published.map Effect.publish).toList ++ told.map Effect.notify) := by
  unfold Reactor.edit
  split
  next edited _ => exact ⟨edited.agent, edited.published, edited.told, rfl⟩
  next => exact ⟨r.agent, none, [], rfl⟩

/-- A step that leaves the reactor alone, or in which it meets with one incident. -/
def Meets (r : Reactor) (step : HostStep) (after : Reactor) : Prop :=
  (after = r ∧ step.effects = []) ∨ ∃ incident, r.meet incident = ⟨after, step.effects⟩

private theorem meets_react {s : Surroundings} {stimulus : Stimulus} (before : h.reactor? = some r)
    (running : (h.react s stimulus).host.reactor? = some after) :
    Meets r (h.react s stimulus) after := by
  have reacted : h.react s stimulus = h.settle (r.react s stimulus) := by
    rw [Host.react, before]
  rw [reacted] at running ⊢
  obtain ⟨settled, rfl⟩ := reactor?_settle running
  rw [settled]
  exact .inr ⟨.happen s stimulus, rfl⟩

private theorem meets_take {s : Surroundings} (before : h.reactor? = some r)
    (running : (h.takeOne s).host.reactor? = some after) : Meets r (h.takeOne s) after := by
  unfold Host.takeOne at running ⊢
  split at running
  · exact .inl ⟨Option.some.inj (running.symm.trans before), rfl⟩
  · exact meets_react before running

private theorem meets_edit {e : Edit} (before : h.reactor? = some r)
    (running : (h.turn (.edit e)).host.reactor? = some after) : Meets r (h.turn (.edit e)) after := by
  cases applied : e.apply r.agent with
  | error fault =>
    rw [turn_edit_refused before applied] at running ⊢
    exact .inl ⟨Option.some.inj (running.symm.trans before), rfl⟩
  | ok edited =>
    rw [turn_edit before applied] at running ⊢
    obtain rfl : r.setAgent edited.agent = after := Option.some.inj running
    refine .inr ⟨.edit e, ?_⟩
    rw [Reactor.meet, Reactor.edit, applied]
    rfl

/-- A turn that goes on with a reactor lets it meet with one incident at most. -/
theorem meets_turn {t : Turn} (before : h.reactor? = some r)
    (running : (h.turn t).host.reactor? = some after) : Meets r (h.turn t) after := by
  cases t with
  | edit e => exact meets_edit before running
  | start s temporary hostAddress process publisher =>
    have refused : h.turn (.start s temporary hostAddress process publisher) = ⟨h, []⟩ := by
      simp only [Host.turn, Host.start, activity_of_reactor? before]
      rfl
    rw [refused] at running ⊢
    exact .inl ⟨Option.some.inj (running.symm.trans before), rfl⟩
  | request control =>
    rw [Host.reactor?, activity_turn_request, ← Host.reactor?] at running
    exact .inl ⟨Option.some.inj (running.symm.trans before), rfl⟩
  | take s => exact meets_take before running
  | happen s stimulus =>
    cases stimulus with
    | control control => exact .inl ⟨Option.some.inj (running.symm.trans before), rfl⟩
    | _ => exact meets_react before running

/-- Every reactor of a run has met with some incidents since it was started. -/
theorem incidents_of_run {history : List HostStep} (run : Run h history)
    (running : h.reactor? = some r) :
    ∃ started incidents, Fresh started ∧ (started.meetAll incidents).reactor = r := by
  induction run generalizing r with
  | new => cases running
  | turn run t ih =>
    rcases turn_cases running with ⟨_, _, before, same, _⟩ | fresh
    · obtain ⟨started, incidents, fresh, rfl⟩ := ih same
      rcases meets_turn same running with ⟨rfl, -⟩ | ⟨incident, met⟩
      · exact ⟨started, incidents, fresh, rfl⟩
      · refine ⟨started, incidents ++ [incident], fresh, ?_⟩
        rw [meetAll_concat]
        exact congrArg Reaction.reactor met
    · exact ⟨r, [], fresh, rfl⟩

end Proofs.Incidents
end PeerMesh
