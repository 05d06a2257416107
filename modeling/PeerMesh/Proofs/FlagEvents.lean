import PeerMesh.Proofs.SteadyFlags

/-! Who may set the flags of an agent, and what its host is told of them. The host sets them by edits
and the peers by orders, and the two are asked for permission by rules of their own. Whatever else goes
on, the host can tell from the events alone how a flag is.

An edit of the host is one turn: the flag is set and the event goes out together, and no other turn comes
between the two. -/

namespace PeerMesh

def Flag.events (flag : Flag) (effects : List Effect) : List Bool :=
  (Effect.flags effects).filterMap fun (other, on) => if other = flag then some on else none

/-- Whether what is asked in a turn, by the host or by a peer, is refused. -/
def Host.rejects (h : Host) : Turn → Bool
  | .edit e => !(h.edit e).isOk
  | .happen s (.presence (.whisper peer _ frames)) =>
    match h.reactor?, Command.ofFrames frames with
    | some r, .ok command => !(r.execute s peer (r.peerName peer) command).outcome.isOk
    | _, _ => false
  | _ => false

namespace Proofs.FlagEvents
open HostRuns Notices SteadyFlags

variable {h : Host} {flag : Flag} {on : Bool}

theorem events_append (flag : Flag) (one two : List Effect) :
    flag.events (one ++ two) = flag.events one ++ flag.events two := by
  rw [Flag.events, flags_append, List.filterMap_append]
  rfl

theorem events_of_flags {effects : List Effect} (only : Effect.flags effects = [(flag, on)])
    (other : Flag) : other.events effects = if flag = other then [on] else [] := by
  rw [Flag.events, only]
  split
  next same => exact List.filterMap_cons_some (if_pos same)
  next apart => exact List.filterMap_cons_none (if_neg apart)

theorem flag?_event (flag : Flag) (on : Bool) : (flag.event on).flag? = some (flag, on) := by
  cases flag <;> rfl

theorem flags_notify (flag : Flag) (on : Bool) (effects : List Effect) :
    Effect.flags (.notify (flag.event on) :: effects) = (flag, on) :: Effect.flags effects :=
  List.filterMap_cons_some (flag?_event flag on)

/-- How a turn is answered that is to set a flag. -/
inductive Answer (h : Host) (t : Turn) (flag : Flag) (on : Bool) : Prop where
  /-- Nothing comes of it but a log. -/
  | fruitless (reason : h.agent.permits t.isEdit flag on = false ∨ h.agent.flag flag = on ∨
        ¬(t.isEdit = true ∨ h.isRunning = true))
      (same : (h.turn t).host = h) (logged : ∀ e ∈ (h.turn t).effects, ∃ entry, e = .log entry)
  | granted (heard : t.isEdit = true ∨ h.isRunning = true)
      (permitted : h.agent.permits t.isEdit flag on = true) (turned : h.agent.flag flag = !on)
      (agent : (h.turn t).host.agent = h.agent.setFlag flag on)
      (told : Effect.flags (h.turn t).effects = [(flag, on)])

/-- A flag is set by an edit or by an order that is whispered. -/
theorem cases_of_sets {t : Turn} (sets : t.sets? = some (flag, on)) :
    (∃ e : Edit, e.flag? = some (flag, on) ∧ t = .edit e) ∨
      ∃ (s : Surroundings) (sender name : String) (frames : List Bytes) (order : Order),
        order.flag? = some (flag, on) ∧ Command.ofFrames frames = .ok (.order order) ∧
          t = .happen s (.presence (.whisper sender name frames)) := by
  unfold Turn.sets? at sets
  split at sets
  next e => exact .inl ⟨e, sets, rfl⟩
  next s sender name frames =>
    split at sets
    next order read => exact .inr ⟨s, sender, name, frames, order, sets, read, rfl⟩
    next => cases sets
  next => cases sets

private theorem answer_nothing {t : Turn} (turn : h.turn t = ⟨h, []⟩)
    (reason : h.agent.permits t.isEdit flag on = false ∨ h.agent.flag flag = on ∨
      ¬(t.isEdit = true ∨ h.isRunning = true)) : Answer h t flag on := by
  refine .fruitless reason (by rw [turn]) ?_
  rw [turn]
  exact fun _ member => by cases member

private theorem answer_edit {e : Edit} (sets : e.flag? = some (flag, on)) (h : Host) :
    Answer h (.edit e) flag on := by
  have applied := apply_of_flag sets h.agent
  split at applied
  next permitted =>
    split at applied
    next same => exact answer_nothing (turn_unchanged applied) (.inr (.inl same))
    next differs =>
      have silent := flags_edit applied
      exact .granted (.inl rfl) permitted (Bool.eq_not.mpr differs) (agent_edit applied)
        (silent.trans (List.filterMap_cons_some (flag?_event flag on)))
  next refused => exact answer_nothing (turn_refused applied) (.inl (eq_false_of_ne_true refused))

private theorem answer_order {order : Order} {frames : List Bytes} {history : List HostStep}
    (sets : order.flag? = some (flag, on)) (read : Command.ofFrames frames = .ok (.order order))
    (run : Run h history) (s : Surroundings) (sender name : String) :
    Answer h (.happen s (.presence (.whisper sender name frames))) flag on := by
  cases running : h.reactor? with
  | none =>
    have turn : h.turn (.happen s (.presence (.whisper sender name frames))) = ⟨h, []⟩ := by
      simp only [Host.turn, Host.react, running]
    have unheard : ¬(false = true ∨ h.isRunning = true) := by simp [Host.isRunning, running]
    exact answer_nothing turn (.inr (.inr unheard))
  | some r =>
    have alive : h.isRunning = true := by rw [Host.isRunning, running]; rfl
    have calm := run.stopReason running
    have executed : r.execute s sender (r.peerName sender) (.order order) = _ :=
      executeOrder_of_flag sets s sender (r.peerName sender) r
    have idle (reason : r.agent.permits false flag on = false ∨ r.agent.flag flag = on)
        (idles : (r.execute s sender (r.peerName sender) (.order order)).reaction = r.idle) :
        Answer h (.happen s (.presence (.whisper sender name frames))) flag on := by
      obtain ⟨log, turn⟩ := turn_whisper running read (by rw [idles]; exact calm) name
      rw [idles, Reactor.idle, Reactor.tell, ← activity_of_reactor? running] at turn
      rw [← agent_of_reactor? running] at reason
      refine .fruitless (reason.imp_right .inl) (by rw [turn]) ?_
      rw [turn]
      exact List.forall_mem_singleton.mpr ⟨log, rfl⟩
    split at executed
    next permitted =>
      dsimp only [Execution.accepted] at executed
      split at executed
      next same => exact idle (.inr same) (by rw [executed])
      next differs =>
        obtain ⟨log, turn⟩ := turn_whisper running read (by rw [executed]; exact calm) name
        rw [executed] at turn
        rw [← agent_of_reactor? running] at permitted differs
        refine .granted (.inr alive) permitted (Bool.eq_not.mpr differs) ?_ ?_
        · rw [turn, agent_of_reactor? running]
          rfl
        · rw [turn]
          refine (flags_notify flag on _).trans (congrArg _ (flags_of_silent ?_))
          exact List.forall_mem_append.mpr ⟨silent_shoutNotice _ _, List.forall_mem_singleton.mpr rfl⟩
    next refused => exact idle (.inl (eq_false_of_ne_true refused)) (by rw [executed]; rfl)

theorem answer_of_sets {t : Turn} {history : List HostStep} (sets : t.sets? = some (flag, on))
    (run : Run h history) : Answer h t flag on := by
  rcases cases_of_sets sets with ⟨e, edits, rfl⟩ | ⟨s, sender, name, frames, order, orders, read, rfl⟩
  · exact answer_edit edits h
  · exact answer_order orders read run s sender name

theorem rejects_whisper {r : Reactor} {frames : List Bytes} {command : Command}
    (running : h.reactor? = some r) (read : Command.ofFrames frames = .ok command) (s : Surroundings)
    (sender name : String) :
    h.rejects (.happen s (.presence (.whisper sender name frames))) =
      !(r.execute s sender (r.peerName sender) command).outcome.isOk := by
  unfold Host.rejects
  dsimp only
  rw [running, read]

/-- The host and a running reactor refuse what is not permitted, and nothing else. -/
theorem rejects_of_sets {t : Turn} (sets : t.sets? = some (flag, on))
    (heard : t.isEdit = true ∨ h.isRunning = true) :
    h.rejects t = !h.agent.permits t.isEdit flag on := by
  rcases cases_of_sets sets with ⟨e, edits, rfl⟩ | ⟨s, sender, name, frames, order, orders, read, rfl⟩
  · change (!(h.edit e).isOk) = !h.agent.permits true flag on
    rw [Host.edit, apply_of_flag edits]
    cases h.agent.permits true flag on <;> rfl
  · obtain ⟨r, running⟩ := Option.isSome_iff_exists.mp (heard.resolve_left Bool.false_ne_true)
    change _ = !h.agent.permits false flag on
    rw [rejects_whisper running read, Reactor.execute, executeOrder_of_flag orders,
      agent_of_reactor? running]
    cases r.agent.permits false flag on <;> rfl

variable {history : List HostStep}

/-- The host is told of a flag exactly when it changes, and how it is then. -/
theorem events_of_turn (run : Run h history) (t : Turn) (flag : Flag) :
    flag.events (h.turn t).effects =
      if h.agent.flag flag = (h.turn t).host.agent.flag flag then []
      else [(h.turn t).host.agent.flag flag] := by
  have unchanged (same : (h.turn t).host.agent.flag flag = h.agent.flag flag)
      (silent : Effect.flags (h.turn t).effects = []) : flag.events (h.turn t).effects =
        if h.agent.flag flag = (h.turn t).host.agent.flag flag then []
        else [(h.turn t).host.agent.flag flag] := by
    rw [if_pos same.symm]
    exact congrArg _ silent
  cases sets : t.sets? with
  | none =>
    have steady : Steady h t := steady_of_unset sets
    exact unchanged (steady.flags flag) steady.silent
  | some set =>
    obtain ⟨other, on⟩ := set
    cases answer_of_sets sets run with
    | fruitless _ same logged =>
      refine unchanged (by rw [same]) (flags_of_silent fun e member => ?_)
      obtain ⟨entry, rfl⟩ := logged e member
      rfl
    | granted _ _ turned agent told =>
      rw [events_of_flags told, agent, flag_setFlag]
      split
      next same =>
        subst same
        rw [if_neg (by simp [turned])]
      next => exact (if_pos rfl).symm

/-- What the host is told of a flag in some turns leads from how the flag was to how it is. -/
theorem events_of_turns (turns : List Turn) (run : Run h history) (flag : Flag) :
    (h.agent.flag flag :: flag.events ((h.trace turns).flatMap (·.effects))).IsChain (· ≠ ·) ∧
      (flag.events ((h.trace turns).flatMap (·.effects))).getLastD (h.agent.flag flag) =
        (h.after turns).agent.flag flag := by
  induction turns generalizing h history with
  | nil => exact ⟨.singleton _, rfl⟩
  | cons t turns ih =>
    obtain ⟨chain, last⟩ := ih (run.turn t)
    rw [Host.trace, List.flatMap_cons, events_append, events_of_turn run t flag]
    split
    next same =>
      rw [← same] at chain last
      exact ⟨chain, last⟩
    next changed =>
      refine ⟨.cons_cons changed chain, ?_⟩
      rw [List.singleton_append, List.getLastD_cons]
      exact last

/-- What was changed about a flag was set, as whoever set it was permitted. -/
theorem permitted_of_changed {t : Turn} (run : Run h history)
    (changed : (h.turn t).host.agent.flag flag ≠ h.agent.flag flag) :
    h.agent.permits t.isEdit flag ((h.turn t).host.agent.flag flag) = true := by
  cases sets : t.sets? with
  | none => exact absurd ((steady_of_unset sets).flags flag) changed
  | some set =>
    obtain ⟨other, on⟩ := set
    cases answer_of_sets sets run with
    | fruitless _ same => exact absurd (by rw [same]) changed
    | granted _ permitted _ agent =>
      rw [agent, flag_setFlag] at changed ⊢
      split at changed
      next same =>
        subst same
        rwa [if_pos rfl]
      next => exact absurd rfl changed

/-- Only its host gives an agent the permission to be frozen, or takes it. -/
theorem canBeFrozen_turn (run : Run h history) (t : Turn) :
    (h.turn t).host.agent.canBeFrozen = t.permits?.getD h.agent.canBeFrozen := by
  cases sets : t.sets? with
  | none => exact (steady_of_unset sets).canBeFrozen
  | some set =>
    obtain ⟨flag, on⟩ := set
    have plain : t.permits? = none := by
      cases t with
      | edit e =>
        cases e with
        | permitFreezing => cases sets
        | _ => rfl
      | _ => rfl
    rw [plain, Option.getD_none]
    cases answer_of_sets sets run with
    | fruitless _ same => rw [same]
    | granted _ _ _ agent =>
      rw [agent]
      cases flag <;> rfl

/-- In whatever turns an agent is muted and frozen, by its host and by its peers: what the host is told of
a flag alternates, begins with its being set, and ends with how the flag is. An agent is frozen only
while that is permitted, by a permission that only its host gives and takes, and without it no peer
freezes or unfreezes it. Of what is refused, or would change nothing, neither the host nor the peers are
told; anything else that is asked sets the flag, and the host is told so once. Each operation is taken
whole, its flag and its event as one step; what another thread might do between the two is left out. -/
theorem flags_are_permitted_and_told (name : String) (config : Config) (nodeId : String)
    (turns : List Turn) :
    let h := (Host.new name config nodeId).after turns
    let effects := ((Host.new name config nodeId).trace turns).flatMap (·.effects)
    (∀ flag : Flag, (false :: flag.events effects).IsChain (· ≠ ·) ∧
      (flag.events effects).getLastD false = h.agent.flag flag) ∧
    ∀ t : Turn,
      (h.agent.frozen = false → (h.turn t).host.agent.frozen = true → h.agent.canBeFrozen = true) ∧
      (t.isEdit = false → h.agent.canBeFrozen = false →
        (h.turn t).host.agent.frozen = h.agent.frozen) ∧
      (h.turn t).host.agent.canBeFrozen = t.permits?.getD h.agent.canBeFrozen ∧
      ∀ flag on, t.sets? = some (flag, on) →
        (t.isEdit = true ∨ h.isRunning = true →
          h.rejects t = !h.agent.permits t.isEdit flag on) ∧
        (h.rejects t = true ∨ h.agent.flag flag = on →
          (h.turn t).host = h ∧ ∀ e ∈ (h.turn t).effects, ∃ entry, e = .log entry) ∧
        (h.rejects t = false → h.agent.flag flag ≠ on → t.isEdit = true ∨ h.isRunning = true →
          (h.turn t).host.agent = h.agent.setFlag flag on ∧
            flag.events (h.turn t).effects = [on]) := by
  intro h effects
  have start : Run (Host.new name config nodeId) [] := .new name config nodeId
  obtain ⟨history, run⟩ : ∃ history, Run h history := run_after turns start
  refine ⟨fun flag => ?_, fun t => ⟨fun thawed froze => ?_, fun peer barred => ?_,
    canBeFrozen_turn run t, fun flag on sets => ⟨rejects_of_sets sets, ?_, ?_⟩⟩⟩
  · have unset : (Host.new name config nodeId).agent.flag flag = false := by cases flag <;> rfl
    have led := events_of_turns turns start flag
    rwa [unset] at led
  · have changed : (h.turn t).host.agent.flag .frozen ≠ h.agent.flag .frozen := by
      simp [Agent.flag, thawed, froze]
    have permitted := permitted_of_changed run changed
    rwa [Agent.flag, froze, permits_freezing] at permitted
  · by_contra changed
    have permitted : h.agent.permits t.isEdit .frozen _ = true := permitted_of_changed run changed
    rw [peer, permits_peer, barred] at permitted
    cases permitted
  · intro pointless
    cases answer_of_sets sets run with
    | fruitless _ same logged => exact ⟨same, logged⟩
    | granted heard permitted turned =>
      rcases pointless with rejected | already
      · rw [rejects_of_sets sets heard, permitted] at rejected
        cases rejected
      · exact absurd (turned.symm.trans already) (by simp)
  · intro accepted differs heard
    cases answer_of_sets sets run with
    | fruitless reason =>
      rcases reason with barred | already | unheard
      · rw [rejects_of_sets sets heard, barred] at accepted
        cases accepted
      · exact absurd already differs
      · exact absurd heard unheard
    | granted _ _ _ agent told => exact ⟨agent, (events_of_flags told flag).trans (if_pos rfl)⟩

private def crewOrders (order : Order) : Turn :=
  .happen .calm (.presence (.whisper "c" "crew" (Command.order order).toFrames))

/-- The crew tries to freeze a lathe, and is then permitted to. -/
private def permitting : List Turn := [
  .start .calm "" "host" ⟨"3", "lathe", none⟩ (.ok ⟨4000, none⟩), crewOrders .freeze,
  .edit (.mute true), .edit (.permitFreezing true)]

/-- Once the lathe is frozen, the permission is taken back. -/
private def barring : List Turn :=
  permitting ++ [crewOrders .freeze, crewOrders .unmuteAll, .edit (.permitFreezing false)]

private def lathe (turns : List Turn) : Host := (Host.new "lathe" Config.empty "l").after turns

private def latheEffects (turns : List Turn) : List Effect :=
  ((Host.new "lathe" Config.empty "l").trace turns).flatMap (·.effects)

private theorem lathe_permitted :
    (lathe permitting).agent.frozen = false ∧
      ((lathe permitting).turn (crewOrders .freeze)).host.agent.frozen = true ∧
      (lathe permitting).rejects (crewOrders .freeze) = false ∧
      (lathe permitting).isRunning = true := by
  decide +kernel

private theorem lathe_barred :
    (lathe barring).agent.frozen = true ∧ (lathe barring).agent.canBeFrozen = false ∧
      (lathe barring).rejects (crewOrders .unfreeze) = true ∧
      (lathe barring).rejects (.edit (.freeze false)) = false ∧
      Flag.muted.events (latheEffects barring) = [true, false] := by
  decide +kernel

theorem lathe_is_freed_by_its_host :
    ((lathe permitting).agent.frozen = false ∧
      ((lathe permitting).turn (crewOrders .freeze)).host.agent.frozen = true ∧
      (lathe permitting).agent.canBeFrozen = true ∧
      Flag.frozen.events ((lathe permitting).turn (crewOrders .freeze)).effects = [true]) ∧
    ((lathe barring).agent.frozen = true ∧
      (Flag.frozen.events (latheEffects barring)).getLastD false = true ∧
      (false :: Flag.muted.events (latheEffects barring)).IsChain (· ≠ ·) ∧
      Flag.muted.events (latheEffects barring) = [true, false]) ∧
    (((lathe barring).turn (crewOrders .unfreeze)).host.agent.frozen = true ∧
      (lathe barring).rejects (crewOrders .unfreeze) = true ∧
      ((lathe barring).turn (crewOrders .unfreeze)).host = lathe barring) ∧
    (((lathe barring).turn (.edit (.freeze false))).host.agent.frozen = false ∧
      Flag.frozen.events ((lathe barring).turn (.edit (.freeze false))).effects = [false]) := by
  obtain ⟨thawed, freezes, accepted, alive⟩ := lathe_permitted
  obtain ⟨frozen, barred, rejected, freed, events⟩ := lathe_barred
  have read (order : Order) :
      Command.ofFrames (Command.order order).toFrames = .ok (.order order) :=
    CommandCodec.ofFrames_toFrames trivial
  have sets {order : Order} : (crewOrders order).sets? = order.flag? := by
    simp only [crewOrders, Turn.sets?, read]
  have first := (flags_are_permitted_and_told "lathe" Config.empty "l" permitting).2
    (crewOrders .freeze)
  obtain ⟨led, next⟩ := flags_are_permitted_and_told "lathe" Config.empty "l" barring
  refine ⟨⟨thawed, freezes, first.1 thawed freezes, ?_⟩,
    ⟨frozen, (led .frozen).2.trans frozen, (led .muted).1, events⟩, ⟨?_, rejected, ?_⟩, ?_⟩
  · have differs : (lathe permitting).agent.flag .frozen ≠ true := by
      change ¬(lathe permitting).agent.frozen = true
      rw [thawed]
      exact Bool.false_ne_true
    exact ((first.2.2.2 .frozen true sets).2.2 accepted differs (.inr alive)).2
  · exact ((next (crewOrders .unfreeze)).2.1 rfl barred).trans frozen
  · exact (((next (crewOrders .unfreeze)).2.2.2 .frozen false sets).2.1 (.inl rejected)).1
  · have differs : (lathe barring).agent.flag .frozen ≠ false := by
      change ¬(lathe barring).agent.frozen = false
      rw [frozen]
      exact Bool.false_ne_true.symm
    obtain ⟨agent, told⟩ :=
      ((next (.edit (.freeze false))).2.2.2 .frozen false rfl).2.2 freed differs (.inl rfl)
    exact ⟨congrArg Agent.frozen agent, told⟩

end Proofs.FlagEvents
end PeerMesh
