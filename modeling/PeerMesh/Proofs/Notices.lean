import PeerMesh.Proofs.Audience

/-! Whether the peers show the flags of an agent as they are. When its host sets a flag, the notice
waits in the queue until the reactor takes it; when a peer orders a flag to be set, the notice goes out
at once. So an order overtakes what waits in the queue, and the peers are told last what was set
first. -/

namespace PeerMesh

def Edit.flag? : Edit → Option (Flag × Bool)
  | .mute muted => some (.muted, muted)
  | .freeze frozen => some (.frozen, frozen)
  | _ => none

def Order.flag? : Order → Option (Flag × Bool)
  | .muteAll => some (.muted, true)
  | .unmuteAll => some (.muted, false)
  | .freeze => some (.frozen, true)
  | .unfreeze => some (.frozen, false)
  | _ => none

def Agent.setFlag (a : Agent) (flag : Flag) (on : Bool) : Agent :=
  match flag with
  | .muted => { a with muted := on }
  | .frozen => { a with frozen := on }

def Flag.event : Flag → Bool → HostEvent
  | .muted, on => .muteChanged on
  | .frozen, on => .freezeChanged on

/-- Whether a flag may be set so, by the host of the agent or by a peer. Without the permission nobody
freezes an agent, and only its host unfreezes it. -/
def Agent.permits (a : Agent) (host : Bool) : Flag → Bool → Bool
  | .muted, _ => true
  | .frozen, on => a.canBeFrozen || host && !on

def Flag.waiting (flag : Flag) (queue : List Control) : List Bool :=
  queue.filterMap fun
    | .notice command => (Facet.flag flag).told command
    | _ => none

/-- The host sets a flag, a peer orders one to be set, or the reactor takes a notice. -/
inductive Turn.OfFlags : Turn → Prop where
  | edit {e : Edit} {flag : Flag} {on : Bool} (sets : e.flag? = some (flag, on)) :
      OfFlags (.edit e)
  | order {order : Order} {flag : Flag} {on : Bool} {frames : List Bytes}
      (sets : order.flag? = some (flag, on)) (read : Command.ofFrames frames = .ok (.order order))
      (s : Surroundings) (sender name : String) :
      OfFlags (.happen s (.presence (.whisper sender name frames)))
  | take (s : Surroundings) : OfFlags (.take s)

def Turn.isEdit : Turn → Bool
  | .edit _ => true
  | _ => false

namespace Host

def changes (flag : Flag) (h : Host) (t : Turn) : Bool :=
  (h.turn t).host.agent.flag flag != h.agent.flag flag

/-- A turn changes a flag by an order, while notices of it wait. -/
def overtakes (flag : Flag) (h : Host) (t : Turn) : Bool :=
  h.changes flag t && !t.isEdit && !(flag.waiting h.queue).isEmpty

/-- Whether the last notice of a flag to go out is not of how the flag is. A change by the host sets
that right, and so does an order that finds no notice waiting. An order that overtakes leaves the last
notice as it was, and turns the flag. -/
def overtaken (flag : Flag) : Host → Bool → List Turn → Bool
  | _, stale, [] => stale
  | h, stale, t :: turns =>
    (h.turn t).host.overtaken flag
      (if h.changes flag t then h.overtakes flag t && !stale else stale) turns

end Host

namespace Proofs.Notices
open Audience HostRuns

variable {h : Host} {r : Reactor} {flag other : Flag} {on : Bool} {a : Agent} {peer : String}

theorem flag_setFlag (a : Agent) (flag other : Flag) (on : Bool) :
    (a.setFlag flag on).flag other = if flag = other then on else a.flag other := by
  cases flag <;> cases other <;> rfl

theorem permits_peer (a : Agent) (on : Bool) : a.permits false .frozen on = a.canBeFrozen :=
  Bool.or_false _

theorem permits_freezing (a : Agent) (host : Bool) : a.permits host .frozen true = a.canBeFrozen := by
  simp [Agent.permits]

theorem waiting_append (one two : List Control) :
    flag.waiting (one ++ two) = flag.waiting one ++ flag.waiting two := List.filterMap_append

theorem waiting_cons (other : Flag) (on : Bool) (queue : List Control) :
    flag.waiting (.notice (.flag other on) :: queue) =
      (if other = flag then [on] else []) ++ flag.waiting queue := by
  change flag.waiting ([.notice (.flag other on)] ++ queue) = _
  rw [waiting_append]
  cases other <;> cases flag <;> rfl

theorem apply_of_flag {e : Edit} (sets : e.flag? = some (flag, on)) (a : Agent) :
    e.apply a =
      if a.permits true flag on then
        .ok (if a.flag flag = on then .silent a
          else .announced (a.setFlag flag on) (flag.event on) (.flag flag on))
      else .error .cannotBeFrozen := by
  cases e with
  | mute muted =>
    cases sets
    rfl
  | freeze frozen =>
    cases sets
    have permits : a.permits true .frozen on = !(on && !a.canBeFrozen) := by
      cases on <;> cases allowed : a.canBeFrozen <;> simp [Agent.permits, allowed]
    change a.freeze on = _
    unfold Agent.freeze
    rw [permits]
    cases on && !a.canBeFrozen with
    | true => rfl
    | false => exact (apply_ite Except.ok (a.frozen = on) _ _).symm
  | _ => cases sets

theorem executeOrder_of_flag {order : Order} (sets : order.flag? = some (flag, on)) (s : Surroundings)
    (sender name : String) (r : Reactor) :
    r.executeOrder s sender name order =
      if r.agent.permits false flag on then
        .accepted (if r.agent.flag flag = on then r.idle
          else (r.setAgent (r.agent.setFlag flag on)).tell (.notify (flag.event on) ::
            (r.setAgent (r.agent.setFlag flag on)).shoutNotice s (.flag flag on)))
      else .refused r .cannotBeFrozen := by
  have muted (on : Bool) : r.mute s on = .accepted (if r.agent.muted = on then r.idle
      else (r.setAgent (r.agent.setFlag .muted on)).tell (.notify (.muteChanged on) ::
        (r.setAgent (r.agent.setFlag .muted on)).shoutNotice s (.flag .muted on))) :=
    (apply_ite Execution.accepted (r.agent.muted = on) _ _).symm
  have frozen (on : Bool) : r.freeze s on = if r.agent.permits false .frozen on then
      .accepted (if r.agent.frozen = on then r.idle
        else (r.setAgent (r.agent.setFlag .frozen on)).tell (.notify (.freezeChanged on) ::
          (r.setAgent (r.agent.setFlag .frozen on)).shoutNotice s (.flag .frozen on)))
      else .refused r .cannotBeFrozen := by
    unfold Reactor.freeze
    rw [permits_peer]
    cases r.agent.canBeFrozen with
    | true => exact (apply_ite Execution.accepted (r.agent.frozen = on) _ _).symm
    | false => rfl
  cases order with
  | muteAll => cases sets; exact muted true
  | unmuteAll => cases sets; exact muted false
  | freeze => cases sets; exact frozen true
  | unfreeze => cases sets; exact frozen false
  | _ => cases sets

/-- An edit of a flag is refused, changes nothing, or turns the flag and leaves a notice. -/
theorem edit_cases {e : Edit} (sets : e.flag? = some (flag, on)) (a : Agent) :
    (∃ fault, e.apply a = .error fault) ∨ e.apply a = .ok (.silent a) ∨
      a.flag flag = !on ∧
        ∃ event, e.apply a = .ok (.announced (a.setFlag flag on) event (.flag flag on)) := by
  rw [apply_of_flag sets]
  split
  · split
    · exact .inr (.inl rfl)
    next other => exact .inr (.inr ⟨Bool.eq_not.mpr other, _, rfl⟩)
  · exact .inl ⟨_, rfl⟩

theorem order_cases {order : Order} (sets : order.flag? = some (flag, on)) (s : Surroundings)
    (sender name : String) (r : Reactor) :
    (r.executeOrder s sender name order).reaction = r.idle ∨
      r.agent.flag flag = !on ∧ ∃ event, (r.executeOrder s sender name order).reaction =
        (r.setAgent (r.agent.setFlag flag on)).tell (.notify event ::
          (r.setAgent (r.agent.setFlag flag on)).shoutNotice s (.flag flag on)) := by
  rw [executeOrder_of_flag sets]
  split
  · dsimp only [Execution.accepted]
    split
    · exact .inl rfl
    next other => exact .inr ⟨Bool.eq_not.mpr other, _, rfl⟩
  · exact .inl rfl

def OnlyFlags (queue : List Control) : Prop :=
  ∀ control ∈ queue, ∃ flag on, control = .notice (.flag flag on)

/-- What a turn does to a flag, to the notices of it in the queue, and to what a peer hears of it. Notices
that no longer wait have gone out; the notice of an edit waits behind the others, and that of an order has
gone out at once. -/
inductive Beat (flag : Flag) (peer : String) (h : Host) (t : Turn) : Prop where
  | still (same : (h.turn t).host.agent.flag flag = h.agent.flag flag)
      (moved : flag.waiting h.queue =
        (Facet.flag flag).heard peer (h.turn t).effects ++ flag.waiting (h.turn t).host.queue)
  | edited (edits : t.isEdit = true)
      (changed : (h.turn t).host.agent.flag flag = !h.agent.flag flag)
      (silent : (Facet.flag flag).heard peer (h.turn t).effects = [])
      (waits : flag.waiting (h.turn t).host.queue = flag.waiting h.queue ++ [!h.agent.flag flag])
  | ordered (orders : t.isEdit = false)
      (changed : (h.turn t).host.agent.flag flag = !h.agent.flag flag)
      (heard : (Facet.flag flag).heard peer (h.turn t).effects = [!h.agent.flag flag])
      (kept : (h.turn t).host.queue = h.queue)

structure Beats (peer : String) (h : Host) (t : Turn) : Prop where
  running : ∃ after, (h.turn t).host.reactor? = some after
  queue : OnlyFlags (h.turn t).host.queue
  beat : ∀ flag, Beat flag peer h t

private theorem beats_of_idle {t : Turn} {effects : List Effect} (running : h.reactor? = some r)
    (queue : OnlyFlags h.queue) (same : h.turn t = ⟨h, effects⟩)
    (silent : ∀ flag, (Facet.flag flag).heard peer effects = []) : Beats peer h t where
  running := ⟨r, by rw [same]; exact running⟩
  queue := by rw [same]; exact queue
  beat flag := by
    refine .still (by rw [same]) ?_
    rw [same, silent flag, List.nil_append]

private theorem flag_of_turned {t : Turn} (running : h.reactor? = some r)
    (agent : (h.turn t).host.agent = r.agent.setFlag other on) (turned : r.agent.flag other = !on) :
    on = !h.agent.flag other ∧
      ∀ flag, (h.turn t).host.agent.flag flag = if other = flag then on else h.agent.flag flag := by
  rw [agent_of_reactor? running, agent]
  exact ⟨by rw [turned, Bool.not_not], fun flag => flag_setFlag _ _ _ _⟩

private theorem onlyFlags_append {queue : List Control} (before : OnlyFlags queue) (flag : Flag)
    (on : Bool) : OnlyFlags (queue ++ [.notice (.flag flag on)]) := by
  intro control member
  rcases List.mem_append.mp member with early | last
  · exact before control early
  · exact ⟨flag, on, List.mem_singleton.mp last⟩

private theorem beats_edit {e : Edit} (sets : e.flag? = some (other, on))
    (running : h.reactor? = some r) (queue : OnlyFlags h.queue) : Beats peer h (.edit e) := by
  rcases edit_cases sets h.agent with ⟨fault, refused⟩ | done | ⟨turned, event, done⟩
  · exact beats_of_idle running queue (turn_refused refused) fun _ => rfl
  · exact beats_of_idle running queue (turn_unchanged done) fun _ => rfl
  · rw [agent_of_reactor? running] at turned done
    have same := turn_edit running done
    have agent : (h.turn (.edit e)).host.agent = r.agent.setFlag other on := by rw [same]; rfl
    have queued : (h.turn (.edit e)).host.queue = h.queue ++ [.notice (.flag other on)] := by
      rw [same]; rfl
    have silent (flag : Flag) : (Facet.flag flag).heard peer (h.turn (.edit e)).effects = [] := by
      rw [same]
      exact heard_edit _ _
    have waits (flag : Flag) : flag.waiting (h.turn (.edit e)).host.queue =
        flag.waiting h.queue ++ if other = flag then [on] else [] := by
      rw [queued, waiting_append, waiting_cons]
      exact congrArg _ (List.append_nil _)
    obtain ⟨before, flagged⟩ := flag_of_turned running agent turned
    refine ⟨⟨_, by rw [same]; rfl⟩, queued ▸ onlyFlags_append queue other on, fun flag => ?_⟩
    by_cases it : other = flag
    · subst it
      refine .edited rfl ?_ (silent other) ?_
      · rw [flagged, if_pos rfl, before]
      · rw [waits, if_pos rfl, before]
    · refine .still (by rw [flagged, if_neg it]) ?_
      rw [silent, waits, if_neg it, List.append_nil, List.nil_append]

private theorem beats_order {order : Order} {frames : List Bytes} {history : List HostStep}
    (sets : order.flag? = some (other, on)) (read : Command.ofFrames frames = .ok (.order order))
    (run : Run h history) (running : h.reactor? = some r) (queue : OnlyFlags h.queue)
    (s : Surroundings) (sender name : String) :
    Beats peer h (.happen s (.presence (.whisper sender name frames))) := by
  have calm := run.stopReason running
  let reaction := (r.executeOrder s sender (r.peerName sender) order).reaction
  have goesOn : reaction.reactor.stopReason = none := by
    rcases order_cases sets s sender (r.peerName sender) r with idle | ⟨-, event, told⟩
    · exact (congrArg (·.reactor.stopReason) idle).trans calm
    · exact (congrArg (·.reactor.stopReason) told).trans calm
  obtain ⟨log, same⟩ := turn_whisper running read goesOn name
  change h.turn _ = ⟨{ h with activity := .running reaction.reactor },
    reaction.effects ++ [.log log]⟩ at same
  rcases order_cases sets s sender (r.peerName sender) r with idle | ⟨turned, event, told⟩
  · change reaction = _ at idle
    rw [idle, Reactor.idle, Reactor.tell, ← activity_of_reactor? running] at same
    exact beats_of_idle running queue same fun _ => rfl
  · change reaction = _ at told
    rw [told] at same
    have heard (flag : Flag) : (Facet.flag flag).heard peer
        (h.turn (.happen s (.presence (.whisper sender name frames)))).effects =
          if other = flag then [on] else [] := by
      rw [same]
      exact (heard_told s _ event _ log).trans (tells_flag flag other on)
    have agent : (h.turn (.happen s (.presence (.whisper sender name frames)))).host.agent =
        r.agent.setFlag other on := by rw [same]; rfl
    obtain ⟨before, flagged⟩ := flag_of_turned running agent turned
    refine ⟨⟨_, by rw [same]; rfl⟩, by rw [same]; exact queue, fun flag => ?_⟩
    by_cases it : other = flag
    · subst it
      refine .ordered rfl ?_ ?_ (by rw [same])
      · rw [flagged, if_pos rfl, before]
      · rw [heard, if_pos rfl, before]
    · refine .still (by rw [flagged, if_neg it]) ?_
      rw [heard, if_neg it, same]
      rfl

private theorem beats_take {history : List HostStep} (run : Run h history)
    (running : h.reactor? = some r) (queue : OnlyFlags h.queue) (s : Surroundings) :
    Beats peer h (.take s) := by
  cases waits : h.queue with
  | nil => exact beats_of_idle running queue (turn_take_nothing waits) fun _ => rfl
  | cons control rest =>
    have others : OnlyFlags rest := fun control member =>
      queue control (waits ▸ List.mem_cons_of_mem _ member)
    obtain ⟨other, on, rfl⟩ := queue control (waits ▸ List.mem_cons_self)
    have same := turn_take (s := s) running (run.stopReason running) waits
    refine ⟨⟨r, by rw [same]; exact running⟩, by rw [same]; exact others, fun flag => ?_⟩
    refine .still (by rw [same]; rfl) ?_
    rw [same, heard_shoutNotice, tells_flag, waits, waiting_cons]

theorem beats_of_turn {t : Turn} {history : List HostStep} (flags : t.OfFlags)
    (run : Run h history) (running : h.reactor? = some r) (queue : OnlyFlags h.queue) :
    Beats peer h t := by
  cases flags with
  | edit sets => exact beats_edit sets running queue
  | order sets read s sender name => exact beats_order sets read run running queue s sender name
  | take s => exact beats_take run running queue s

/-- Of what has gone out and what waits, the last tells of a flag what it is, unless it was overtaken. -/
private theorem last_of_beat {t : Turn} {shown stale : Bool} (beat : Beat flag peer h t)
    (last : (flag.waiting h.queue).getLastD shown = (h.agent.flag flag ^^ stale)) :
    (flag.waiting (h.turn t).host.queue).getLastD
        (((Facet.flag flag).heard peer (h.turn t).effects).getLastD shown) =
      ((h.turn t).host.agent.flag flag ^^
        if h.changes flag t then h.overtakes flag t && !stale else stale) := by
  cases beat with
  | still same moved =>
    rw [← getLastD_append, ← moved, last, same, Host.changes, same, bne_self_eq_false]
    rfl
  | edited edits changed silent waits =>
    have changes : h.changes flag t = true := by rw [Host.changes, changed]; simp
    have behind : h.overtakes flag t = false := by simp [Host.overtakes, edits]
    rw [waits, getLastD_append, changed, if_pos changes, behind]
    simp
  | ordered orders changed heard kept =>
    -- What waits goes out later than the order's own notice, so that the last of it stays the last.
    have changes : h.changes flag t = true := by rw [Host.changes, changed]; simp
    have overtakes : h.overtakes flag t = !(flag.waiting h.queue).isEmpty := by
      simp [Host.overtakes, changes, orders]
    rw [kept, heard, changed, if_pos changes, overtakes]
    cases waits : flag.waiting h.queue with
    | nil => simp
    | cons first rest =>
      rw [waits, List.getLastD_cons] at last
      rw [List.getLastD_cons, last]
      simp

theorem last_of_turns (peer : String) {turns : List Turn} {history : List HostStep}
    {shown stale : Bool} (flags : ∀ t ∈ turns, t.OfFlags) (run : Run h history)
    (running : h.reactor? = some r) (queue : OnlyFlags h.queue)
    (last : (flag.waiting h.queue).getLastD shown = (h.agent.flag flag ^^ stale)) :
    (∃ after, (h.after turns).reactor? = some after) ∧
      (flag.waiting (h.after turns).queue).getLastD
          (((Facet.flag flag).heard peer ((h.trace turns).flatMap (·.effects))).getLastD shown) =
        ((h.after turns).agent.flag flag ^^ h.overtaken flag stale turns) := by
  induction turns generalizing h history r shown stale with
  | nil => exact ⟨⟨r, running⟩, last⟩
  | cons t turns ih =>
    have beats : Beats peer h t := beats_of_turn (flags t List.mem_cons_self) run running queue
    obtain ⟨next, goesOn⟩ := beats.running
    rw [Host.trace, List.flatMap_cons, heard_append, getLastD_append]
    exact ih (fun t member => flags t (List.mem_cons_of_mem _ member)) (run.turn t) goesOn beats.queue
      (last_of_beat (beats.beat flag) last)

/-- As long as no order overtakes a notice, the last notice of a flag is of how it is. -/
theorem overtaken_eq_false {turns : List Turn}
    (orderly : ∀ before t behind, turns = before ++ t :: behind →
      (h.after before).overtakes flag t = false) : h.overtaken flag false turns = false := by
  induction turns generalizing h with
  | nil => rfl
  | cons t turns ih =>
    have first : h.overtakes flag t = false := orderly [] t turns rfl
    have same : (if h.changes flag t then h.overtakes flag t && !false else false) = false := by
      rw [first]
      exact ite_self false
    rw [Host.overtaken, same]
    exact ih fun before last behind split => orderly (t :: before) last behind (by rw [split]; rfl)

/-- Once nothing waits and everything has been heard, a peer shows a flag as it is unless its last notice
was overtaken. So it does if no order ever overtakes a notice. -/
theorem flags_agree_unless_overtaken {h : Host} {history : List HostStep} {r p last : Reactor}
    {own name peer peerName : String} {entry : Peer} {s : Surroundings} {turns : List Turn}
    (run : Run h history) (running : h.reactor? = some r) (drained : h.queue = [])
    (arrives : (r.directory.group peer privateChannel true).2 = true)
    (flags : ∀ t ∈ turns, t.OfFlags)
    (known : p.directory.get? own = some entry) (untold : entry.Untold)
    (hears : Hears own name peer p
      ((h.trace (.happen s (.presence (.join peer peerName privateChannel)) :: turns)).flatMap
        (·.effects)) last)
    (settled : ((h.turn (.happen s (.presence (.join peer peerName privateChannel)))).host.after
      turns).queue = []) :
    let joined := (h.turn (.happen s (.presence (.join peer peerName privateChannel)))).host
    ∃ after shown, (joined.after turns).reactor? = some after ∧
      last.directory.get? own = some shown ∧
      ∀ flag, (shown.flag flag = after.agent.flag flag ↔ joined.overtaken flag false turns = false) ∧
        ((∀ before t behind, turns = before ++ t :: behind →
          (joined.after before).overtakes flag t = false) →
            shown.flag flag = after.agent.flag flag) := by
  intro joined
  obtain ⟨shown, found, facets⟩ := shown_of_arrival run running arrives known untold hears
  obtain ⟨⟨r', goesOn, agent⟩, queue, -⟩ := arrive_turn run running arrives s peerName
  have empty : joined.queue = [] := queue.trans drained
  have ofFlags : OnlyFlags joined.queue := by
    rw [empty]
    exact fun control member => by cases member
  have start (flag : Flag) :
      (flag.waiting joined.queue).getLastD (r.agent.flag flag) = (joined.agent.flag flag ^^ false) := by
    rw [empty, agent_of_reactor? goesOn, agent, Bool.xor_false]
    rfl
  obtain ⟨after, still⟩ :=
    (last_of_turns peer flags (run.turn _) goesOn ofFlags (start .muted)).1
  have agrees (flag : Flag) :
      shown.flag flag = (after.agent.flag flag ^^ joined.overtaken flag false turns) := by
    have told := (last_of_turns peer flags (run.turn _) goesOn ofFlags (start flag)).2
    rw [settled, agent_of_reactor? still] at told
    exact (facets (.flag flag)).trans told
  refine ⟨after, shown, still, found, fun flag => ⟨?_, fun orderly => ?_⟩⟩
  · rw [agrees flag]
    cases joined.overtaken flag false turns <;> simp
  · rw [agrees flag, overtaken_eq_false orderly, Bool.xor_false]

private def kilnTurns : List Turn := [
  .start .calm "" "host" ⟨"1", "kiln", none⟩ (.ok ⟨4000, none⟩),
  .happen .calm (.presence (.enter "l" "lamp" "host" Table.empty))]

private def kiln : Host := (Host.new "kiln" Config.empty "k").after kilnTurns

private def kilnEntry : Peer := Peer.new "k" "kiln" "host" Table.empty

private def lamp : Host := (Host.new "lamp" Config.empty "l").after [
  .start .calm "" "host" ⟨"2", "lamp", none⟩ (.ok ⟨5000, none⟩),
  .happen .calm (.presence (.enter "k" "kiln" "host" Table.empty))]

private def lampComes : Turn := .happen .calm (.presence (.join "l" "lamp" privateChannel))

private def lampUnmutes : Turn :=
  .happen .calm (.presence (.whisper "l" "lamp" (Command.order .unmuteAll).toFrames))

private def haste : List Turn := [.edit (.mute true), lampUnmutes, .take .calm]

private theorem hasty :
    (kiln.reactor?.map fun r => (r.directory.group "l" privateChannel true).2) = some true ∧
      kiln.queue = [] ∧ ((kiln.turn lampComes).host.after haste).queue = [] ∧
      ((kiln.turn lampComes).host.after haste).agent.muted = false ∧
      (kiln.turn lampComes).host.overtaken .muted false haste = true ∧
      (lamp.reactor?.bind (·.directory.get? "k")) = some kilnEntry := by
  decide +kernel

theorem lamp_shows_overtaken_notice : ∃ (p after last : Reactor) (shown : Peer),
    lamp.reactor? = some p ∧
      Hears "k" "kiln" "l" p ((kiln.trace (lampComes :: haste)).flatMap (·.effects)) last ∧
      ((kiln.turn lampComes).host.after haste).queue = [] ∧
      ((kiln.turn lampComes).host.after haste).reactor? = some after ∧ after.agent.muted = false ∧
      last.directory.get? "k" = some shown ∧ shown.muted = true := by
  obtain ⟨history, run⟩ : ∃ history, Run kiln history :=
    run_after kilnTurns (.new "kiln" Config.empty "k")
  obtain ⟨arrives, waiting, left, muted, overtaken, entered⟩ := hasty
  obtain ⟨r, running, comes⟩ := Option.map_eq_some_iff.mp arrives
  obtain ⟨p, listening, known⟩ := Option.bind_eq_some_iff.mp entered
  obtain ⟨last, hears⟩ := exists_hears "k" "kiln" "l" p
    ((kiln.trace (lampComes :: haste)).flatMap (·.effects))
  have flags : ∀ t ∈ haste, t.OfFlags := by
    intro t member
    simp only [haste, List.mem_cons, List.not_mem_nil, or_false] at member
    rcases member with rfl | rfl | rfl
    · exact .edit rfl
    · exact .order rfl (CommandCodec.ofFrames_toFrames trivial) _ _ _
    · exact .take .calm
  have untold : kilnEntry.Untold := ⟨rfl, rfl, rfl, rfl, rfl⟩
  obtain ⟨after, shown, still, found, agree⟩ :=
    flags_agree_unless_overtaken run running waiting comes flags known untold hears left
  have goesOn : ((kiln.turn lampComes).host.after haste).reactor? = some after := still
  rw [agent_of_reactor? goesOn] at muted
  refine ⟨p, after, last, shown, listening, hears, left, goesOn, muted, found, ?_⟩
  have differs : ¬shown.muted = after.agent.muted := fun equal => by
    have right : (kiln.turn lampComes).host.overtaken .muted false haste = false :=
      (agree .muted).1.mp equal
    rw [overtaken] at right
    cases right
  rw [muted] at differs
  exact Bool.of_not_eq_false differs

end Proofs.Notices
end PeerMesh
