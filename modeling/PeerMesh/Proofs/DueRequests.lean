import PeerMesh.Proofs.OutputRequests

/-! The requests for outputs, whatever the order in which they are set, served and dropped. A request
waits from the last time it was set. The poll that finds it due asks the peer once and takes it back,
and touches nothing else. The reactor is next due at the earliest of the requests that wait, which a
poll leaves in the future. -/

namespace PeerMesh

namespace Reactor

def armOutputsRequest (peer : String) (time : Nat) (r : Reactor) : Reactor :=
  { r with subscribers := r.subscribers.modify peer (·.armOutputsRequest time) }

def isDue (r : Reactor) (now : Nat) (peer : String) : Bool :=
  (r.outputsRequestAt? peer).any (· ≤ now)

end Reactor

/-- What bears on the requests for outputs. -/
inductive RequestStep where
  | arm (peer : String) (time : Nat)
  | ensure (peer : String)
  | drop (peer : String)
  | poll (s : Surroundings)

namespace RequestStep

def take : RequestStep → Reactor → Reaction
  | .arm peer time, r => (r.armOutputsRequest peer time).idle
  | .ensure peer, r => r.ensureSubscriber peer
  | .drop peer, r => r.dropSubscriber peer
  | .poll s, r => r.requestDueOutputs s

/-- The step neither sets a peer's request nor drops its subscriber. -/
def Leaves (peer : String) : RequestStep → Prop
  | .arm other _ | .drop other => other ≠ peer
  | .ensure _ | .poll _ => True

/-- The step is a poll that finds a request for the time due. -/
def serves : RequestStep → Nat → Bool
  | .poll s, time => time ≤ s.now
  | _, _ => false

/-- A peer's request for a time comes through the step as it is. -/
def Spares (peer : String) (time : Nat) (step : RequestStep) : Prop :=
  step.Leaves peer ∧ step.serves time = false

end RequestStep

def Reactor.takeAll (r : Reactor) (steps : List RequestStep) : Reaction :=
  r.forEach steps RequestStep.take

/-- A peer is to be asked at a time: its request has been set to it, at the start or by a step that
found its subscriber there, and whatever came since spares it. -/
def Reactor.Waits (r : Reactor) (steps : List RequestStep) (peer : String) (time : Nat) : Prop :=
  ∃ earlier since, steps = earlier ++ since ∧ (∀ step ∈ since, step.Spares peer time) ∧
    (earlier = [] ∧ r.outputsRequestAt? peer = some time ∨
      ∃ before, earlier = before ++ [.arm peer time] ∧
        (r.takeAll before).reactor.subscribers.contains peer = true)

namespace Proofs.DueRequests
open OutputRequests ReactorMoves

variable {s : Surroundings} {r : Reactor} {peer : String} {time : Nat} {steps : List RequestStep}

def ask (peer : String) : Presence.Request :=
  .whisper peer (Command.order .requestOutputs).toFrames

private theorem isDue_eq (subscriber : Subscriber) (now : Nat) :
    subscriber.isDue now = subscriber.outputsRequestAt.any (· ≤ now) := by
  unfold Subscriber.isDue
  cases subscriber.outputsRequestAt with
  | none => rfl
  | some time => rfl

private theorem isDue_iff {now : Nat} :
    r.isDue now peer = true ↔ ∃ time, r.outputsRequestAt? peer = some time ∧ time ≤ now := by
  simp [Reactor.isDue, Option.any_eq_true]

private theorem isDue_of_get? {subscriber : Subscriber} {now : Nat}
    (found : r.subscribers.get? peer = some subscriber) :
    r.isDue now peer = subscriber.isDue now := by
  rw [Reactor.isDue, Reactor.outputsRequestAt?, found, isDue_eq]
  rfl

private theorem effects_requestOutputs (s : Surroundings) (peer : String) (r : Reactor) :
    (r.requestOutputs s peer).effects =
      if r.isDue s.now peer then r.whisper s peer (.order .requestOutputs) else [] := by
  unfold Reactor.requestOutputs
  cases found : r.subscribers.get? peer with
  | none => simp [Reactor.isDue, Reactor.outputsRequestAt?, found, Reactor.idle, Reactor.tell]
  | some subscriber =>
    rw [isDue_of_get? found]
    by_cases due : subscriber.isDue s.now = true
    · simp [Subscriber.takeDueRequest, due]
    · simp [Subscriber.takeDueRequest, due]

private theorem reactor_forEach_requestOutputs (s : Surroundings) (peers : List String) (r : Reactor) :
    (r.forEach peers (Reactor.requestOutputs s)).reactor =
      { r with
        subscribers := peers.foldl (fun t peer => t.modify peer (·.takeDueRequest s.now |>.1))
          r.subscribers } := by
  induction peers using List.reverseRecOn with
  | nil => rfl
  | append_singleton peers last ih =>
    rw [forEach_concat, Reaction.andThen, reactor_requestOutputs, ih, List.foldl_append]
    rfl

/-- Each of a list of peers is asked if it is due, whatever becomes of the others. -/
private theorem effects_forEach_requestOutputs {peers : List String} (distinct : peers.Nodup) :
    (r.forEach peers (Reactor.requestOutputs s)).effects =
      (peers.filter (r.isDue s.now)).flatMap fun peer => r.whisper s peer (.order .requestOutputs) := by
  induction peers using List.reverseRecOn with
  | nil => rfl
  | append_singleton peers last ih =>
    obtain ⟨distinct, -, apart⟩ := List.nodup_append.mp distinct
    have absent : last ∉ peers := fun member => apart last member last List.mem_cons_self rfl
    have untouched : (r.forEach peers (Reactor.requestOutputs s)).reactor.isDue s.now last =
        r.isDue s.now last := by
      rw [reactor_forEach_requestOutputs, Reactor.isDue, Reactor.outputsRequestAt?,
        Table.get?_foldl_modify _ distinct, if_neg absent]
      rfl
    have sameWhisper : (r.forEach peers (Reactor.requestOutputs s)).reactor.whisper s last
        (.order .requestOutputs) = r.whisper s last (.order .requestOutputs) := by
      rw [reactor_forEach_requestOutputs]
      rfl
    rw [forEach_concat, Reaction.andThen, effects_requestOutputs, untouched, sameWhisper, ih distinct,
      List.filter_append, List.flatMap_append]
    by_cases due : r.isDue s.now last = true
    · simp [due]
    · simp [due]

/-- Those that are due are asked, each once. -/
theorem effects_requestDueOutputs (s : Surroundings) (r : Reactor) :
    (r.requestDueOutputs s).effects = (r.subscribers.keys.filter (r.isDue s.now)).flatMap fun peer =>
      r.whisper s peer (.order .requestOutputs) :=
  effects_forEach_requestOutputs r.subscribers.keys_nodup

theorem reactor_requestDueOutputs (s : Surroundings) (r : Reactor) :
    (r.requestDueOutputs s).reactor =
      { r with
        subscribers := r.subscribers.mapValues fun _ subscriber =>
          (subscriber.takeDueRequest s.now).1 } :=
  subscribers_forEach fun peer subscribers =>
    reactor_requestOutputs s peer { r with subscribers := subscribers }

/-- A request that is due is taken back, and another one stays. -/
private theorem outputsRequestAt_takeDueRequest {subscriber : Subscriber} {now : Nat} :
    (subscriber.takeDueRequest now).1.outputsRequestAt = some time ↔
      subscriber.outputsRequestAt = some time ∧ now < time := by
  unfold Subscriber.takeDueRequest
  rw [isDue_eq]
  cases armed : subscriber.outputsRequestAt with
  | none => simp [armed]
  | some other =>
    by_cases late : other ≤ now
    · simp only [Option.any_some, late, decide_true, if_true, reduceCtorEq, Option.some.injEq,
        false_iff, not_and]
      omega
    · simp only [Option.any_some, late, decide_false, Bool.false_eq_true, if_false, armed,
        Option.some.injEq, iff_self_and]
      omega

theorem outputsRequestAt_poll :
    (r.requestDueOutputs s).reactor.outputsRequestAt? peer = some time ↔
      r.outputsRequestAt? peer = some time ∧ s.now < time := by
  rw [reactor_requestDueOutputs, Reactor.outputsRequestAt?, Reactor.outputsRequestAt?,
    Table.get?_mapValues]
  cases r.subscribers.get? peer with
  | none => simp
  | some subscriber => exact outputsRequestAt_takeDueRequest

private theorem outputsRequestAt_arm {other : String} {chosen : Nat} :
    (r.armOutputsRequest other chosen).outputsRequestAt? peer = some time ↔
      r.outputsRequestAt? peer = some time ∧ other ≠ peer ∨
        (other = peer ∧ chosen = time) ∧ r.subscribers.contains peer = true := by
  unfold Reactor.armOutputsRequest Reactor.outputsRequestAt? Table.contains
  rw [Table.get?_modify]
  by_cases same : other = peer
  · subst same
    cases r.subscribers.get? other with
    | none => simp
    | some subscriber => simp [Subscriber.armOutputsRequest]
  · simp [same]

private theorem outputsRequestAt_ensure (other : String) :
    (r.ensureSubscriber other).reactor.outputsRequestAt? peer = r.outputsRequestAt? peer := by
  rcases ensureSubscriber_cases other r with ⟨-, same⟩ | ⟨known, endpoint, entry, absent, -, same⟩
  · rw [same]
    rfl
  · rw [same, Reactor.outputsRequestAt?, Reactor.outputsRequestAt?, Table.get?_insert]
    split
    next equal =>
      subst equal
      rw [Table.contains, Option.isSome_eq_false_iff, Option.isNone_iff_eq_none] at absent
      rw [absent]
      rfl
    next => rfl

private theorem outputsRequestAt_drop {other : String} :
    (r.dropSubscriber other).reactor.outputsRequestAt? peer = some time ↔
      r.outputsRequestAt? peer = some time ∧ other ≠ peer := by
  unfold Reactor.dropSubscriber
  cases found : r.subscribers.get? other with
  | none =>
    have absent : other = peer → r.outputsRequestAt? peer = none := by
      rintro rfl
      rw [Reactor.outputsRequestAt?, found]
      rfl
    refine (and_iff_left_of_imp fun waits same => ?_).symm
    rw [Reactor.idle, Reactor.tell, absent same] at waits
    cases waits
  | some subscriber =>
    dsimp only
    rw [Reactor.outputsRequestAt?, Table.get?_erase]
    by_cases same : other = peer
    · simp [same]
    · simp [same, Reactor.outputsRequestAt?]

/-- What a step leaves of a request, and where a new one comes from. -/
theorem outputsRequestAt_take (step : RequestStep) :
    (step.take r).reactor.outputsRequestAt? peer = some time ↔
      r.outputsRequestAt? peer = some time ∧ step.Spares peer time ∨
        step = .arm peer time ∧ r.subscribers.contains peer = true := by
  cases step with
  | arm other chosen =>
    refine outputsRequestAt_arm.trans ?_
    simp [RequestStep.Spares, RequestStep.Leaves, RequestStep.serves]
  | ensure other =>
    rw [RequestStep.take, outputsRequestAt_ensure]
    simp [RequestStep.Spares, RequestStep.Leaves, RequestStep.serves]
  | drop other =>
    refine outputsRequestAt_drop.trans ?_
    simp [RequestStep.Spares, RequestStep.Leaves, RequestStep.serves]
  | poll s =>
    refine outputsRequestAt_poll.trans ?_
    simp [RequestStep.Spares, RequestStep.Leaves, RequestStep.serves]

theorem takeAll_concat (r : Reactor) (steps : List RequestStep) (step : RequestStep) :
    r.takeAll (steps ++ [step]) = (r.takeAll steps).andThen step.take :=
  forEach_concat RequestStep.take steps step r

theorem waits_nil : r.Waits [] peer time ↔ r.outputsRequestAt? peer = some time := by
  constructor
  · rintro ⟨earlier, since, parts, -, start⟩
    obtain ⟨rfl, rfl⟩ := List.append_eq_nil_iff.mp parts.symm
    rcases start with ⟨-, waits⟩ | ⟨before, parts, -⟩
    · exact waits
    · cases before <;> cases parts
  · exact fun waits => ⟨[], [], rfl, fun _ member => (by cases member), .inl ⟨rfl, waits⟩⟩

theorem waits_concat (step : RequestStep) :
    r.Waits (steps ++ [step]) peer time ↔ r.Waits steps peer time ∧ step.Spares peer time ∨
      step = .arm peer time ∧ (r.takeAll steps).reactor.subscribers.contains peer = true := by
  constructor
  · rintro ⟨earlier, since, parts, spared, start⟩
    rcases List.eq_nil_or_concat' since with rfl | ⟨since, last, rfl⟩
    · rw [List.append_nil] at parts
      subst parts
      rcases start with ⟨parts, -⟩ | ⟨before, parts, present⟩
      · cases List.append_ne_nil_of_right_ne_nil steps (List.cons_ne_nil step []) parts
      · obtain ⟨rfl, same⟩ := List.append_inj' parts rfl
        exact .inr ⟨List.singleton_inj.mp same, present⟩
    · rw [← List.append_assoc] at parts
      obtain ⟨rfl, same⟩ := List.append_inj' parts rfl
      cases same
      refine .inl ⟨⟨earlier, since, rfl, ?_, start⟩, ?_⟩
      · exact fun step member => spared step (List.mem_append_left _ member)
      · exact spared _ (List.mem_append_right _ List.mem_cons_self)
  · rintro (⟨⟨earlier, since, rfl, spared, start⟩, spares⟩ | ⟨rfl, present⟩)
    · refine ⟨earlier, since ++ [step], List.append_assoc .., ?_, start⟩
      intro other member
      rcases List.mem_append.mp member with member | last
      · exact spared other member
      · cases List.mem_singleton.mp last
        exact spares
    · exact ⟨steps ++ [.arm peer time], [], (List.append_nil _).symm,
        fun _ member => (by cases member), .inr ⟨steps, rfl, present⟩⟩

/-- The subscribers hold what waits by the history, and nothing else. -/
theorem outputsRequestAt_takeAll (r : Reactor) (steps : List RequestStep) :
    (r.takeAll steps).reactor.outputsRequestAt? peer = some time ↔ r.Waits steps peer time := by
  induction steps using List.reverseRecOn with
  | nil => exact waits_nil.symm
  | append_singleton steps step ih =>
    rw [takeAll_concat, Reaction.andThen, outputsRequestAt_take, ih, waits_concat]

private theorem mem_deadlines :
    time ∈ r.subscribers.values.filterMap (·.outputsRequestAt) ↔
      ∃ peer, r.outputsRequestAt? peer = some time := by
  simp only [List.mem_filterMap, Table.mem_values, Reactor.outputsRequestAt?,
    Option.bind_eq_some_iff]
  constructor
  · rintro ⟨subscriber, ⟨peer, found⟩, armed⟩
    exact ⟨peer, subscriber, found, armed⟩
  · rintro ⟨peer, subscriber, found, armed⟩
    exact ⟨subscriber, ⟨peer, found⟩, armed⟩

theorem nextOutputsRequest_eq_some :
    r.nextOutputsRequest? = some time ↔ (∃ peer, r.outputsRequestAt? peer = some time) ∧
      ∀ peer other, r.outputsRequestAt? peer = some other → time ≤ other := by
  rw [Reactor.nextOutputsRequest?, List.min?_eq_some_iff]
  refine and_congr mem_deadlines ?_
  constructor
  · exact fun least peer other waits => least other (mem_deadlines.mpr ⟨peer, waits⟩)
  · intro least other member
    obtain ⟨peer, waits⟩ := mem_deadlines.mp member
    exact least peer other waits

private theorem request_whisper (s : Surroundings) (r : Reactor) (peer : String) :
    (r.whisper s peer (.order .requestOutputs)).filterMap Effect.request? = [ask peer] := by
  unfold Reactor.whisper Reactor.send
  split
  · rfl
  · rfl

/-- Only a poll asks for anything. -/
private theorem requests_take (step : RequestStep) (r : Reactor) :
    (step.take r).effects.filterMap Effect.request? =
      match step with
      | .poll s => (r.subscribers.keys.filter (r.isDue s.now)).map ask
      | _ => [] := by
  cases step with
  | arm other chosen => rfl
  | ensure other =>
    rcases ensureSubscriber_cases other r with ⟨-, same⟩ | ⟨known, endpoint, entry, -, -, same⟩
    · rw [RequestStep.take, same]
      rfl
    · rw [RequestStep.take, same]
      rfl
  | drop other =>
    rcases dropSubscriber_cases other r with same | ⟨changes, same⟩
    · rw [RequestStep.take, same]
      rfl
    · rw [RequestStep.take, same]
      simp [Effect.request?, Function.comp_def]
  | poll s =>
    rw [RequestStep.take, effects_requestDueOutputs, List.filterMap_flatMap]
    simp only [request_whisper]
    exact List.map_eq_flatMap.symm

private theorem ask_injective : Function.Injective ask := by
  intro one other same
  exact (Presence.Request.whisper.inj same).1

private theorem count_take (step : RequestStep) (r : Reactor) :
    ((step.take r).effects.filterMap Effect.request?).count (ask peer) =
      if (r.outputsRequestAt? peer).any step.serves then 1 else 0 := by
  rw [requests_take]
  cases step with
  | arm | ensure | drop =>
    cases r.outputsRequestAt? peer with
    | none => rfl
    | some time => rfl
  | poll s =>
    have distinct : ((r.subscribers.keys.filter (r.isDue s.now)).map ask).Nodup :=
      (r.subscribers.keys_nodup.filter _).map ask_injective
    have key : r.isDue s.now peer = true → peer ∈ r.subscribers.keys := by
      intro due
      obtain ⟨time, waits, -⟩ := isDue_iff.mp due
      obtain ⟨subscriber, found, -⟩ := Option.bind_eq_some_iff.mp waits
      exact Table.mem_keys.mpr ⟨subscriber, found⟩
    dsimp only
    rw [List.Nodup.count distinct]
    refine if_congr ?_ rfl rfl
    rw [List.mem_map_of_injective ask_injective, List.mem_filter]
    exact and_iff_right_of_imp key

/-- As long as nobody sets or drops it, a request waits for the first poll that finds it due. -/
private theorem outputsRequestAt_leaves {later : List RequestStep}
    (waits : r.outputsRequestAt? peer = some time) (leaves : ∀ step ∈ later, step.Leaves peer)
    (other : Nat) :
    (r.takeAll later).reactor.outputsRequestAt? peer = some other ↔
      other = time ∧ later.any (·.serves time) = false := by
  induction later using List.reverseRecOn with
  | nil =>
    rw [Reactor.takeAll, Reactor.forEach]
    simp [Reactor.idle, Reactor.tell, waits, eq_comm]
  | append_singleton later last ih =>
    obtain ⟨before, here⟩ := List.forall_mem_append.mp leaves
    have leaves := here last List.mem_cons_self
    have unset : last ≠ .arm peer other := by
      rintro rfl
      exact leaves rfl
    rw [takeAll_concat, Reaction.andThen, outputsRequestAt_take, ih before, List.any_append]
    simp only [RequestStep.Spares, leaves, true_and, unset, false_and, or_false, List.any_cons,
      List.any_nil, Bool.or_false, Bool.or_eq_false_iff]
    constructor
    · rintro ⟨⟨rfl, none⟩, spared⟩
      exact ⟨rfl, none, spared⟩
    · rintro ⟨rfl, none, spared⟩
      exact ⟨⟨rfl, none⟩, spared⟩

/-- A request is made once, as soon as a poll finds it due, unless somebody sets or drops it. -/
theorem count_leaves {later : List RequestStep} (waits : r.outputsRequestAt? peer = some time)
    (leaves : ∀ step ∈ later, step.Leaves peer) :
    ((r.takeAll later).effects.filterMap Effect.request?).count (ask peer) =
      if later.any (·.serves time) then 1 else 0 := by
  induction later using List.reverseRecOn with
  | nil => rfl
  | append_singleton later last ih =>
    obtain ⟨before, -⟩ := List.forall_mem_append.mp leaves
    have sofar := outputsRequestAt_leaves waits before
    rw [takeAll_concat, Reaction.andThen, List.filterMap_append, List.count_append, ih before,
      count_take, List.any_append]
    cases served : later.any (·.serves time) with
    | true =>
      have gone : (r.takeAll later).reactor.outputsRequestAt? peer = none := by
        refine Option.eq_none_iff_forall_ne_some.mpr fun other waits => ?_
        rw [sofar other, served] at waits
        cases waits.2
      rw [gone]
      simp
    | false =>
      rw [(sofar time).mpr ⟨rfl, served⟩]
      simp

/-- A poll asks some peers, one after the other, and takes back their requests. -/
structure Serves (r : Reactor) (s : Surroundings) (peers : List String) : Prop where
  distinct : peers.Nodup
  effects : (r.requestDueOutputs s).effects =
    peers.flatMap fun peer => r.whisper s peer (.order .requestOutputs)
  reactor : (r.requestDueOutputs s).reactor =
    { r with
      subscribers := r.subscribers.mapValues fun peer subscriber =>
        if peer ∈ peers then { subscriber with outputsRequestAt := none } else subscriber }

private theorem mem_due {now : Nat} :
    peer ∈ r.subscribers.keys.filter (r.isDue now) ↔
      r.subscribers.contains peer = true ∧
        ∃ time, r.outputsRequestAt? peer = some time ∧ time ≤ now := by
  rw [List.mem_filter, Table.mem_keys, Table.contains_iff, isDue_iff]

theorem serves_due (s : Surroundings) (r : Reactor) :
    Serves r s (r.subscribers.keys.filter (r.isDue s.now)) where
  distinct := r.subscribers.keys_nodup.filter _
  effects := effects_requestDueOutputs s r
  reactor := by
    rw [reactor_requestDueOutputs]
    congr 1
    refine Table.ext_get? fun peer => ?_
    rw [Table.get?_mapValues, Table.get?_mapValues]
    cases found : r.subscribers.get? peer with
    | none => rfl
    | some subscriber =>
      have key : peer ∈ r.subscribers.keys := Table.mem_keys.mpr ⟨subscriber, found⟩
      simp only [Option.map_some, Subscriber.takeDueRequest, List.mem_filter, key, true_and,
        isDue_of_get? found]
      split
      · rfl
      · rfl

/-- Whatever the subscribers, and however requests have been set, dropped and polled for: a poll asks
the peers whose last request is due, each once, and takes back these requests and nothing else. After
it the reactor is next due later than now, if ever. At all times it is next due at the first of the
requests that wait. However often a request has been set before it was served, it is made once, by the
first poll that finds the time it was last set to come. -/
theorem due_outputs_are_asked_once (r : Reactor) (steps : List RequestStep) :
    let present := (r.takeAll steps).reactor
    (∀ peer one other, r.Waits steps peer one → r.Waits steps peer other → one = other) ∧
    (∀ s : Surroundings,
      (∃ peers, Serves present s peers ∧ ∀ peer, peer ∈ peers ↔
        present.subscribers.contains peer = true ∧ ∃ time, r.Waits steps peer time ∧ time ≤ s.now) ∧
      ∀ next, (present.requestDueOutputs s).reactor.nextOutputsRequest? = some next → s.now < next) ∧
    (∀ next, present.nextOutputsRequest? = some next ↔
      (∃ peer, r.Waits steps peer next) ∧ ∀ peer time, r.Waits steps peer time → next ≤ time) ∧
    ∀ peer time, present.subscribers.contains peer = true →
      ∀ later : List RequestStep, (∀ step ∈ later, step.Leaves peer) →
        (((present.armOutputsRequest peer time).takeAll later).effects.filterMap
          Effect.request?).count (ask peer) = if later.any (·.serves time) then 1 else 0 := by
  intro present
  have held : ∀ peer time, present.outputsRequestAt? peer = some time ↔ r.Waits steps peer time :=
    fun _ _ => outputsRequestAt_takeAll r steps
  refine ⟨?_, ?_, ?_, ?_⟩
  · intro peer one other first second
    exact Option.some.inj (((held peer one).mpr first).symm.trans ((held peer other).mpr second))
  · intro s
    refine ⟨⟨_, serves_due s present, fun peer => ?_⟩, ?_⟩
    · rw [mem_due]
      simp only [held]
    · intro next due
      obtain ⟨⟨peer, waits⟩, -⟩ := nextOutputsRequest_eq_some.mp due
      exact (outputsRequestAt_poll.mp waits).2
  · intro next
    rw [nextOutputsRequest_eq_some]
    simp only [held]
  · intro peer time subscribed later leaves
    refine count_leaves (outputsRequestAt_arm.mpr (.inr ⟨⟨rfl, rfl⟩, subscribed⟩)) leaves

private def orchard : Reactor where
  agent := Agent.new "orchard"
  settings := ⟨1000, 100, none, .retain, false, none, false⟩
  hostAddress := "host"
  directory := Directory.empty
  subscribers := Table.ofList [("p", .new "p" "well"), ("q", .new "q" "rain")]
  stopReason := none

private def dawn : List RequestStep := [.arm "p" 100, .arm "q" 200, .ensure "q"]

private def noon : List RequestStep := [100, 250, 300, 400].map fun time =>
  .poll { Surroundings.calm with now := time }

/-- The request for the well is moved from 100 to 300 before anyone looks. -/
theorem orchard_asks_well_once :
    let present := (orchard.takeAll dawn).reactor
    present.subscribers.contains "p" = true ∧ (∀ step ∈ noon, step.Leaves "p") ∧
      (((present.armOutputsRequest "p" 300).takeAll noon).effects.filterMap
        Effect.request?).count (ask "p") = 1 ∧
      present.nextOutputsRequest? = some 100 ∧ (∃ peer, orchard.Waits dawn peer 100) ∧
      ∀ peer time, orchard.Waits dawn peer time → 100 ≤ time := by
  obtain ⟨-, -, next, once⟩ := due_outputs_are_asked_once orchard dawn
  have subscribed : (orchard.takeAll dawn).reactor.subscribers.contains "p" = true := by
    decide +kernel
  have leaves : ∀ step ∈ noon, step.Leaves "p" := by
    intro step member
    obtain ⟨time, -, rfl⟩ := List.mem_map.mp member
    trivial
  have first : (orchard.takeAll dawn).reactor.nextOutputsRequest? = some 100 := by decide +kernel
  exact ⟨subscribed, leaves, once "p" 300 subscribed noon leaves, first, (next 100).mp first⟩

end Proofs.DueRequests
end PeerMesh
