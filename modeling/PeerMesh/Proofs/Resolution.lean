import PeerMesh.Proofs.ReactorMoves

/-! What a subscriber filters for once it has been resolved. When pruning, or after a replacement, it
is exactly what is wanted, otherwise it is that and all that was there before. What is wanted depends
on the types of the agent's inputs, and not on their values. -/

namespace PeerMesh

def Agent.wanted (a : Agent) (subscriber : Subscriber) : NameSet :=
  desiredFilters a.definition a.mapping subscriber.peerName subscriber.definition

namespace Proofs.Resolution
open ReactorMoves

theorem type_of_input? (own : Definition) (name : String) :
    (own.input? name).map (·.type) = own.outline.inputs.get? name := by
  simp only [Definition.input?, Definition.get?, Definition.table, Definition.outline,
    Definition.types, Table.get?_mapValues]

/-- Definitions of one outline have the same inputs, of the same types. -/
theorem input?_of_outline {own other : Definition} (same : own.outline = other.outline)
    (name : String) : (own.input? name).map (·.type) = (other.input? name).map (·.type) := by
  rw [type_of_input?, type_of_input?, same]

theorem resolves_congr {own other : Definition} (same : own.outline = other.outline) (e : Element)
    (peerName : String) (peer : Definition) :
    e.resolves own peerName peer = e.resolves other peerName peer := by
  have types := input?_of_outline same e.input
  unfold Element.resolves
  generalize own.input? e.input = mine at types
  generalize other.input? e.input = others at types
  cases mine with
  | none =>
    cases others with
    | none => rfl
    | some input => cases types
  | some mine =>
    cases others with
    | none => cases types
    | some input =>
      have same : mine.type = input.type := Option.some.inj types
      cases peer.output? e.output with
      | none => rfl
      | some output => simp only [same]

theorem desiredFilters_congr {own other : Definition} (same : own.outline = other.outline)
    (mapping : Mapping) (peerName : String) (peer : Option Definition) :
    desiredFilters own mapping peerName peer = desiredFilters other mapping peerName peer := by
  unfold desiredFilters
  split
  · rfl
  · simp only [resolves_congr same]

theorem wanted_congr {a b : Agent} (definition : a.definition.outline = b.definition.outline)
    (mapping : a.mapping = b.mapping) (subscriber : Subscriber) :
    a.wanted subscriber = b.wanted subscriber := by
  rw [Agent.wanted, Agent.wanted, desiredFilters_congr definition, mapping]

theorem resolves_iff {e : Element} {own peer : Definition} {peerName : String} :
    e.resolves own peerName peer = true ↔ e.targets peerName = true ∧
      ∃ output input, peer.output? e.output = some output ∧ own.input? e.input = some input ∧
        input.type.accepts output.type = true := by
  rw [Element.resolves, Bool.and_eq_true]
  cases peer.output? e.output with
  | none => simp
  | some output =>
    cases own.input? e.input with
    | none => simp
    | some input => simp

theorem contains_desiredFilters {own : Definition} {mapping : Mapping} {peerName output : String}
    {peer : Option Definition} :
    Table.contains (desiredFilters own mapping peerName peer) output = true ↔
      ∃ e ∈ mapping.elements, peer.any (e.resolves own peerName) = true ∧ e.output = output := by
  cases peer with
  | none => simp [desiredFilters]
  | some peer =>
    simp only [desiredFilters, NameSet.ofList, NameSet.contains_foldl_add, Table.contains_empty,
      Bool.or_false, decide_eq_true_eq, List.mem_map, List.mem_filter, Option.any_some, and_assoc]

theorem contains_apply_retain (subscriber : Subscriber) (desired : NameSet) (output : String) :
    Table.contains (subscriber.apply desired .retain).1.filters output =
      (Table.contains desired output || Table.contains subscriber.filters output) := by
  simp only [Subscriber.apply, List.foldl_nil, NameSet.contains_foldl_add, List.mem_filter,
    NameSet.mem_toList]
  cases Table.contains desired output <;> cases Table.contains subscriber.filters output <;> rfl

theorem filters_apply_prune (subscriber : Subscriber) (desired : NameSet) :
    (subscriber.apply desired .prune).1.filters = desired := by
  refine NameSet.ext_contains fun output => ?_
  simp only [Subscriber.apply, NameSet.contains_foldl_erase, NameSet.contains_foldl_add,
    List.mem_filter, NameSet.mem_toList]
  cases Table.contains desired output <;> cases Table.contains subscriber.filters output <;> rfl

def prunes (subscriber : Subscriber) (policy : FilterPolicy) : Prop :=
  subscriber.resetPending = true ∨ policy = .prune

theorem effective_of_prunes {subscriber : Subscriber} {policy : FilterPolicy}
    (pruned : prunes subscriber policy) :
    (if subscriber.resetPending then .prune else policy) = FilterPolicy.prune := by
  rcases pruned with pending | policy
  · rw [pending]
    rfl
  · rw [policy, ite_self]

theorem effective_of_not_prunes {subscriber : Subscriber} {policy : FilterPolicy}
    (retained : ¬prunes subscriber policy) :
    (if subscriber.resetPending then .prune else policy) = FilterPolicy.retain := by
  rw [prunes, not_or] at retained
  rw [if_neg retained.1]
  cases policy with
  | retain => rfl
  | prune => exact absurd rfl retained.2

theorem filters_resolve_prune {subscriber : Subscriber} {policy : FilterPolicy}
    (pruned : prunes subscriber policy) (own : Definition) (mapping : Mapping) :
    (subscriber.resolve own mapping policy).1.filters =
      desiredFilters own mapping subscriber.peerName subscriber.definition := by
  simp only [Subscriber.resolve, effective_of_prunes pruned]
  exact filters_apply_prune _ _

theorem filters_resolve_retain {subscriber : Subscriber} {policy : FilterPolicy}
    (retained : ¬prunes subscriber policy) (own : Definition) (mapping : Mapping) (output : String) :
    Table.contains (subscriber.resolve own mapping policy).1.filters output =
      (Table.contains (desiredFilters own mapping subscriber.peerName subscriber.definition) output ||
        Table.contains subscriber.filters output) := by
  simp only [Subscriber.resolve, effective_of_not_prunes retained]
  exact contains_apply_retain _ _ _

theorem contains_resolve (subscriber : Subscriber) (own : Definition) (mapping : Mapping)
    (policy : FilterPolicy) {output : String}
    (desired : Table.contains
      (desiredFilters own mapping subscriber.peerName subscriber.definition) output = true) :
    Table.contains (subscriber.resolve own mapping policy).1.filters output = true := by
  by_cases pruned : prunes subscriber policy
  · rw [filters_resolve_prune pruned, desired]
  · rw [filters_resolve_retain pruned, desired, Bool.true_or]

/-- A subscriber before and after its filters were brought in line. -/
structure Resolved (a : Agent) (policy : FilterPolicy) (before after : Subscriber) : Prop where
  peerName : after.peerName = before.peerName
  definition : after.definition = before.definition
  mapping : after.mapping = before.mapping
  filters : after.filters = (before.resolve a.definition a.mapping policy).1.filters

variable {s : Surroundings} {r : Reactor}

theorem resolve_found {peer : String} {before : Subscriber}
    (found : r.subscribers.get? peer = some before) :
    ∃ after, (r.resolve s peer).reactor.subscribers = r.subscribers.insert peer after ∧
      Resolved r.agent r.settings.filterPolicy before after := by
  unfold Reactor.resolve
  rw [found]
  dsimp only
  refine ⟨_, rfl, ?_⟩
  split
  · exact ⟨rfl, rfl, rfl, rfl⟩
  · exact ⟨rfl, rfl, rfl, rfl⟩

/-- A subscriber that has taken in a document is brought in line at once. -/
theorem resolve_taken (s : Surroundings) (r : Reactor) (peer : String) (next : Subscriber) :
    ∃ after subscribers,
      ({ r with subscribers := r.subscribers.insert peer next }.resolve s peer).reactor =
        { r with subscribers := subscribers } ∧
      subscribers.get? peer = some after ∧
        Resolved r.agent r.settings.filterPolicy next after := by
  obtain ⟨subscribers, same⟩ :=
    rewires_resolve (s := s) peer { r with subscribers := r.subscribers.insert peer next }
  have inserted : (r.subscribers.insert peer next).get? peer = some next := by
    rw [Table.get?_insert, if_pos rfl]
  obtain ⟨after, placed, resolved⟩ :=
    @resolve_found s { r with subscribers := r.subscribers.insert peer next } peer next inserted
  refine ⟨after, subscribers, same, ?_, resolved⟩
  have placed : subscribers = _ := (congrArg Reactor.subscribers same).symm.trans placed
  rw [placed, Table.get?_insert, if_pos rfl]

/-- A resolution touches the subscriber of its peer only. -/
theorem resolve_cases {peer other : String} {after : Subscriber}
    (found : (r.resolve s peer).reactor.subscribers.get? other = some after) :
    (other ≠ peer ∧ r.subscribers.get? other = some after) ∨
      other = peer ∧ ∃ before, r.subscribers.get? peer = some before ∧
        Resolved r.agent r.settings.filterPolicy before after := by
  cases present : r.subscribers.get? peer with
  | none =>
    unfold Reactor.resolve at found
    rw [present] at found
    refine .inl ⟨fun same => ?_, found⟩
    subst same
    rw [Reactor.idle, Reactor.tell, present] at found
    cases found
  | some before =>
    obtain ⟨resolvedOne, same, resolved⟩ := resolve_found (s := s) present
    rw [same, Table.get?_insert] at found
    split at found
    next equal =>
      cases found
      exact .inr ⟨equal.symm, before, rfl, resolved⟩
    next different => exact .inl ⟨Ne.symm different, found⟩

end Proofs.Resolution
end PeerMesh
