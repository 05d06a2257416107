import Mathlib.Data.List.Sort
import PeerMesh.Proofs.Resolution

/-! What a resolution changes, and what it tells the socket. The filters that are wanted and missing
are added and, when pruning, those that are there and not wanted are removed, each of them once; a
filter that stays is not told again. After that there is nothing left to change. -/

namespace PeerMesh

namespace Subscriber

/-- Makes the same change for one output after another, and collects what the socket is told. -/
def each (change : Subscriber → String → Subscriber × List FilterChange) :
    List String → Subscriber → Subscriber × List FilterChange
  | [], s => (s, [])
  | output :: outputs, s =>
    let (next, told) := change s output
    let (last, more) := each change outputs next
    (last, told ++ more)

/-- A resolution by single changes: every wanted output is subscribed to and, when pruning, every
other filter that is found then is unsubscribed from. -/
def resolveInTurn (s : Subscriber) (own : Definition) (mapping : Mapping) (policy : FilterPolicy) :
    Subscriber × List FilterChange :=
  let desired := desiredFilters own mapping s.peerName s.definition
  let (next, told) := each subscribe desired.toList { s with resetPending := false }
  match if s.resetPending then .prune else policy with
  | .retain => (next, told)
  | .prune =>
    let stale := next.filters.toList.filter fun output => !desired.contains output
    let (last, more) := each unsubscribe stale next
    (last, told ++ more)

end Subscriber

/-- The outputs with a property, in the order of their names and without repetition. -/
structure Lists (outputs : List String) (property : String → Prop) : Prop where
  ordered : outputs.Pairwise (· < ·)
  mem_iff : ∀ output, output ∈ outputs ↔ property output

namespace Proofs.FilterDeltas
open Resolution

variable {s : Subscriber} {property : String → Prop} {own : Definition} {mapping : Mapping}
  {policy : FilterPolicy}

theorem lists_unique {one two : List String} (first : Lists one property)
    (second : Lists two property) : one = two := by
  have : Std.Irrefl ((· < ·) : String → String → Prop) := ⟨String.lt_irrefl⟩
  refine first.ordered.eq_of_mem_iff second.ordered fun output => ?_
  exact (first.mem_iff output).trans (second.mem_iff output).symm

theorem lists_toList (names : NameSet) :
    Lists names.toList fun output => Table.contains names output = true where
  ordered := Table.keys_sorted names
  mem_iff _ := NameSet.mem_toList

theorem lists_filter {outputs : List String} (listed : Lists outputs property)
    (keep : String → Bool) :
    Lists (outputs.filter keep) fun output => property output ∧ keep output = true where
  ordered := listed.ordered.filter keep
  mem_iff output := by rw [List.mem_filter, listed.mem_iff]

theorem nodup_of_lists {outputs : List String} (listed : Lists outputs property) :
    outputs.Nodup := by
  apply listed.ordered.imp
  intro one two less same
  exact String.lt_irrefl _ (same ▸ less)

theorem each_subscribe {outputs : List String} (distinct : outputs.Nodup) (s : Subscriber) :
    Subscriber.each Subscriber.subscribe outputs s =
      ({ s with filters := outputs.foldl NameSet.add s.filters },
        (outputs.filter fun output => !s.filters.contains output).map .subscribe) := by
  induction outputs generalizing s with
  | nil => rfl
  | cons first outputs ih =>
    obtain ⟨absent, distinct⟩ := List.nodup_cons.mp distinct
    have others : (outputs.filter fun output => !(s.filters.add first).contains output) =
        outputs.filter fun output => !s.filters.contains output := by
      refine List.filter_congr fun output member => ?_
      have different : first ≠ output := fun same => absent (same ▸ member)
      rw [NameSet.contains_add, decide_eq_false different, Bool.false_or]
    cases present : Table.contains s.filters first with
    | true =>
      have kept : s.filters.add first = s.filters := NameSet.change_eq_self present
      have told : Subscriber.subscribe s first = (s, []) := if_pos present
      rw [Subscriber.each, told]
      dsimp only
      rw [ih distinct, List.foldl_cons, kept, List.filter_cons_of_neg (by simp [present])]
      rfl
    | false =>
      have told : Subscriber.subscribe s first =
          ({ s with filters := s.filters.add first }, [.subscribe first]) :=
        if_neg (by simp [present])
      rw [Subscriber.each, told]
      dsimp only
      rw [ih distinct, others, List.filter_cons_of_pos (by simp [present])]
      rfl

theorem each_unsubscribe {outputs : List String} (distinct : outputs.Nodup) (s : Subscriber)
    (present : ∀ output ∈ outputs, Table.contains s.filters output = true) :
    Subscriber.each Subscriber.unsubscribe outputs s =
      ({ s with filters := outputs.foldl Table.erase s.filters }, outputs.map .unsubscribe) := by
  induction outputs generalizing s with
  | nil => rfl
  | cons first outputs ih =>
    obtain ⟨absent, distinct⟩ := List.nodup_cons.mp distinct
    have told : Subscriber.unsubscribe s first =
        ({ s with filters := s.filters.erase first }, [.unsubscribe first]) :=
      if_pos (present first List.mem_cons_self)
    have still : ∀ output ∈ outputs, Table.contains (s.filters.erase first) output = true := by
      intro output member
      have different : first ≠ output := fun same => absent (same ▸ member)
      rw [Table.contains_erase, decide_eq_false different]
      exact present output (List.mem_cons_of_mem _ member)
    rw [Subscriber.each, told]
    dsimp only
    rw [ih distinct _ still]
    rfl

/-- Names that are there need not be added. -/
theorem foldl_add_missing (names : List String) (filters : NameSet) :
    (names.filter fun name => !filters.contains name).foldl NameSet.add filters =
      names.foldl NameSet.add filters := by
  refine NameSet.ext_contains fun name => ?_
  simp only [NameSet.contains_foldl_add, List.mem_filter, Bool.not_eq_true']
  cases Table.contains filters name <;> simp

/-- What is added is wanted, so that it is not removed again. -/
theorem stale_foldl_add (filters desired : NameSet) :
    (NameSet.toList (desired.toList.foldl NameSet.add filters)).filter
        (fun output => !desired.contains output) =
      filters.toList.filter fun output => !desired.contains output := by
  have after := lists_filter (lists_toList (desired.toList.foldl NameSet.add filters))
    fun output => !desired.contains output
  have before := lists_filter (lists_toList filters) fun output => !desired.contains output
  refine lists_unique after ⟨before.ordered, fun output => ?_⟩
  rw [before.mem_iff, NameSet.contains_foldl_add, Bool.or_eq_true, decide_eq_true_iff,
    NameSet.mem_toList]
  cases Table.contains desired output <;> simp

/-- A resolution tells the socket what the single changes tell it. -/
theorem resolveInTurn_eq (s : Subscriber) (own : Definition) (mapping : Mapping)
    (policy : FilterPolicy) :
    s.resolveInTurn own mapping policy =
      ((s.resolve own mapping policy).1, (s.resolve own mapping policy).2.changes) := by
  unfold Subscriber.resolveInTurn Subscriber.resolve Subscriber.apply FilterDelta.changes
  dsimp only
  generalize desiredFilters own mapping s.peerName s.definition = desired
  generalize (if s.resetPending then FilterPolicy.prune else policy) = effective
  rw [each_subscribe (nodup_of_lists (lists_toList desired)), foldl_add_missing]
  cases effective with
  | retain => simp only [List.map_nil, List.append_nil, List.foldl_nil]
  | prune =>
    have stale := lists_filter (lists_toList s.filters) fun output => !desired.contains output
    have present : ∀ output ∈ s.filters.toList.filter fun output => !desired.contains output,
        Table.contains (desired.toList.foldl NameSet.add s.filters) output = true := by
      intro output member
      obtain ⟨there, -⟩ := (stale.mem_iff output).mp member
      rw [NameSet.contains_foldl_add, there, Bool.or_true]
    dsimp only
    rw [stale_foldl_add, each_unsubscribe (nodup_of_lists stale) _ present]

theorem lists_added (s : Subscriber) (own : Definition) (mapping : Mapping)
    (policy : FilterPolicy) :
    Lists (s.resolve own mapping policy).2.added fun output =>
      Table.contains (desiredFilters own mapping s.peerName s.definition) output = true ∧
        Table.contains s.filters output = false := by
  have listed := lists_filter
    (lists_toList (desiredFilters own mapping s.peerName s.definition))
    fun output => !s.filters.contains output
  simp only [Bool.not_eq_true'] at listed
  exact listed

theorem lists_removed (s : Subscriber) (own : Definition) (mapping : Mapping)
    (policy : FilterPolicy) :
    Lists (s.resolve own mapping policy).2.removed fun output =>
      prunes s policy ∧ Table.contains s.filters output = true ∧
        Table.contains (desiredFilters own mapping s.peerName s.definition) output = false := by
  by_cases pruned : prunes s policy
  · have removed : (s.resolve own mapping policy).2.removed = s.filters.toList.filter fun output =>
        !(desiredFilters own mapping s.peerName s.definition).contains output := by
      simp only [Subscriber.resolve, Subscriber.apply, effective_of_prunes pruned]
    have listed := lists_filter (lists_toList s.filters) fun output =>
      !(desiredFilters own mapping s.peerName s.definition).contains output
    simp only [Bool.not_eq_true'] at listed
    simpa only [removed, pruned, true_and] using listed
  · have removed : (s.resolve own mapping policy).2.removed = [] := by
      simp only [Subscriber.resolve, Subscriber.apply, effective_of_not_prunes pruned]
    rw [removed]
    exact ⟨.nil, fun output => by simp [pruned]⟩

/-- Filters that are in line with what is wanted stay as they are. -/
theorem apply_settled {desired : NameSet}
    (wanted : ∀ output, Table.contains desired output = true →
      Table.contains s.filters output = true)
    (exact : policy = .prune → s.filters = desired) :
    s.apply desired policy = (s, ⟨[], [], false⟩) := by
  have added : (desired.toList.filter fun output => !s.filters.contains output) = [] := by
    refine List.filter_eq_nil_iff.mpr fun output member => ?_
    rw [wanted output (NameSet.mem_toList.mp member)]
    exact Bool.false_ne_true
  cases policy with
  | retain =>
    rw [Subscriber.apply, added]
    rfl
  | prune =>
    have removed : (s.filters.toList.filter fun output => !desired.contains output) = [] := by
      rw [← exact rfl] at added ⊢
      exact added
    simp only [Subscriber.apply, added, removed]
    rfl

/-- A second resolution finds nothing to change. -/
theorem resolve_resolve (s : Subscriber) (own : Definition) (mapping : Mapping)
    (policy : FilterPolicy) :
    (s.resolve own mapping policy).1.resolve own mapping policy =
      ((s.resolve own mapping policy).1, ⟨[], [], false⟩) := by
  calc (s.resolve own mapping policy).1.resolve own mapping policy
      = (s.resolve own mapping policy).1.apply
          (desiredFilters own mapping s.peerName s.definition) policy := rfl
    _ = ((s.resolve own mapping policy).1, ⟨[], [], false⟩) := by
      apply apply_settled
      · intro output desired
        exact contains_resolve s own mapping policy desired
      · intro prune
        exact filters_resolve_prune (.inr prune) own mapping

/-- A resolution is exact: it adds the filters that are wanted and missing and, when it prunes,
removes those that are not wanted, and tells the socket of these only, first of what is added. Then
nothing is left to be done. -/
theorem resolve_exact (s : Subscriber) (own : Definition) (mapping : Mapping)
    (policy : FilterPolicy) :
    let desired := desiredFilters own mapping s.peerName s.definition
    let after := (s.resolve own mapping policy).1
    let delta := (s.resolve own mapping policy).2
    (∀ output, Table.contains desired output = true ↔
      ∃ peer, s.definition = some peer ∧ ∃ e ∈ mapping.elements,
        e.targets s.peerName = true ∧ e.output = output ∧
          ∃ there here, peer.output? e.output = some there ∧ own.input? e.input = some here ∧
            here.type.accepts there.type = true) ∧
    after = { s with filters := after.filters, resetPending := false } ∧
    (∀ output, Table.contains after.filters output = true ↔
      Table.contains desired output = true ∨
        ¬(s.resetPending = true ∨ policy = .prune) ∧ Table.contains s.filters output = true) ∧
    Lists delta.added (fun output =>
      Table.contains desired output = true ∧ Table.contains s.filters output = false) ∧
    Lists delta.removed (fun output => (s.resetPending = true ∨ policy = .prune) ∧
      Table.contains s.filters output = true ∧ Table.contains desired output = false) ∧
    delta.reset = s.resetPending ∧
    s.resolveInTurn own mapping policy =
      (after, delta.added.map .subscribe ++ delta.removed.map .unsubscribe) ∧
    after.resolve own mapping policy = (after, ⟨[], [], false⟩) ∧
    after.resolveInTurn own mapping policy = (after, []) := by
  intro desired after delta
  refine ⟨fun output => ?_, rfl, fun output => ?_, lists_added s own mapping policy,
    lists_removed s own mapping policy, rfl, resolveInTurn_eq s own mapping policy,
    resolve_resolve s own mapping policy, ?_⟩
  · rw [contains_desiredFilters]
    simp only [Option.any_eq_true, resolves_iff]
    constructor
    · rintro ⟨e, member, ⟨peer, known, targets, accepted⟩, named⟩
      exact ⟨peer, known, e, member, targets, named, accepted⟩
    · rintro ⟨peer, known, e, member, targets, named, accepted⟩
      exact ⟨e, member, ⟨peer, known, targets, accepted⟩, named⟩
  · by_cases pruned : prunes s policy
    · have filters : after.filters = desired := filters_resolve_prune pruned own mapping
      rw [filters]
      exact ⟨.inl, fun wanted => wanted.resolve_right fun kept => kept.1 pruned⟩
    · have filters := filters_resolve_retain pruned own mapping output
      rw [filters, Bool.or_eq_true]
      exact or_congr_right (and_iff_right pruned).symm
  · rw [resolveInTurn_eq, resolve_resolve]
    rfl

private def brook : Definition :=
  { Definition.new "brook" with
    outputs := Table.ofList [("depth", .new "depth" .double), ("flow", .new "flow" .integer)] }

private def weir : Definition :=
  { Definition.new "weir" with inputs := Table.ofList [("level", .new "level" .integer)] }

private def weirMapping : Mapping :=
  { Mapping.new "weir" with elements := [⟨"level", "*", "depth"⟩, ⟨"level", "brook", "flow"⟩] }

/-- A filter that stays is not told again, and one that is not wanted goes although filters are to be
retained, since the brook's definition has just been replaced. -/
example : Subscriber.resolveInTurn { Subscriber.new "b" "brook" with
      definition := some brook, filters := NameSet.ofList ["flow", "old"], resetPending := true }
    weir weirMapping .retain =
  ({ Subscriber.new "b" "brook" with
      definition := some brook, filters := NameSet.ofList ["depth", "flow"] },
    [.subscribe "depth", .unsubscribe "old"]) := by
  decide +kernel

end Proofs.FilterDeltas
end PeerMesh
