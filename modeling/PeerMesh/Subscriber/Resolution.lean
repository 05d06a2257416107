import PeerMesh.Subscriber.Basic

/-! Which outputs of a peer a subscriber should filter for, and how its filters are brought in line
with that. -/

namespace PeerMesh

/-- Whether a mapping element feeds a local input from an output of a peer: it targets the peer, the
peer has the output, the input exists, and its type accepts the output's. -/
def Element.resolves (e : Element) (own : Definition) (peerName : String)
    (peer : Definition) : Bool :=
  e.targets peerName &&
    match peer.output? e.output, own.input? e.input with
    | some output, some input => input.type.accepts output.type
    | _, _ => false

/-- The outputs of a peer that some element of the local mapping resolves to. Of a peer whose
definition is not known none is wanted. -/
def desiredFilters (own : Definition) (mapping : Mapping) (peerName : String)
    (peer : Option Definition) : NameSet :=
  match peer with
  | none => Table.empty
  | some peer =>
    NameSet.ofList
      ((mapping.elements.filter fun e => e.resolves own peerName peer).map (·.output))

structure FilterDelta where
  added : List String
  removed : List String
  /-- The resolution followed a wholesale replacement. -/
  reset : Bool
  deriving DecidableEq, Repr

namespace FilterDelta

def isEmpty (d : FilterDelta) : Bool := d.added.isEmpty && d.removed.isEmpty

/-- What the socket is told: first all that is added, then all that is removed. -/
def changes (d : FilterDelta) : List FilterChange :=
  d.added.map .subscribe ++ d.removed.map .unsubscribe

end FilterDelta

namespace Subscriber

/-- Adds the wanted filters and, when pruning, removes the others. -/
def apply (s : Subscriber) (desired : NameSet) (policy : FilterPolicy) :
    Subscriber × FilterDelta :=
  let added := desired.toList.filter fun o => !s.filters.contains o
  let removed := match policy with
    | .retain => []
    | .prune => s.filters.toList.filter fun o => !desired.contains o
  let filters := removed.foldl Table.erase (added.foldl NameSet.add s.filters)
  ({ s with filters := filters }, ⟨added, removed, false⟩)

/-- Brings the filters in line with what is wanted. After a wholesale replacement it prunes,
whatever the policy. -/
def resolve (s : Subscriber) (own : Definition) (mapping : Mapping) (policy : FilterPolicy) :
    Subscriber × FilterDelta :=
  let desired := desiredFilters own mapping s.peerName s.definition
  let (next, delta) := { s with resetPending := false }.apply desired
    (if s.resetPending then .prune else policy)
  (next, { delta with reset := s.resetPending })

end Subscriber
end PeerMesh
