import PeerMesh.Definition.Document
import PeerMesh.Mapping.Document

/-! Subscribers: the receiving side for one peer. A subscriber holds the outputs it filters for,
what the peer last told of its definition and mapping, and when to ask for the current outputs.
Every change of the filters is passed on to the subscription's socket. -/

namespace PeerMesh

/-- A change of the filters, as the socket is told. -/
inductive FilterChange where
  | subscribe (output : String)
  | unsubscribe (output : String)
  deriving DecidableEq, Repr

/-- Whether filters that nobody wants any more are kept until a wholesale replacement. -/
inductive FilterPolicy where
  | retain
  | prune
  deriving DecidableEq, Repr

structure Subscriber where
  peerId : String
  peerName : String
  filters : NameSet
  definition : Option Definition
  mapping : Option Mapping
  /-- When to ask the peer for its outputs, in milliseconds. -/
  outputsRequestAt : Option Nat
  /-- The next resolution drops every filter it does not want, whatever the policy. -/
  resetPending : Bool
  deriving DecidableEq

namespace Subscriber

def new (peerId peerName : String) : Subscriber where
  peerId := peerId
  peerName := peerName
  filters := Table.empty
  definition := none
  mapping := none
  outputsRequestAt := none
  resetPending := false

def subscribe (s : Subscriber) (output : String) : Subscriber × List FilterChange :=
  if s.filters.contains output then (s, [])
  else ({ s with filters := s.filters.add output }, [.subscribe output])

def unsubscribe (s : Subscriber) (output : String) : Subscriber × List FilterChange :=
  if s.filters.contains output then
    ({ s with filters := s.filters.erase output }, [.unsubscribe output])
  else (s, [])

def clearFilters (s : Subscriber) : Subscriber × List FilterChange :=
  ({ s with filters := Table.empty }, s.filters.toList.map .unsubscribe)

/-- Takes in the peer's definition in place of the one before. The next resolution keeps only the
filters that it supports. -/
def applyDefinition (s : Subscriber) (text : String) : Except ModelFault Subscriber :=
  (Definition.ofText text).map fun d => { s with definition := some d, resetPending := true }

def applyMapping (s : Subscriber) (text : String) : Except ModelFault Subscriber :=
  (Mapping.ofText text).map fun m => { s with mapping := some m }

def markReset (s : Subscriber) : Subscriber := { s with resetPending := true }

/-- Sets the time to ask for the outputs, in place of any other. -/
def armOutputsRequest (s : Subscriber) (time : Nat) : Subscriber :=
  { s with outputsRequestAt := some time }

def isDue (s : Subscriber) (now : Nat) : Bool :=
  match s.outputsRequestAt with
  | some time => time ≤ now
  | none => false

/-- Takes the request back, if it is due. -/
def takeDueRequest (s : Subscriber) (now : Nat) : Subscriber × Bool :=
  if s.isDue now then ({ s with outputsRequestAt := none }, true) else (s, false)

end Subscriber
end PeerMesh
