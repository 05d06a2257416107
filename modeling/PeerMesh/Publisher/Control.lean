import PeerMesh.Subscriber.Basic

/-! The messages by which a subscriber changes its filters at the publisher: one word and the name
of an output. -/

namespace PeerMesh.FilterChange

def subscribeWord : Bytes := "SUB".toByteArray

def unsubscribeWord : Bytes := "UNSUB".toByteArray

def toFrames : FilterChange → List Bytes
  | .subscribe output => [subscribeWord, output.toByteArray]
  | .unsubscribe output => [unsubscribeWord, output.toByteArray]

/-- Whatever is not exactly a known word and a text is no change. -/
def ofFrames? : List Bytes → Option FilterChange
  | [word, name] =>
    match Text.Utf8.decode? name with
    | none => none
    | some output =>
      if word = subscribeWord then some (.subscribe output)
      else if word = unsubscribeWord then some (.unsubscribe output)
      else none
  | _ => none

def apply (filters : NameSet) : FilterChange → NameSet
  | .subscribe output => filters.add output
  | .unsubscribe output => filters.erase output

/-- Whether a change makes a difference. -/
def affects (filters : NameSet) : FilterChange → Bool
  | .subscribe output => !filters.contains output
  | .unsubscribe output => filters.contains output

end PeerMesh.FilterChange
