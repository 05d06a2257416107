import PeerMesh.Reactor.Reception

/-! How a reactor comes into being, what it reacts to, and how it ends. -/

namespace PeerMesh

structure ProcessIdentity where
  pid : String
  commandLine : String
  hostName : Option String
  deriving DecidableEq, Repr

inductive Stimulus where
  | presence (event : Presence.Event)
  | published (peer : String) (message : DataMessage)
  | control (control : Control)
  | definitionTimer
  | mappingTimer
  | outputsTimer
  | expired
  | presenceLost
  deriving DecidableEq

namespace Reactor

/-- What a node announces of its agent. -/
def announcements (agent : Agent) (process : ProcessIdentity) (publisher : PublisherAddress) :
    List Presence.Request :=
  let header (h : Header) (value : String) : Presence.Request := .setHeader h.key value
  [.setName agent.name, header .publisher (toString publisher.port)] ++
  (publisher.ipcPath.map (header .ipc)).toList ++
  [header .canBeFrozen (if agent.canBeFrozen then "1" else "0"), header .pid process.pid,
    header .commandLine process.commandLine] ++
  (process.hostName.map (header .hostName)).toList

/-- Announces the agent, starts its node and joins the private channel. A node that cannot join is
stopped again. -/
def setup (s : Surroundings) (agent : Agent) (settings : ReactorSettings)
    (nodeId hostAddress : String) (process : ProcessIdentity)
    (publisher : Except FileFault PublisherAddress) :
    List Effect × Except AgentFault Reactor :=
  match publisher with
  | .error fault => ([], .error (.publisher fault))
  | .ok address =>
    let announced := (announcements agent process address).map Effect.request
    match s.refusal? .start with
    | some fault => (announced ++ [.request .start], .error (.presence fault))
    | none =>
      let join : Presence.Request := .join privateChannel
      let joining := announced ++ [.request .start, .request join]
      match s.refusal? join with
      | some fault => (joining ++ [.request .stop], .error (.presence fault))
      | none =>
        let r : Reactor := ⟨agent, settings, hostAddress, Directory.empty, Table.empty, none⟩
        let log := r.networkLog "runtime" .info "agent_started" (some hostAddress)
          (some s!"name={agent.name} node_id={nodeId} publisher={address.port}")
        (joining ++ [log], .ok r)

def react (s : Surroundings) (r : Reactor) : Stimulus → Reaction
  | .presence event => r.handlePresence s event
  | .published peer message => r.handlePublished peer message
  | .control control => r.handleControl s control
  | .definitionTimer => r.announceDefinition s
  | .mappingTimer => r.announceMapping s
  | .outputsTimer => r.requestDueOutputs s
  | .expired => (r.requestStop .expired).idle
  | .presenceLost => (r.requestStop .presenceLost).idle

/-- Ends a reactor: it drops its subscribers, stops its node, and tells the host. Stopping without a
reason counts as asked for. -/
def teardown (r : Reactor) : List Effect :=
  let reason := r.stopReason.getD .requested
  let dropped := (r.forEach r.subscribers.keys dropSubscriber).effects
  let log := r.networkLog "runtime" .info "agent_stopped" none
    (some s!"name={r.agent.name} reason={reason.display}")
  let told := match reason with
    | .forced peer =>
      .notify (.forcedStop peer) ::
        if r.settings.interruptOnForcedStop then [.interrupt] else []
    | _ => []
  dropped ++ [.request .stop, log] ++ told ++ [.notify .stopped]

end Reactor
end PeerMesh
