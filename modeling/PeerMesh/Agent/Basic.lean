import PeerMesh.Definition.Document
import PeerMesh.Mapping.Document

/-! The state of an agent that its host and its reactor share. Changes to the definition and to the
mapping are noted, so that they are announced to the peers by the next timer; a mapping that was
replaced as a whole is noted apart, since the filters then have to be rebuilt. -/

namespace PeerMesh

structure Agent where
  name : String
  definition : Definition
  mapping : Mapping
  muted : Bool
  frozen : Bool
  canBeFrozen : Bool
  /-- The agent's state, in the host's own words. -/
  state : String
  logFilePath : Option String
  definitionPath : Option String
  mappingPath : Option String
  /-- The definition has changed since it was last announced. -/
  definitionDirty : Bool
  /-- The mapping has changed since it was last announced. -/
  mappingDirty : Bool
  mappingReplaced : Bool
  deriving DecidableEq

namespace Agent

def new (name : String) : Agent where
  name := name
  definition := Definition.new name
  mapping := Mapping.new name
  muted := false
  frozen := false
  canBeFrozen := false
  state := ""
  logFilePath := none
  definitionPath := none
  mappingPath := none
  definitionDirty := false
  mappingDirty := false
  mappingReplaced := false

def replaceDefinition (a : Agent) (definition : Definition) : Agent :=
  { a with definition := definition, definitionDirty := true }

def replaceMapping (a : Agent) (mapping : Mapping) : Agent :=
  { a with mapping := mapping, mappingDirty := true, mappingReplaced := true }

/-- The definition is about to be announced. -/
def clearDefinitionDirty (a : Agent) : Agent := { a with definitionDirty := false }

/-- The mapping is about to be announced. -/
def clearMappingDirty (a : Agent) : Agent :=
  { a with mappingDirty := false, mappingReplaced := false }

end Agent
end PeerMesh
