import Mathlib
import DagMl.Oof.Coverage
import DagMl.Relation.Basic

/-!
# Graph specifications

`GraphSpec.validate` checks the nodes, then the edges one after the other,
building adjacency and in-degrees as it goes, and hands both to the cycle
check. `Wellformed` is what the first part decides, whatever the order of
the two lists.
-/

namespace DagMl

open Checked

inductive PortKind
  | data
  | target
  | prediction
  | artifact
  | metric
  | control
  deriving DecidableEq

/-- `{:?}`. -/
def PortKind.debug : PortKind → String
  | .data => "Data"
  | .target => "Target"
  | .prediction => "Prediction"
  | .artifact => "Artifact"
  | .metric => "Metric"
  | .control => "Control"

/-- `{:?}`. -/
def EntityUnitLevel.debug : EntityUnitLevel → String
  | .physicalSample => "PhysicalSample"
  | .sourceSample => "SourceSample"
  | .observation => "Observation"
  | .combo => "Combo"

inductive PortCardinality
  | one
  | many
  | optional
  deriving DecidableEq

inductive NodeKind
  | transform
  | yTransform
  | split
  | model
  | fork
  | map
  | featureJoin
  | predictionJoin
  | mixedJoin
  | sourceJoin
  | tag
  | exclude
  | augmentation
  | adapter
  | aggregator
  | generator
  | restructure
  | tuner
  | subgraph
  | chart
  deriving DecidableEq

structure PortSpec where
  name : String
  kind : PortKind
  representation : Option String
  cardinality : PortCardinality
  unitLevel : Option EntityUnitLevel
  alignmentKey : Option String
  targetLevel : Option EntityUnitLevel

structure PortSchema where
  inputs : List PortSpec
  outputs : List PortSpec

structure PortRef where
  nodeId : NodeId
  portName : String
  deriving DecidableEq

structure RelationContract where
  relationFingerprint : Option String
  required : Bool

structure EdgeContract where
  kind : PortKind
  representation : Option String
  unitLevel : Option EntityUnitLevel
  alignmentKey : Option String
  targetLevel : Option EntityUnitLevel
  relationContract : Option RelationContract
  allowsBroadcast : Bool
  requiresOof : Bool
  requiresFoldAlignment : Bool

/-- `EdgeContract::new`. -/
def EdgeContract.new (kind : PortKind) (representation : Option String) : EdgeContract where
  kind := kind
  representation := representation
  unitLevel := none
  alignmentKey := none
  targetLevel := none
  relationContract := none
  allowsBroadcast := false
  requiresOof := false
  requiresFoldAlignment := false

structure EdgeSpec where
  source : PortRef
  target : PortRef
  contract : EdgeContract

structure GraphInterface where
  inputs : List PortSpec
  outputs : List PortSpec

structure NodeSpec where
  id : NodeId
  kind : NodeKind
  operator : Option JsonValue
  ports : PortSchema
  metadata : BTreeMap String JsonValue

structure GraphSpec where
  id : String
  interface : GraphInterface
  nodes : List NodeSpec
  edges : List EdgeSpec
  searchSpaceFingerprint : Option String
  metadata : BTreeMap String JsonValue

-- ---------------------------------------------------------------------------
-- The refit contract in a node's metadata
-- ---------------------------------------------------------------------------

def stackingOofRefitContractMetadataKey : String := "stacking_oof_refit_contract"

def StackingOofRefitPolicy.ofName : String → Option StackingOofRefitPolicy
  | "require_full_coverage" => some .requireFullCoverage
  | "cv_only" => some .cvOnly
  | "skip_refit_on_incomplete_oof" => some .skipRefitOnIncompleteOof
  | _ => none

/-- A unit variant: its name, or an object that maps its name to `null`. -/
def StackingOofRefitPolicy.fromValue : JsonValue → Option StackingOofRefitPolicy
  | .string name => ofName name
  | .object [(name, .null)] => ofName name
  | _ => none

/-- The derived `Deserialize`: an object, whose other keys are ignored, or the
list of the fields. A missing policy takes the default. -/
def StackingOofRefitContract.fromValue : JsonValue → Option StackingOofRefitContract
  | .object entries =>
    match entries.find? (·.1 = "policy") with
    | none => some ⟨.requireFullCoverage⟩
    | some (_, value) => (StackingOofRefitPolicy.fromValue value).map (⟨·⟩)
  | .array [] => some ⟨.requireFullCoverage⟩
  | .array [value] => (StackingOofRefitPolicy.fromValue value).map (⟨·⟩)
  | _ => none

/-- The decoder's own words at the end of the message are left out. -/
def StackingOofRefitContract.fromMetadata (metadata : BTreeMap String JsonValue) :
    Result StackingOofRefitContract :=
  match metadata[stackingOofRefitContractMetadataKey]? with
  | none => .ok ⟨.requireFullCoverage⟩
  | some value => need (fromValue value) (.oofValidation
      s!"`{stackingOofRefitContractMetadataKey}` must be an object with policy `require_full_coverage`, `cv_only` or `skip_refit_on_incomplete_oof`")

-- ---------------------------------------------------------------------------
-- Ports
-- ---------------------------------------------------------------------------

def validateOptionalNonEmpty (label : String) (value : Option String) : Result Unit :=
  whenSome value fun value =>
    refuseIf (isBlank value) (.graphValidation s!"{label} must not be empty")

def isIdentifier (value : String) : Bool :=
  !value.isEmpty && decide (value.utf8ByteSize ≤ 128) && value.toList.all isIdentifierChar

def isAsciiHexdigit (c : Char) : Bool :=
  c.isDigit || ('a' ≤ c && c ≤ 'f') || ('A' ≤ c && c ≤ 'F')

def validateSha256 (owner field value : String) : Result Unit :=
  refuseIf (¬(value.utf8ByteSize = 64 ∧ value.toList.all isAsciiHexdigit))
    (.graphValidation s!"{owner} has invalid {field}")

def validatePortContract (nodeId : NodeId) (direction : String) (port : PortSpec) : Result Unit := do
  validateOptionalNonEmpty s!"{direction} port `{port.name}` representation" port.representation
  validateOptionalNonEmpty s!"{direction} port `{port.name}` alignment_key" port.alignmentKey
  whenSome port.alignmentKey fun key => refuseIf (!isIdentifier key) (.graphValidation
    s!"{direction} port `{port.name}` on node `{nodeId}` has invalid alignment_key")

def validatePort (nodeId : NodeId) (direction : String) (seen : Finset String) (port : PortSpec) :
    Result (Finset String) := do
  refuseIf (isBlank port.name)
    (.graphValidation s!"{direction} port on node `{nodeId}` has an empty name")
  refuseIf (port.name ∈ seen)
    (.graphValidation s!"duplicate {direction} port `{port.name}` on node `{nodeId}`")
  validatePortContract nodeId direction port
  pure (insert port.name seen)

def validateUniquePorts (nodeId : NodeId) (direction : String) (ports : List PortSpec) :
    Result Unit := do
  let _ ← loop (validatePort nodeId direction) ∅ ports
  pure ()

def findPort (ports : List PortSpec) (name : String) : Option PortSpec :=
  ports.find? (·.name = name)

-- ---------------------------------------------------------------------------
-- Edge contracts
-- ---------------------------------------------------------------------------

def validateRelationContract (label : String) (contract : RelationContract) : Result Unit :=
  match contract.relationFingerprint with
  | some fingerprint => validateSha256 label "relation_fingerprint" fingerprint
  | none => refuseIf contract.required (.graphValidation
      s!"{label} relation_contract is required but has no relation_fingerprint")

/-- A value that is declared on both sides must be the same on both. -/
def agreeWhenDeclared [DecidableEq V] (left right : Option V) (tolerated : Bool)
    (e : V → V → DagMlError) : Result Unit :=
  whenSome left fun l => whenSome right fun r => refuseIf (l ≠ r ∧ !tolerated) (e l r)

def validateEdgeUnitAlignment (label : String) (edge : EdgeSpec) (sourcePort targetPort : PortSpec) :
    Result Unit := do
  let contract := edge.contract
  each [("source", sourcePort.unitLevel), ("target", targetPort.unitLevel)] fun (endpoint, unit) =>
    agreeWhenDeclared contract.unitLevel unit contract.allowsBroadcast fun contractUnit unit =>
      .graphValidation
        s!"{label} {endpoint} unit {unit.debug} does not match edge unit {contractUnit.debug}"
  agreeWhenDeclared sourcePort.unitLevel targetPort.unitLevel contract.allowsBroadcast
    fun sourceUnit targetUnit => .graphValidation
      s!"{label} joins incompatible unit levels {sourceUnit.debug} and {targetUnit.debug}"
  agreeWhenDeclared sourcePort.targetLevel targetPort.targetLevel false
    fun sourceTarget targetTarget => .graphValidation
      s!"{label} joins incompatible target levels {sourceTarget.debug} and {targetTarget.debug}"
  each [("source", sourcePort.targetLevel), ("target", targetPort.targetLevel)]
    fun (endpoint, targetLevel) =>
      agreeWhenDeclared contract.targetLevel targetLevel false fun contractTarget targetLevel =>
        .graphValidation
          s!"{label} {endpoint} target level {targetLevel.debug} does not match edge target_level {contractTarget.debug}"
  agreeWhenDeclared sourcePort.alignmentKey targetPort.alignmentKey contract.allowsBroadcast
    fun sourceAlignment targetAlignment => .graphValidation
      s!"{label} joins incompatible alignment keys `{sourceAlignment}` and `{targetAlignment}`"
  each [("source", sourcePort.alignmentKey), ("target", targetPort.alignmentKey)]
    fun (endpoint, alignment) =>
      agreeWhenDeclared contract.alignmentKey alignment contract.allowsBroadcast
        fun edgeAlignment alignment => .graphValidation
          s!"{label} {endpoint} alignment `{alignment}` does not match edge alignment `{edgeAlignment}`"
  refuseIf (contract.allowsBroadcast ∧ contract.alignmentKey = none ∧
      sourcePort.alignmentKey = none ∧ targetPort.alignmentKey = none)
    (.graphValidation s!"{label} allows broadcast but declares no alignment_key")

def nonPhysical (unitLevel : Option EntityUnitLevel) : Bool :=
  unitLevel.any (· ≠ .physicalSample)

def relationAwareEdge (edge : EdgeSpec) (sourcePort targetPort : PortSpec) : Bool :=
  edge.contract.relationContract.isSome || edge.contract.allowsBroadcast ||
    edge.contract.alignmentKey.isSome || nonPhysical edge.contract.unitLevel ||
    nonPhysical edge.contract.targetLevel || nonPhysical sourcePort.unitLevel ||
    nonPhysical sourcePort.targetLevel || nonPhysical targetPort.unitLevel ||
    nonPhysical targetPort.targetLevel || sourcePort.alignmentKey.isSome ||
    targetPort.alignmentKey.isSome

def hasEffectiveUnitLevel (edge : EdgeSpec) (sourcePort targetPort : PortSpec) : Bool :=
  edge.contract.unitLevel.isSome || sourcePort.unitLevel.isSome || targetPort.unitLevel.isSome

def hasEffectiveAlignmentKey (edge : EdgeSpec) (sourcePort targetPort : PortSpec) : Bool :=
  edge.contract.alignmentKey.isSome || sourcePort.alignmentKey.isSome ||
    targetPort.alignmentKey.isSome

/-- `{source}` -> `{target}`, as messages name an edge. -/
def EdgeSpec.label (self : EdgeSpec) : String :=
  s!"edge `{self.source.nodeId}.{self.source.portName}` -> `{self.target.nodeId}.{self.target.portName}`"

def validateEdgeContract (edge : EdgeSpec) (sourcePort targetPort : PortSpec) : Result Unit := do
  let label := edge.label
  validateOptionalNonEmpty s!"{label} representation" edge.contract.representation
  validateOptionalNonEmpty s!"{label} alignment_key" edge.contract.alignmentKey
  whenSome edge.contract.alignmentKey fun key =>
    refuseIf (!isIdentifier key) (.graphValidation s!"{label} has invalid alignment_key")
  whenSome edge.contract.relationContract (validateRelationContract label)
  validateEdgeUnitAlignment label edge sourcePort targetPort
  checkIf (relationAwareEdge edge sourcePort targetPort) do
    let relationFingerprint := edge.contract.relationContract.bind (·.relationFingerprint)
    refuseIf (relationFingerprint = none)
      (.graphValidation s!"{label} is relation-aware but has no relation_fingerprint")
    refuseIf (!hasEffectiveUnitLevel edge sourcePort targetPort)
      (.graphValidation s!"{label} is relation-aware but has no unit_level metadata")
    refuseIf (!hasEffectiveAlignmentKey edge sourcePort targetPort)
      (.graphValidation s!"{label} is relation-aware but has no alignment_key")

-- ---------------------------------------------------------------------------
-- The structural part of `validate`
-- ---------------------------------------------------------------------------

/-- The ends of the arcs out of each node, and the number of arcs into it. -/
structure ArcMaps where
  adjacency : BTreeMap NodeId (List NodeId)
  indegree : BTreeMap NodeId Nat

/-- No arc yet: every node is there, with nothing. -/
def ArcMaps.start (nodes : List NodeId) : ArcMaps where
  adjacency := BTreeMap.tabulate nodes fun _ => []
  indegree := BTreeMap.tabulate nodes fun _ => 0

/-- The two `get_mut(..).expect(..)` of an edge; `when` ends both messages. -/
def ArcMaps.add (self : ArcMaps) (when : String) (edge : EdgeSpec) : Result ArcMaps := do
  let next ← need self.adjacency[edge.source.nodeId]? (.panicked s!"source exists{when}")
  let degree ← need self.indegree[edge.target.nodeId]? (.panicked s!"target exists{when}")
  pure {
    adjacency := self.adjacency.insert edge.source.nodeId (next ++ [edge.target.nodeId])
    indegree := self.indegree.insert edge.target.nodeId (degree + 1) }

def graphInterfaceId : NodeId := ⟨"graph:interface", by decide⟩

def NodeSpec.validate (self : NodeSpec) : Result Unit := do
  let _ ← (StackingOofRefitContract.fromMetadata self.metadata).mapError fun _ => .graphValidation
    s!"node `{self.id}` carries invalid `{stackingOofRefitContractMetadataKey}` metadata"
  validateUniquePorts self.id "input" self.ports.inputs
  validateUniquePorts self.id "output" self.ports.outputs

def addNode (nodes : BTreeMap NodeId NodeSpec) (node : NodeSpec) :
    Result (BTreeMap NodeId NodeSpec) := do
  refuseIf (node.id ∈ nodes) (.graphValidation s!"duplicate node id `{node.id}`")
  node.validate
  pure (nodes.insert node.id node)

/-- What the loop over the edges threads; `inbound` lists the targets that the
source counts. -/
structure EdgeProgress where
  edgeKeys : Finset (PortRef × PortRef)
  inbound : List PortRef
  maps : ArcMaps

/-- The checks of one edge that look at nothing but the nodes. -/
def checkEdge (nodes : BTreeMap NodeId NodeSpec) (edge : EdgeSpec) :
    Result (PortSpec × PortSpec) := do
  let source ← need nodes[edge.source.nodeId]?
    (.graphValidation s!"edge source node `{edge.source.nodeId}` does not exist")
  let target ← need nodes[edge.target.nodeId]?
    (.graphValidation s!"edge target node `{edge.target.nodeId}` does not exist")
  let sourcePort ← need (findPort source.ports.outputs edge.source.portName) (.graphValidation
    s!"source port `{edge.source.nodeId}.{edge.source.portName}` does not exist")
  let targetPort ← need (findPort target.ports.inputs edge.target.portName) (.graphValidation
    s!"target port `{edge.target.nodeId}.{edge.target.portName}` does not exist")
  refuseIf (sourcePort.kind ≠ edge.contract.kind ∨ targetPort.kind ≠ edge.contract.kind)
    (.graphValidation
      s!"{edge.label} has kind {edge.contract.kind.debug}, but ports are {sourcePort.kind.debug} and {targetPort.kind.debug}")
  pure (sourcePort, targetPort)

def addEdge (nodes : BTreeMap NodeId NodeSpec) (progress : EdgeProgress) (edge : EdgeSpec) :
    Result EdgeProgress := do
  refuseIf ((edge.source, edge.target) ∈ progress.edgeKeys)
    (.graphValidation "duplicate graph edge")
  let (sourcePort, targetPort) ← checkEdge nodes edge
  let inbound := progress.inbound ++ [edge.target]
  refuseIf (1 < inbound.count edge.target ∧
      (targetPort.cardinality = .one ∨ targetPort.cardinality = .optional))
    (.graphValidation "multiple edges feed a single input port")
  validateEdgeContract edge sourcePort targetPort
  refuseIf (edge.contract.requiresOof ∧ edge.contract.kind ≠ .prediction)
    (.graphValidation s!"{edge.label} requires OOF but is not a prediction edge")
  let maps ← progress.maps.add "" edge
  pure { edgeKeys := insert (edge.source, edge.target) progress.edgeKeys, inbound, maps }

/-- The checks that look at neither list. -/
def GraphSpec.checkHeader (self : GraphSpec) : Result Unit := do
  refuseIf (isBlank self.id) (.graphValidation "graph id must not be empty")
  refuseIf (self.nodes = []) (.graphValidation "graph must contain at least one node")
  whenSome self.searchSpaceFingerprint fun fingerprint => refuseIf (isBlank fingerprint)
    (.graphValidation s!"graph `{self.id}` has empty search_space_fingerprint")
  validateUniquePorts graphInterfaceId "interface input" self.interface.inputs
  validateUniquePorts graphInterfaceId "interface output" self.interface.outputs

/-- `validate` up to the cycle check. -/
def GraphSpec.checkStructure (self : GraphSpec) : Result ArcMaps := do
  self.checkHeader
  let nodes ← loop addNode ∅ self.nodes
  let progress ← loop (addEdge nodes) ⟨∅, [], .start nodes.keys⟩ self.edges
  pure progress.maps

end DagMl
