import AgentRuntime.Common.Id
import AgentRuntime.Core.ResourcePool
import AgentRuntime.Library.UnorderedMap

/-!
# The node registry

`dar::NodeRegistry`: who is registered, under which incarnation, and how much
of each node the control plane has handed out. Every operation is one section
under the registry's mutex, so each is a function on the registry.
-/
namespace AgentRuntime

inductive NodeState where
  | alive | suspect | dead
  deriving DecidableEq, Repr

structure NodeRecord where
  nodeId : NodeID
  workerEndpoint : String
  totalResources : ResourceSet
  /-- Last capacity reported by the worker. -/
  reportedAvailable : ResourceSet
  /-- Copy of the control plane's own reservation ledger. -/
  schedulableAvailable : ResourceSet
  incarnation : Nat
  state : NodeState
  runningTasks : Nat
  /-- Local receipt time, in nanoseconds of the steady clock. -/
  lastHeartbeatReceived : Int
  deriving DecidableEq

structure DeadNodeLifetime where
  nodeId : NodeID
  incarnation : Nat
  deriving DecidableEq

structure StoredNode where
  record : NodeRecord
  schedulablePool : ResourcePool
  deriving DecidableEq

/-- The pool of a stored node starts from the capacity the record says is schedulable. -/
def StoredNode.new (node : NodeRecord) : StoredNode :=
  ⟨node, ResourcePool.new node.schedulableAvailable⟩

/-- A stored node with another pool; the record keeps a copy of what is available. -/
def StoredNode.withPool (stored : StoredNode) (pool : ResourcePool) : StoredNode :=
  ⟨{ stored.record with schedulableAvailable := pool.available }, pool⟩

structure NodeRegistry where
  nodes : UnorderedMap NodeID StoredNode
  registrationOrder : List NodeID

namespace NodeRegistry

def empty : NodeRegistry := ⟨∅, []⟩

/-- The record as `RegisterNode` stores it for a new lifetime. -/
def freshRecord (node : NodeRecord) (now : Int) : NodeRecord :=
  { node with schedulableAvailable := node.reportedAvailable, lastHeartbeatReceived := now }

def registerNode (reg : NodeRegistry) (node : NodeRecord) (now : Int) : Status × NodeRegistry :=
  if node.nodeId.isNil then (.InvalidArgument "node id cannot be nil", reg)
  else if node.workerEndpoint.isEmpty then
    (.InvalidArgument "worker endpoint cannot be empty", reg)
  else if node.incarnation = 0 then
    (.InvalidArgument "node incarnation must be greater than zero", reg)
  else
    match reg.nodes.lookup node.nodeId with
    | none =>
      (.OK, ⟨reg.nodes.insert node.nodeId (.new (freshRecord node now)),
        reg.registrationOrder ++ [node.nodeId]⟩)
    | some stored =>
      if node.incarnation < stored.record.incarnation then
        (.FailedPrecondition "stale node incarnation", reg)
      else if node.incarnation = stored.record.incarnation then
        -- a duplicate of the same lifetime: the pool is not reset
        if stored.record.workerEndpoint ≠ node.workerEndpoint ∨
            stored.record.totalResources ≠ node.totalResources then
          (.FailedPrecondition "conflicting registration for current node incarnation", reg)
        else (.OK, reg)
      else
        -- a newer incarnation keeps its position in the registration order
        (.OK, { reg with
          nodes := reg.nodes.insert node.nodeId (.new (freshRecord node now)) })

def heartbeat (reg : NodeRegistry) (nodeId : NodeID) (incarnation : Nat)
    (reportedAvailable : ResourceSet) (runningTasks : Nat) (now : Int) : Status × NodeRegistry :=
  if nodeId.isNil then (.InvalidArgument "heartbeat node id cannot be nil", reg)
  else if incarnation = 0 then
    (.InvalidArgument "heartbeat incarnation must be greater than zero", reg)
  else
    match reg.nodes.lookup nodeId with
    | none => (.NotFound "heartbeat node is not registered", reg)
    | some stored =>
      if stored.record.incarnation ≠ incarnation then
        (.FailedPrecondition "heartbeat node incarnation does not match", reg)
      else if stored.record.state = .dead then
        (.FailedPrecondition "dead node incarnation cannot be revived by heartbeat", reg)
      else
        (.OK, { reg with nodes := reg.nodes.insert nodeId { stored with
          record := { stored.record with
            reportedAvailable := reportedAvailable, runningTasks := runningTasks,
            lastHeartbeatReceived := now, state := .alive } } })

/-- A duration in milliseconds converted to clock ticks, in 64-bit arithmetic. -/
def toNanoseconds (milliseconds : Int) : Int := wrap64 (milliseconds * 1000000)

/-- The classification of a node that is not dead. -/
def classify (now suspectTimeout deadTimeout : Int) (node : NodeRecord) : NodeState :=
  let elapsed := wrap64 (now - node.lastHeartbeatReceived)
  if toNanoseconds deadTimeout ≤ elapsed then .dead
  else if toNanoseconds suspectTimeout ≤ elapsed then .suspect
  else .alive

/-- The loop of `UpdateLiveness` over the registration order. -/
def scan (now suspectTimeout deadTimeout : Int) : List NodeID → UnorderedMap NodeID StoredNode →
    List DeadNodeLifetime × UnorderedMap NodeID StoredNode
  | [], nodes => ([], nodes)
  | id :: rest, nodes =>
    match nodes.lookup id with
    | none => scan now suspectTimeout deadTimeout rest nodes
    | some stored =>
      if stored.record.state = .dead then scan now suspectTimeout deadTimeout rest nodes
      else
        let state := classify now suspectTimeout deadTimeout stored.record
        let next := scan now suspectTimeout deadTimeout rest
          (nodes.insert id { stored with record := { stored.record with state := state } })
        if state = .dead then
          (⟨stored.record.nodeId, stored.record.incarnation⟩ :: next.1, next.2)
        else next

def updateLiveness (reg : NodeRegistry) (now suspectTimeout deadTimeout : Int) :
    List DeadNodeLifetime × NodeRegistry :=
  if suspectTimeout < 0 ∨ deadTimeout < 0 ∨ deadTimeout ≤ suspectTimeout then ([], reg)
  else
    let done := scan now suspectTimeout deadTimeout reg.registrationOrder reg.nodes
    (done.1, { reg with nodes := done.2 })

def removeNode (reg : NodeRegistry) (nodeId : NodeID) (incarnation : Nat) :
    Status × NodeRegistry :=
  match reg.nodes.lookup nodeId with
  | none => (.NotFound "node is not registered", reg)
  | some stored =>
    if stored.record.incarnation ≠ incarnation then
      (.FailedPrecondition "node incarnation does not match", reg)
    else
      (.OK, ⟨reg.nodes.erase nodeId, reg.registrationOrder.filter (fun id => id ≠ nodeId)⟩)

def getNode (reg : NodeRegistry) (nodeId : NodeID) : Status × Option NodeRecord :=
  match reg.nodes.lookup nodeId with
  | none => (.NotFound "node is not registered", none)
  | some stored => (.OK, some stored.record)

/-- The loop of `ReserveFirstFit` over the registration order. -/
def reserveFrom (request : ResourceRequest) : List NodeID → UnorderedMap NodeID StoredNode →
    Status × Option NodeRecord × UnorderedMap NodeID StoredNode
  | [], nodes =>
    (.ResourceExhausted "no schedulable node can satisfy resource request", none, nodes)
  | id :: rest, nodes =>
    match nodes.lookup id with
    | none => reserveFrom request rest nodes
    | some stored =>
      if stored.record.state ≠ .alive then reserveFrom request rest nodes
      else if ¬ stored.schedulablePool.canFit request then reserveFrom request rest nodes
      else
        let acquired := stored.schedulablePool.acquire request
        if acquired.1.ok then
          let node := StoredNode.withPool stored acquired.2
          (.OK, some node.record, nodes.insert id node)
        else
          (.Internal "schedulable resource reservation failed", none,
            nodes.insert id { stored with schedulablePool := acquired.2 })

def reserveFirstFit (reg : NodeRegistry) (request : ResourceRequest) :
    Status × Option NodeRecord × NodeRegistry :=
  let done := reserveFrom request reg.registrationOrder reg.nodes
  (done.1, done.2.1, { reg with nodes := done.2.2 })

def release (reg : NodeRegistry) (nodeId : NodeID) (request : ResourceRequest) :
    Status × NodeRegistry :=
  match reg.nodes.lookup nodeId with
  | none => (.NotFound "node is not registered", reg)
  | some stored =>
    let released := stored.schedulablePool.release request
    if released.1.ok then
      (.OK, { reg with nodes := reg.nodes.insert nodeId (StoredNode.withPool stored released.2) })
    else
      (released.1, { reg with
        nodes := reg.nodes.insert nodeId { stored with schedulablePool := released.2 } })

end NodeRegistry

end AgentRuntime
