import AgentRuntime.Node.WithoutRemovals
import AgentRuntime.Serialization.ReportMessage
import AgentRuntime.Serialization.Resources

/-!
# The messages of the workers to the control plane

A worker registers, sends heartbeats and is removed by messages whose bytes the service decodes
before it calls the registry. A message that does not decode is as good as lost. Whatever is
duplicated or late among the others, a lifetime that has died or been replaced does not come back
while no node is removed.
-/
namespace AgentRuntime

open NodeRegistry (Call registryAfter)
open NodeRegistry.History (DeathFinal FencedRun isRemoval safe_of_no_removal throughService)

/-! ## The service -/

/-- `NodeDescriptor` of a `RegisterNodeRequest`. -/
structure NodeDescriptor where
  nodeId : ByteString
  workerEndpoint : String
  totalResources : WireResources
  reportedAvailableResources : WireResources
  incarnation : Nat

/-- `NodeHeartbeat` of a `HeartbeatRequest`. -/
structure NodeHeartbeat where
  nodeId : ByteString
  incarnation : Nat
  availableResources : WireResources
  runningTasks : Nat

structure RemoveNodeRequest where
  nodeId : ByteString
  incarnation : Nat

namespace ControlService

variable (unspecified : Double → ResourceQuantity)

/-- The resources of a message, in the order of the iteration over them. -/
def decodeResources (wire : WireResources) (order : List String) : Except Status ResourceSet :=
  match ResourceSet.fromProto unspecified wire order (some .empty) with
  | (status, decoded) => if status.ok then .ok (decoded.getD .empty) else .error status

/-- The record that a registration is made with. -/
def decodeNode (node : NodeDescriptor) (totalOrder reportedOrder : List String) :
    Except Status NodeRecord := do
  let nodeId : NodeID ← StrongID.fromProto node.nodeId
  let totalResources ← decodeResources unspecified node.totalResources totalOrder
  let reportedAvailable ←
    decodeResources unspecified node.reportedAvailableResources reportedOrder
  return {
    nodeId, totalResources, reportedAvailable
    workerEndpoint := node.workerEndpoint
    schedulableAvailable := .empty
    incarnation := node.incarnation
    -- whatever state the descriptor gives
    state := .alive
    runningTasks := 0
    lastHeartbeatReceived := 0 }

/-! Each handler refuses its message, or makes a call of the registry of it. -/

def decodeRegistration (node : NodeDescriptor) (totalOrder reportedOrder : List String)
    (now : Int) : Except Status Call := do
  let record ← decodeNode unspecified node totalOrder reportedOrder
  return .registerNode record now

def decodeHeartbeat (heartbeat : NodeHeartbeat) (order : List String) (now : Int) :
    Except Status Call := do
  let nodeId : NodeID ← StrongID.fromProto heartbeat.nodeId
  let reportedAvailable ← decodeResources unspecified heartbeat.availableResources order
  return .heartbeat nodeId heartbeat.incarnation reportedAvailable heartbeat.runningTasks now

def decodeRemoval (request : RemoveNodeRequest) : Except Status Call := do
  let nodeId : NodeID ← StrongID.fromProto request.nodeId
  return .removeNode nodeId request.incarnation

/-- The answer is the status of the refusal, or of the call. -/
def serve (reg : NodeRegistry) : Except Status Call → WireStatus × NodeRegistry
  | .error status => (status.toProto, reg)
  | .ok call => ((call.reply reg).1.toProto, (call.reply reg).2)

/-- `ControlServiceImpl::RegisterNode`. -/
def registerNode (reg : NodeRegistry) (node : NodeDescriptor)
    (totalOrder reportedOrder : List String) (now : Int) : WireStatus × NodeRegistry :=
  serve reg (decodeRegistration unspecified node totalOrder reportedOrder now)

/-- `ControlServiceImpl::Heartbeat`. -/
def heartbeat (reg : NodeRegistry) (heartbeat : NodeHeartbeat) (order : List String) (now : Int) :
    WireStatus × NodeRegistry :=
  serve reg (decodeHeartbeat unspecified heartbeat order now)

/-- `ControlServiceImpl::RemoveNode`. -/
def removeNode (reg : NodeRegistry) (request : RemoveNodeRequest) : WireStatus × NodeRegistry :=
  serve reg (decodeRemoval request)

/-! ## Histories of messages -/

/-- A message is handled, with the orders in which its resources are visited and the time at which
it has arrived, or the control plane calls the registry by itself. -/
inductive Event where
  | registerNode (node : NodeDescriptor) (totalOrder reportedOrder : List String) (now : Int)
  | heartbeat (sent : NodeHeartbeat) (order : List String) (now : Int)
  | removeNode (request : RemoveNodeRequest)
  | updateLiveness (now suspectTimeout deadTimeout : Int)
  | reserveFirstFit (request : ResourceRequest)
  | release (nodeId : NodeID) (request : ResourceRequest)

namespace Event

/-- The registry after the event. -/
def registry (reg : NodeRegistry) : Event → NodeRegistry
  | .registerNode node totalOrder reportedOrder now =>
    (ControlService.registerNode unspecified reg node totalOrder reportedOrder now).2
  | .heartbeat sent order now => (ControlService.heartbeat unspecified reg sent order now).2
  | .removeNode request => (ControlService.removeNode reg request).2
  | .updateLiveness now suspectTimeout deadTimeout =>
    (reg.updateLiveness now suspectTimeout deadTimeout).2
  | .reserveFirstFit request => (reg.reserveFirstFit request).2.2
  | .release nodeId request => (reg.release nodeId request).2

/-- What the event asks the registry for, or why it does not. -/
def call : Event → Except Status Call
  | .registerNode node totalOrder reportedOrder now =>
    decodeRegistration unspecified node totalOrder reportedOrder now
  | .heartbeat sent order now => decodeHeartbeat unspecified sent order now
  | .removeNode request => decodeRemoval request
  | .updateLiveness now suspectTimeout deadTimeout =>
    .ok (.updateLiveness now suspectTimeout deadTimeout)
  | .reserveFirstFit request => .ok (.reserveFirstFit request)
  | .release nodeId request => .ok (.release nodeId request)

end Event

/-- The registry that the events leave, from the empty one. -/
def registryOf (events : List Event) : NodeRegistry :=
  events.foldl (Event.registry unspecified) .empty

/-- The calls that are made in the events. -/
def calls (events : List Event) : List Call :=
  events.filterMap fun e => (e.call unspecified).toOption

variable {unspecified}

theorem serve_registry (reg : NodeRegistry) (decoded : Except Status Call) :
    (serve reg decoded).2 = (decoded.toOption.map fun c => (c.reply reg).2).getD reg := by
  cases decoded <;> rfl

theorem registry_eq (reg : NodeRegistry) (e : Event) : e.registry unspecified reg =
    ((e.call unspecified).toOption.map fun c => (c.reply reg).2).getD reg := by
  cases e with
  | registerNode | heartbeat | removeNode => exact serve_registry reg _
  | updateLiveness | reserveFirstFit | release => rfl

/-- A message that does not decode changes nothing. -/
theorem registryOf_eq (events : List Event) :
    registryOf unspecified events = registryAfter (calls unspecified events) := by
  induction events using List.reverseRecOn with
  | nil => rfl
  | append_singleton events e ih =>
    have hcalls : calls unspecified (events ++ [e]) =
        calls unspecified events ++ (e.call unspecified).toOption.toList := by
      rw [calls, List.filterMap_append]
      cases he : (e.call unspecified).toOption <;> simp [calls, he]
    rw [registryOf, List.foldl_append, List.foldl_cons, List.foldl_nil, registry_eq,
      ← registryOf, ih, hcalls]
    cases (e.call unspecified).toOption with
    | none => rw [Option.toList_none, List.append_nil]; rfl
    | some c => exact (NodeRegistry.registryAfter_concat _ c).symm

theorem decodeNode_state {node : NodeDescriptor} {totalOrder reportedOrder : List String}
    {record : NodeRecord} (h : decodeNode unspecified node totalOrder reportedOrder = .ok record) :
    record.state = .alive := by
  obtain ⟨_, -, h⟩ := bind_eq_ok h
  obtain ⟨_, -, h⟩ := bind_eq_ok h
  obtain ⟨_, -, h⟩ := bind_eq_ok h
  cases h
  rfl

theorem throughService_of_call {e : Event} {c : Call} (h : e.call unspecified = .ok c) :
    throughService c := by
  cases e with
  | registerNode =>
    obtain ⟨record, hrecord, h⟩ := bind_eq_ok h
    cases h
    exact decodeNode_state hrecord
  | heartbeat =>
    obtain ⟨_, -, h⟩ := bind_eq_ok h
    obtain ⟨_, -, h⟩ := bind_eq_ok h
    cases h
    trivial
  | removeNode =>
    obtain ⟨_, -, h⟩ := bind_eq_ok h
    cases h
    trivial
  | updateLiveness | reserveFirstFit | release =>
    cases h
    trivial

/-! ## Refusals -/

theorem invalid_of_decodeFrom {wire : WireResources} {order : List String} {rs : ResourceSet}
    (h : (ResourceSet.decodeFrom unspecified wire order rs).1.ok = false) :
    (ResourceSet.decodeFrom unspecified wire order rs).1.code = .invalidArgument := by
  induction order generalizing rs with
  | nil => cases h
  | cons name order ih =>
    simp only [ResourceSet.decodeFrom] at h ⊢
    split
    · rename_i hno
      rw [hno] at h
      exact ih h
    · rename_i quantity hl
      rw [hl] at h
      simp only at h
      split
      · rename_i hok
        rw [if_pos hok] at h
        exact ih h
      · rfl

theorem invalid_of_decodeResources {wire : WireResources} {order : List String} {status : Status}
    (h : decodeResources unspecified wire order = .error status) :
    status.code = .invalidArgument := by
  simp only [decodeResources, ResourceSet.fromProto] at h
  cases hok : (ResourceSet.decodeFrom unspecified wire order .empty).1.ok with
  | true => simp [hok] at h
  | false =>
    simp only [hok, Bool.false_eq_true, if_false] at h
    cases h
    exact invalid_of_decodeFrom hok

theorem invalid_of_decodeNode {node : NodeDescriptor} {totalOrder reportedOrder : List String}
    {status : Status} (h : decodeNode unspecified node totalOrder reportedOrder = .error status) :
    status.code = .invalidArgument := by
  obtain h | ⟨_, -, h⟩ := bind_eq_error h
  · rw [StrongID.fromProto_error h]
    rfl
  obtain h | ⟨_, -, h⟩ := bind_eq_error h
  · exact invalid_of_decodeResources h
  obtain h | ⟨_, -, h⟩ := bind_eq_error h
  · exact invalid_of_decodeResources h
  cases h

theorem call_refused {e : Event} {status : Status} (h : e.call unspecified = .error status) :
    status.code = .invalidArgument := by
  cases e with
  | registerNode =>
    obtain h | ⟨_, -, h⟩ := bind_eq_error h
    · exact invalid_of_decodeNode h
    cases h
  | heartbeat =>
    obtain h | ⟨_, -, h⟩ := bind_eq_error h
    · rw [StrongID.fromProto_error h]
      rfl
    obtain h | ⟨_, -, h⟩ := bind_eq_error h
    · exact invalid_of_decodeResources h
    cases h
  | removeNode =>
    obtain h | ⟨_, -, h⟩ := bind_eq_error h
    · rw [StrongID.fromProto_error h]
      rfl
    cases h
  | updateLiveness | reserveFirstFit | release => cases h

/-! ## The result -/

/-- No `RemoveNode` message among the events decodes. -/
def RemovesNone (unspecified : Double → ResourceQuantity) (events : List Event) : Prop :=
  ∀ c ∈ calls unspecified events, isRemoval c = false

instance (unspecified : Double → ResourceQuantity) (events : List Event) :
    Decidable (RemovesNone unspecified events) :=
  inferInstanceAs (Decidable (∀ c ∈ calls unspecified events, isRemoval c = false))

/-- What holds of the registry behind the service. -/
structure RegistrySafe (unspecified : Double → ResourceQuantity) (events : List Event) : Prop where
  /-- A message that does not decode is as good as lost. -/
  registry : registryOf unspecified events = registryAfter (calls unspecified events)
  refused : ∀ e ∈ events, ∀ status, e.call unspecified = .error status →
    status.code = .invalidArgument
  deaths : RemovesNone unspecified events → DeathFinal (calls unspecified events)
  fenced : RemovesNone unspecified events → FencedRun (calls unspecified events)

/-- What does not decode leaves no trace. No message that is late or duplicated brings a lifetime
back that has died, or one that a newer lifetime has replaced, as long as no node is removed. -/
theorem registry_safe (events : List Event) : RegistrySafe unspecified events := by
  have hservice : ∀ c ∈ calls unspecified events, throughService c := by
    intro c hmem
    obtain ⟨e, -, hcall⟩ := List.mem_filterMap.mp hmem
    cases he : e.call unspecified with
    | error status =>
      rw [he] at hcall
      cases hcall
    | ok c' =>
      rw [he] at hcall
      cases hcall
      exact throughService_of_call he
  exact ⟨registryOf_eq events, fun _ _ _ => call_refused,
    fun hremoval => (safe_of_no_removal hremoval hservice).1,
    fun hremoval => (safe_of_no_removal hremoval hservice).2⟩

namespace Sample

def descriptor (nodeId : ByteString) : NodeDescriptor := ⟨nodeId, "worker:1", ∅, ∅, 1⟩

/-- A worker registers and dies, and its registration arrives again, after one that was cut off. -/
def late : List Event :=
  let nodeId := NodeRegistry.Sample.nodeId.toProto
  [.registerNode (descriptor nodeId) [] [] 0, .updateLiveness 5000000000 1000 3000,
    .registerNode (descriptor (nodeId.take 3)) [] [] 5000000001,
    .registerNode (descriptor nodeId) [] [] 5000000002,
    .heartbeat ⟨nodeId, 1, ∅, 0⟩ [] 5000000003]

end Sample

theorem registry_safe_late : (calls (fun _ => .zero) Sample.late).length = 4 ∧
    (registryAfter (calls (fun _ => .zero) Sample.late)).stateOf NodeRegistry.Sample.nodeId =
      some (1, .dead) ∧
    DeathFinal (calls (fun _ => .zero) Sample.late) :=
  ⟨by decide, by decide, (registry_safe Sample.late).deaths (by decide)⟩

end ControlService

end AgentRuntime
