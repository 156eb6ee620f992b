import AgentRuntime.Core.Task

/-!
# Messages between the control plane and a worker

Identities travel as bytes and are decoded on arrival. A status travels as its
code and its message, which is what it is, so it stays as it is here.
-/
namespace AgentRuntime

def StrongID.toProto {tag : IdTag} (id : StrongID tag) : ByteString := id.bytes

/-- `IDFromProto`; its way over hexadecimal digits and back changes no byte. -/
def StrongID.fromProto {tag : IdTag} (wire : ByteString) : Except Status (StrongID tag) :=
  if h : wire.length = 16 then .ok ⟨wire, h⟩
  else .error (.InvalidArgument "wire ID must contain exactly 16 bytes")

@[simp] theorem StrongID.fromProto_toProto {tag : IdTag} (id : StrongID tag) :
    StrongID.fromProto id.toProto = .ok id := by
  simp [fromProto, toProto, id.size]

theorem StrongID.fromProto_error {tag : IdTag} {wire : ByteString} {status : Status}
    (h : (StrongID.fromProto wire : Except Status (StrongID tag)) = .error status) :
    status = .InvalidArgument "wire ID must contain exactly 16 bytes" := by
  unfold fromProto at h
  split at h
  · cases h
  · exact (Except.error.inj h).symm

/-- `FromProtoStatus`, which makes every OK the plain one. -/
def Status.fromProto (wire : Status) : Status := if wire.ok then .OK else wire

@[simp] theorem Status.fromProto_ok (wire : Status) : wire.fromProto.ok = wire.ok := by
  simp only [fromProto]
  split
  · rename_i h
    rw [h]
    rfl
  · rfl

structure TaskDescriptor where
  taskId : ByteString
  executionId : ByteString
  attempt : UInt32
  entrypoint : String
  /-- What `FromProto` makes of the map of floating point quantities. -/
  resources : Except Status ResourceSet
  payload : ByteString
  payloadMediaType : String
  tenantId : ByteString
  agentId : ByteString
  name : String

/-- The entrypoints that have a handler. -/
structure HandlerRegistry where
  handlers : List String

def HandlerRegistry.resolve (registry : HandlerRegistry) (entrypoint : String) :
    Except Status String :=
  if entrypoint ∈ registry.handlers then .ok entrypoint
  else .error (.NotFound ("handler entrypoint is not registered: " ++ entrypoint))

/-- Parts 1 to 5 of `LaunchTask`: from the descriptor to the arguments of `Submit`. -/
def decodeLaunch (registry : HandlerRegistry) (task : TaskDescriptor) :
    Except Status (ExecutionID × TaskSpec × TaskHandler) := do
  let taskId : TaskID ← StrongID.fromProto task.taskId
  let tenantId : TenantID ← StrongID.fromProto task.tenantId
  let agentId : AgentID ← StrongID.fromProto task.agentId
  let executionId : ExecutionID ← StrongID.fromProto task.executionId
  if task.attempt = 0 then
    .error (.InvalidArgument "task attempt must be greater than zero")
  let resources ← task.resources
  if task.entrypoint.isEmpty then
    .error (.InvalidArgument "task entrypoint cannot be empty")
  let registered ← registry.resolve task.entrypoint
  return (executionId,
    { tenantId := tenantId, id := taskId, agentId := agentId, name := task.name,
      resources := ⟨resources⟩, inputs := [] },
    some ⟨registered, task.payload, task.payloadMediaType⟩)

/-- Two computations in a row succeed when both do. -/
theorem bind_eq_ok {ε α β : Type} {x : Except ε α} {f : α → Except ε β} {b : β}
    (h : x >>= f = .ok b) : ∃ a, x = .ok a ∧ f a = .ok b := by
  cases x with
  | error => cases h
  | ok a => exact ⟨a, rfl, h⟩

/-- They fail when one of them does. -/
theorem bind_eq_error {ε α β : Type} {x : Except ε α} {f : α → Except ε β} {e : ε}
    (h : x >>= f = .error e) : x = .error e ∨ ∃ a, x = .ok a ∧ f a = .error e := by
  cases x with
  | error =>
    cases h
    exact .inl rfl
  | ok a => exact .inr ⟨a, rfl, h⟩

/-- A request that can be decoded carries the identities of its task and its execution. -/
theorem decodeLaunch_ok {registry : HandlerRegistry} {task : TaskDescriptor} {e : ExecutionID}
    {spec : TaskSpec} {handler : TaskHandler}
    (h : decodeLaunch registry task = .ok (e, spec, handler)) :
    StrongID.fromProto task.executionId = .ok e ∧ StrongID.fromProto task.taskId = .ok spec.id := by
  obtain ⟨t, htask, h⟩ := bind_eq_ok h
  obtain ⟨tenant, -, h⟩ := bind_eq_ok h
  obtain ⟨agent, -, h⟩ := bind_eq_ok h
  obtain ⟨execution, hexecution, h⟩ := bind_eq_ok h
  simp only [] at h
  split at h
  · cases h
  · obtain ⟨resources, -, h⟩ := bind_eq_ok h
    split at h
    · cases h
    · obtain ⟨registered, -, h⟩ := bind_eq_ok h
      cases h
      exact ⟨hexecution, htask⟩
end AgentRuntime
