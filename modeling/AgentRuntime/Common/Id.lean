import Mathlib.Data.List.Basic

/-!
# Strong identities

A `StrongID` is 16 raw bytes. The tag keeps the identities of different
things apart and has no representation at run time.
-/
namespace AgentRuntime

inductive IdTag where
  | agent | task | execution | worker | node | tenant | object
  deriving DecidableEq

structure StrongID (tag : IdTag) where
  bytes : List UInt8
  size : bytes.length = 16
  deriving DecidableEq

abbrev AgentID := StrongID .agent
abbrev TaskID := StrongID .task
abbrev ExecutionID := StrongID .execution
abbrev WorkerID := StrongID .worker
abbrev NodeID := StrongID .node
abbrev TenantID := StrongID .tenant
abbrev ObjectID := StrongID .object

namespace StrongID

variable {tag : IdTag}

def Nil : StrongID tag := ⟨List.replicate 16 0, rfl⟩

def isNil (id : StrongID tag) : Bool := id.bytes.all (fun byte => byte == 0)

/-- The identity whose last byte is `b` and whose other bytes are zero. -/
def ofByte (b : UInt8) : StrongID tag := ⟨List.replicate 15 0 ++ [b], rfl⟩

@[simp] theorem isNil_Nil : (Nil : StrongID tag).isNil = true := rfl

end StrongID

/-- Payloads and results: a `std::string` used as a sequence of bytes. -/
abbrev ByteString := List UInt8

end AgentRuntime
