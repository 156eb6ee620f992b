/-!
# Runtime statuses

`dar::Status`, the result of every fallible operation of the runtime. It is
independent of the transport's own status.
-/
namespace AgentRuntime

inductive StatusCode where
  | ok | invalidArgument | notFound | alreadyExists | failedPrecondition
  | unavailable | resourceExhausted | cancelled | deadlineExceeded | internal
  deriving DecidableEq, Repr

/-- The constructor is private, and none of the factories gives a message to an OK. -/
structure Status where
  code : StatusCode
  message : String
  plain : code = .ok → message = ""
  deriving DecidableEq

namespace Status

def OK : Status := ⟨.ok, "", fun _ => rfl⟩
def InvalidArgument (message : String) : Status := ⟨.invalidArgument, message, nofun⟩
def NotFound (message : String) : Status := ⟨.notFound, message, nofun⟩
def AlreadyExists (message : String) : Status := ⟨.alreadyExists, message, nofun⟩
def FailedPrecondition (message : String) : Status := ⟨.failedPrecondition, message, nofun⟩
def Unavailable (message : String) : Status := ⟨.unavailable, message, nofun⟩
def ResourceExhausted (message : String) : Status := ⟨.resourceExhausted, message, nofun⟩
def Cancelled (message : String) : Status := ⟨.cancelled, message, nofun⟩
def DeadlineExceeded (message : String) : Status := ⟨.deadlineExceeded, message, nofun⟩
def Internal (message : String) : Status := ⟨.internal, message, nofun⟩

def ok (s : Status) : Bool := s.code = .ok
/-- `StatusCodeName`. -/
def codeName : StatusCode → String
  | .ok => "OK"
  | .invalidArgument => "Invalid_Argument"
  | .notFound => "Not_Found"
  | .alreadyExists => "Already_Exists"
  | .failedPrecondition => "Failed_Precondition"
  | .unavailable => "Unavailable"
  | .cancelled => "Cancelled"
  | .deadlineExceeded => "Deadline_Exceeded"
  | .internal => "Internal"
  | .resourceExhausted => "Resource_Exhausted"

def toString (s : Status) : String :=
  if s.ok then "OK"
  else if s.message.isEmpty then codeName s.code
  else codeName s.code ++ ": " ++ s.message

def isCancelled (s : Status) : Bool := s.code = .cancelled

theorem eq_OK {s : Status} (h : s.ok = true) : s = OK := by
  obtain ⟨code, message, hplain⟩ := s
  obtain rfl : code = .ok := by simpa [ok] using h
  obtain rfl := hplain rfl
  rfl

@[simp] theorem ok_OK : OK.ok = true := rfl
@[simp] theorem ok_InvalidArgument (m : String) : (InvalidArgument m).ok = false := rfl
@[simp] theorem ok_NotFound (m : String) : (NotFound m).ok = false := rfl
@[simp] theorem ok_AlreadyExists (m : String) : (AlreadyExists m).ok = false := rfl
@[simp] theorem ok_FailedPrecondition (m : String) : (FailedPrecondition m).ok = false := rfl
@[simp] theorem ok_Unavailable (m : String) : (Unavailable m).ok = false := rfl
@[simp] theorem ok_ResourceExhausted (m : String) : (ResourceExhausted m).ok = false := rfl
@[simp] theorem ok_Cancelled (m : String) : (Cancelled m).ok = false := rfl
@[simp] theorem ok_DeadlineExceeded (m : String) : (DeadlineExceeded m).ok = false := rfl
@[simp] theorem ok_Internal (m : String) : (Internal m).ok = false := rfl

end Status

end AgentRuntime
