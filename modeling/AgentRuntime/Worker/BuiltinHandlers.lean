import AgentRuntime.Common.Decimal
import AgentRuntime.Core.Task
import AgentRuntime.Library.UnorderedMap
import Mathlib.Algebra.Order.Group.Unbundled.Int

/-!
# The handlers of a worker process

A worker process registers its handlers under the names of their entrypoints, and a
`LaunchTask` request is bound to the one that its name resolves to. One handler is built
in: it squares an integer.
-/
namespace AgentRuntime

/-- How a handler is left, with what it has written to `result`, which is empty before; none where
that is not determined. The arguments are the payload, its media type and what the token was
read as. -/
abbrev RegisteredHandler := ByteString → String → Bool → Option HandlerExit

/-! ## The registry -/

/-- `handlers_` of a `HandlerRegistry`. -/
abbrev HandlerTable := UnorderedMap String RegisteredHandler

namespace HandlerTable

def register (table : HandlerTable) (entrypoint : String) (handler : Option RegisteredHandler) :
    Status × HandlerTable :=
  if entrypoint.isEmpty then (.InvalidArgument "handler entrypoint cannot be empty", table)
  else match handler with
  | none => (.InvalidArgument "registered handler cannot be empty", table)
  | some handler =>
    match table.lookup entrypoint with
    | some _ => (.AlreadyExists "handler entrypoint is already registered", table)
    | none => (.OK, table.insert entrypoint handler)

def resolve (table : HandlerTable) (entrypoint : String) : Except Status RegisteredHandler :=
  match table.lookup entrypoint with
  | none => .error (.NotFound ("handler entrypoint is not registered: " ++ entrypoint))
  | some handler => .ok handler

def contains (table : HandlerTable) (entrypoint : String) : Bool :=
  (table.lookup entrypoint).isSome

/-- A row of `Register` calls. -/
def registerAll : List (String × Option RegisteredHandler) → HandlerTable → HandlerTable
  | [], table => table
  | call :: calls, table => registerAll calls (table.register call.1 call.2).2

/-- A call is refused and changes nothing, or it adds a name that was free. -/
theorem register_cases (table : HandlerTable) (entrypoint : String)
    (handler : Option RegisteredHandler) :
    (∃ status, status.ok = false ∧ table.register entrypoint handler = (status, table)) ∨
    ∃ f, handler = some f ∧ table.lookup entrypoint = none ∧
      table.register entrypoint handler = (.OK, table.insert entrypoint f) := by
  unfold register
  split
  · exact .inl ⟨_, rfl, rfl⟩
  · split
    · exact .inl ⟨_, rfl, rfl⟩
    · rename_i f
      split
      · exact .inl ⟨_, rfl, rfl⟩
      · rename_i hnone
        exact .inr ⟨f, rfl, hnone, rfl⟩

/-- The function that a name resolves to is resolved ever after, whatever is registered. -/
theorem resolve_registerAll {table : HandlerTable} {entrypoint : String} {f : RegisteredHandler}
    (h : table.resolve entrypoint = .ok f) (calls : List (String × Option RegisteredHandler)) :
    (registerAll calls table).resolve entrypoint = .ok f := by
  have hlookup : ∀ table : HandlerTable, table.resolve entrypoint = .ok f ↔
      table.lookup entrypoint = some f := by
    intro table
    unfold resolve
    split <;> simp_all
  rw [hlookup] at h ⊢
  induction calls generalizing table with
  | nil => exact h
  | cons call calls ih =>
    apply ih
    obtain ⟨status, -, heq⟩ | ⟨g, -, hfree, heq⟩ := register_cases table call.1 call.2
    · rw [heq]
      exact h
    · have hne : entrypoint ≠ call.1 := by
        rintro rfl
        rw [hfree] at h
        cases h
      rw [heq, Finmap.lookup_insert_of_ne _ hne]
      exact h

end HandlerTable

/-! ## builtin.square -/

open Decimal (Reads stoll)

/-- The square of an integer is undefined when it leaves the range. -/
def builtinSquare (hasResult : Bool) : RegisteredHandler :=
  fun payload payloadMediaType cancelled =>
    if !hasResult then refuse (.InvalidArgument "result output must not be null")
    else if payloadMediaType ≠ "text/plain" then
      refuse (.InvalidArgument "builtin.square requires payload_media_type=text/plain")
    else if cancelled then refuse (.Cancelled "builtin.square cancelled before execution")
    else if payload.isEmpty then
      refuse (.InvalidArgument "builtin.square payload cannot be empty")
    else match stoll payload with
    | .error _ => refuse (.InvalidArgument "builtin.square payload must contain a valid integer")
    | .ok (value, consumed) =>
      if consumed ≠ payload.length then
        refuse (.InvalidArgument "builtin.square payload must contain one integer")
      else if FitsInt64 (value * value) then
        some (.returned .OK (Decimal.toString (value * value)))
      else none
where
  /-- Nothing has been written. -/
  refuse (status : Status) : Option HandlerExit := some (.returned status [])

/-- `RegisterBuiltinHandlers`; the caller of a handler always has a result to be written. -/
def registerBuiltinHandlers (table : HandlerTable) : Status × HandlerTable :=
  table.register "builtin.square" (some (builtinSquare true))

/-- An integer is in the range if its square is. -/
theorem fits_of_square {value : Int} (h : FitsInt64 (value * value)) : FitsInt64 value := by
  have habs := Int.natAbs_le_self_sq value
  rw [sq] at habs
  simp only [FitsInt64, int64Min, int64Max] at h ⊢
  omega

theorem Decimal.Reads.ne_nil {payload : ByteString} {value : Int} (h : Reads payload value) :
    payload ≠ [] := by
  obtain ⟨spaces, sign, ds, -, hne, -, rfl⟩ := h
  have htext : Decimal.digits.text ds ≠ [] := by simpa [Numeral.Alphabet.text] using hne
  simp [htext]

variable {payload : ByteString} {media : String} {cancelled : Bool}

/-- The square of an integer in the range, or what the handler is not defined for. -/
theorem builtinSquare_of_reads {value : Int} (hmedia : media = "text/plain")
    (hcancelled : cancelled = false) (hreads : Reads payload value) (hfits : FitsInt64 value) :
    builtinSquare true payload media cancelled =
      if FitsInt64 (value * value) then some (.returned .OK (Decimal.toString (value * value)))
      else none := by
  have hne : payload.isEmpty = false := by simpa using hreads.ne_nil
  simp [builtinSquare, hmedia, hcancelled, hne, Decimal.stoll_exact.mpr ⟨hreads, hfits⟩]

/-- Anything else is refused with nothing written. -/
theorem builtinSquare_refused (h : media ≠ "text/plain" ∨ cancelled = true ∨
      ∀ value, Reads payload value → ¬ FitsInt64 value) :
    ∃ status, builtinSquare true payload media cancelled = some (.returned status []) ∧
      status.ok = false ∧
      (status.isCancelled = true ↔ media = "text/plain" ∧ cancelled = true) := by
  simp only [builtinSquare, Bool.not_true, Bool.false_eq_true, if_false]
  by_cases hmedia : media = "text/plain"
  · rw [if_neg (by simpa using hmedia)]
    by_cases hcancelled : cancelled = true
    · rw [if_pos hcancelled]
      exact ⟨_, rfl, rfl, by simp [hmedia, hcancelled, Status.isCancelled, Status.Cancelled]⟩
    · have hno : ∀ value, Reads payload value → ¬ FitsInt64 value := by
        obtain h | h | h := h
        · exact absurd hmedia h
        · exact absurd h hcancelled
        · exact h
      rw [if_neg hcancelled]
      split
      · exact ⟨_, rfl, rfl, by simp [hcancelled, Status.isCancelled, Status.InvalidArgument]⟩
      · split
        · exact ⟨_, rfl, rfl, by simp [hcancelled, Status.isCancelled, Status.InvalidArgument]⟩
        · rename_i value consumed hstoll
          have hused : consumed ≠ payload.length := by
            rintro rfl
            obtain ⟨hreads, hfits⟩ := Decimal.stoll_exact.mp hstoll
            exact hno value hreads hfits
          rw [if_pos hused]
          exact ⟨_, rfl, rfl, by simp [hcancelled, Status.isCancelled, Status.InvalidArgument]⟩
  · rw [if_pos hmedia]
    exact ⟨_, rfl, rfl, by simp [hmedia, Status.isCancelled, Status.InvalidArgument]⟩

/-- The payload is served: it is the text of an integer in the range. -/
def Served (payload : ByteString) (media : String) (cancelled : Bool) : Prop :=
  media = "text/plain" ∧ cancelled = false ∧ ∃ value, Reads payload value ∧ FitsInt64 value

theorem refused_of_not_served (h : ¬ Served payload media cancelled) :
    ∃ status, builtinSquare true payload media cancelled = some (.returned status []) ∧
      status.ok = false ∧
      (status.isCancelled = true ↔ media = "text/plain" ∧ cancelled = true) := by
  apply builtinSquare_refused
  by_contra hno
  simp only [not_or, not_forall, not_not, Bool.not_eq_true] at hno
  obtain ⟨hmedia, hcancelled, value, hreads, hfits⟩ := hno
  exact h ⟨hmedia, hcancelled, value, hreads, hfits⟩

/-- The handler writes the square of the one integer that the payload is, and nothing otherwise. It
is not defined exactly where the square leaves the range of the integer. What it writes can be its
payload again. -/
theorem builtinSquare_exact (payload : ByteString) (media : String) (cancelled : Bool) :
    (∀ result, builtinSquare true payload media cancelled = some (.returned .OK result) ↔
      media = "text/plain" ∧ cancelled = false ∧ ∃ value, Reads payload value ∧
        FitsInt64 (value * value) ∧ result = Decimal.toString (value * value)) ∧
    (builtinSquare true payload media cancelled = none ↔
      media = "text/plain" ∧ cancelled = false ∧ ∃ value, Reads payload value ∧
        FitsInt64 value ∧ ¬ FitsInt64 (value * value)) ∧
    (¬ Served payload media cancelled → ∃ status, status.ok = false ∧
      builtinSquare true payload media cancelled = some (.returned status [])) ∧
    ∀ value, FitsInt64 (value * value) →
      builtinSquare true (Decimal.toString value) "text/plain" false =
        some (.returned .OK (Decimal.toString (value * value))) := by
  have hserved : ∀ {payload value}, Reads payload value → FitsInt64 (value * value) →
      builtinSquare true payload "text/plain" false =
        some (.returned .OK (Decimal.toString (value * value))) := by
    intro payload value hreads hfits
    rw [builtinSquare_of_reads rfl rfl hreads (fits_of_square hfits), if_pos hfits]
  refine ⟨fun result => ⟨fun h => ?_, ?_⟩, ⟨fun h => ?_, ?_⟩, fun hs => ?_, fun value hfits => ?_⟩
  · by_cases hs : Served payload media cancelled
    · obtain ⟨hmedia, hcancelled, value, hreads, hfits⟩ := hs
      rw [builtinSquare_of_reads hmedia hcancelled hreads hfits] at h
      split at h
      · rename_i hsquare
        cases h
        exact ⟨hmedia, hcancelled, value, hreads, hsquare, rfl⟩
      · cases h
    · obtain ⟨status, heq, hno, -⟩ := refused_of_not_served hs
      rw [heq] at h
      cases h
      cases hno
  · rintro ⟨rfl, rfl, value, hreads, hfits, rfl⟩
    exact hserved hreads hfits
  · by_cases hs : Served payload media cancelled
    · obtain ⟨hmedia, hcancelled, value, hreads, hfits⟩ := hs
      rw [builtinSquare_of_reads hmedia hcancelled hreads hfits] at h
      split at h
      · cases h
      · rename_i hsquare
        exact ⟨hmedia, hcancelled, value, hreads, hfits, hsquare⟩
    · obtain ⟨status, heq, -⟩ := refused_of_not_served hs
      rw [heq] at h
      cases h
  · rintro ⟨hmedia, hcancelled, value, hreads, hfits, hsquare⟩
    rw [builtinSquare_of_reads hmedia hcancelled hreads hfits, if_neg hsquare]
  · obtain ⟨status, heq, hno, -⟩ := refused_of_not_served hs
    exact ⟨status, hno, heq⟩
  · exact hserved (Decimal.reads_toString value) hfits

example : builtinSquare true (Decimal.toString (-12)) "text/plain" false =
    some (.returned .OK (Decimal.toString 144)) := by decide

end AgentRuntime
