import AgentRuntime.Common.Id
import AgentRuntime.Core.ResourcePool
import AgentRuntime.Library.UnorderedMap

/-!
# What the scheduler decides with

The FIFO queue, the pools of the workers and first-fit placement.
-/
namespace AgentRuntime

abbrev TaskQueue := List TaskID

namespace TaskQueue

def push (queue : TaskQueue) (id : TaskID) : Status × TaskQueue := (.OK, queue ++ [id])

def peek : TaskQueue → Except Status TaskID
  | [] => .error (.NotFound "peek empty queue")
  | id :: _ => .ok id

def pop : TaskQueue → Except Status TaskID × TaskQueue
  | [] => (.error (.NotFound "pop from an empty queue"), [])
  | id :: rest => (.ok id, rest)

def remove (queue : TaskQueue) (id : TaskID) : Status × TaskQueue :=
  if id ∈ queue then (.OK, queue.erase id) else (.NotFound "task not found in queue", queue)

end TaskQueue

structure ResourceManager where
  pools : UnorderedMap WorkerID ResourcePool

namespace ResourceManager

def registerWorker (rm : ResourceManager) (workerId : WorkerID) (capacity : ResourceSet) :
    Status × ResourceManager :=
  match rm.pools.lookup workerId with
  | some _ => (.AlreadyExists "worker already registered", rm)
  | none => (.OK, ⟨rm.pools.insert workerId (.new capacity)⟩)

def canFitAvailable (rm : ResourceManager) (workerId : WorkerID) (request : ResourceRequest) :
    Bool :=
  match rm.pools.lookup workerId with
  | none => false
  | some pool => pool.canFit request

def canFitTotal (rm : ResourceManager) (workerId : WorkerID) (request : ResourceRequest) : Bool :=
  match rm.pools.lookup workerId with
  | none => false
  | some pool =>
    request.resources.values.entries.all (fun e => !decide (pool.total.get e.1 < e.2))

def acquire (rm : ResourceManager) (workerId : WorkerID) (request : ResourceRequest) :
    Status × ResourceManager :=
  match rm.pools.lookup workerId with
  | none => (.NotFound "Worker is not registered", rm)
  | some pool => ((pool.acquire request).1, ⟨rm.pools.insert workerId (pool.acquire request).2⟩)

def release (rm : ResourceManager) (workerId : WorkerID) (request : ResourceRequest) :
    Status × ResourceManager :=
  match rm.pools.lookup workerId with
  | none => (.NotFound "worker is not registered", rm)
  | some pool => ((pool.release request).1, ⟨rm.pools.insert workerId (pool.release request).2⟩)

/-- The total quantity of a name that a worker was registered with. -/
def total (rm : ResourceManager) (workerId : WorkerID) (name : String) : Int :=
  match rm.pools.lookup workerId with
  | none => 0
  | some pool => pool.total.amount name

def available (rm : ResourceManager) (workerId : WorkerID) (name : String) : Int :=
  match rm.pools.lookup workerId with
  | none => 0
  | some pool => pool.available.amount name

def registered (rm : ResourceManager) (workerId : WorkerID) : Prop :=
  (rm.pools.lookup workerId).isSome = true

variable {rm : ResourceManager} {w : WorkerID} {request : ResourceRequest}

theorem canFitAvailable_iff : rm.canFitAvailable w request = true ↔
    rm.registered w ∧ ∀ name, request.amount name ≤ rm.available w name := by
  simp only [canFitAvailable, registered, available]
  cases rm.pools.lookup w with
  | none => simp
  | some pool => simp [ResourcePool.canFit_iff]

theorem canFitTotal_iff : rm.canFitTotal w request = true ↔
    rm.registered w ∧ ∀ name, request.amount name ≤ rm.total w name := by
  simp only [canFitTotal, registered, total]
  cases rm.pools.lookup w with
  | none => simp
  | some pool =>
    -- the check is `CanFit` of a pool in which everything is available
    simp only [Option.isSome_some, true_and]
    exact (ResourcePool.new pool.total).canFit_iff request

/-- `Acquire` of what `CanFitAvailable` found to fit takes exactly that. -/
theorem acquire_fits (h : rm.canFitAvailable w request = true) :
    (rm.acquire w request).1 = .OK ∧ (rm.acquire w request).2.total = rm.total ∧
    (rm.acquire w request).2.registered = rm.registered ∧
    ∀ w' name, (rm.acquire w request).2.available w' name =
      rm.available w' name - if w' = w then request.amount name else 0 := by
  simp only [canFitAvailable] at h
  cases hl : rm.pools.lookup w with
  | none => simp [hl] at h
  | some pool =>
    simp only [hl] at h
    obtain ⟨hok, htotal, havail⟩ := ResourcePool.acquire_fits h
    simp only [acquire, hl]
    refine ⟨hok, ?_, ?_, ?_⟩
    · funext w' name
      simp only [total, UnorderedMap.lookup_insert_eq]
      by_cases hw : w' = w
      · subst hw
        simp [hl, htotal]
      · simp [hw]
    · funext w'
      simp only [registered, UnorderedMap.lookup_insert_eq]
      by_cases hw : w' = w
      · subst hw
        simp [hl]
      · simp [hw]
    · intro w' name
      simp only [available, UnorderedMap.lookup_insert_eq]
      by_cases hw : w' = w
      · subst hw
        simp [hl, havail]
      · simp [hw]

/-- `Release` is refused and changes nothing, or gives back exactly the request. -/
theorem release_cases (rm : ResourceManager) (w : WorkerID) (request : ResourceRequest) :
    (rm.release w request).2.total = rm.total ∧
    (rm.release w request).2.registered = rm.registered ∧
    (((rm.release w request).1.ok = false ∧ (rm.release w request).2.available = rm.available ∧
        ¬ (rm.registered w ∧ ∀ name, 0 < request.amount name →
          request.amount name ≤ rm.total w name - rm.available w name)) ∨
      (rm.release w request).1 = .OK ∧
        ∀ w' name, (rm.release w request).2.available w' name =
          rm.available w' name + if w' = w then request.amount name else 0) := by
  cases hl : rm.pools.lookup w with
  | none => simp [release, hl, registered]
  | some pool =>
    have htotal : (rm.release w request).2.total = rm.total := by
      funext w' name
      simp only [release, hl, total, UnorderedMap.lookup_insert_eq]
      by_cases hw : w' = w
      · subst hw
        simp [hl]
      · simp [hw]
    have hreg : (rm.release w request).2.registered = rm.registered := by
      funext w'
      simp only [release, hl, registered, UnorderedMap.lookup_insert_eq]
      by_cases hw : w' = w
      · subst hw
        simp [hl]
      · simp [hw]
    refine ⟨htotal, hreg, ?_⟩
    cases hfit : pool.canRelease request with
    | false =>
      left
      refine ⟨by simp [release, hl, ResourcePool.release_refused hfit], ?_, ?_⟩
      · funext w' name
        simp only [release, hl, ResourcePool.release_refused hfit, available,
          UnorderedMap.lookup_insert_eq]
        by_cases hw : w' = w
        · subst hw
          simp [hl]
        · simp [hw]
      · rintro ⟨-, hle⟩
        have : pool.canRelease request = true := by
          rw [ResourcePool.canRelease_iff]
          simpa [total, available, hl] using hle
        rw [hfit] at this
        cases this
    | true =>
      obtain ⟨hok, -, havail⟩ := ResourcePool.release_fits hfit
      right
      refine ⟨by simp [release, hl, hok], ?_⟩
      intro w' name
      simp only [release, hl, available, UnorderedMap.lookup_insert_eq]
      by_cases hw : w' = w
      · subst hw
        simp [hl, havail]
      · simp [hw]

/-- `RegisterWorker` adds a full pool, or changes nothing. -/
theorem registerWorker_cases (rm : ResourceManager) (w : WorkerID) (capacity : ResourceSet) :
    (rm.registered w ∧ (rm.registerWorker w capacity).2 = rm) ∨
    ¬ rm.registered w ∧ (∀ w', (rm.registerWorker w capacity).2.pools.lookup w' =
      if w' = w then some (.new capacity) else rm.pools.lookup w') := by
  simp only [registerWorker, registered]
  cases hl : rm.pools.lookup w with
  | some pool => exact .inl ⟨rfl, rfl⟩
  | none => exact .inr ⟨by simp, fun w' => UnorderedMap.lookup_insert_eq _ _ _ _⟩

/-- What fits before a release fits after it. -/
theorem canFitAvailable_release {w' : WorkerID} {request' : ResourceRequest}
    (h : rm.canFitAvailable w request = true) :
    (rm.release w' request').2.canFitAvailable w request = true := by
  obtain ⟨hreg, hfit⟩ := canFitAvailable_iff.mp h
  obtain ⟨-, hreg', ⟨-, havail, -⟩ | ⟨-, havail⟩⟩ := rm.release_cases w' request'
  · exact canFitAvailable_iff.mpr ⟨hreg' ▸ hreg, havail ▸ hfit⟩
  · refine canFitAvailable_iff.mpr ⟨hreg' ▸ hreg, ?_⟩
    intro name
    have := hfit name
    have := request'.amount_nonneg name
    rw [havail]
    split <;> omega

end ResourceManager

/-- What the scheduler has acquired for the task of a worker. -/
structure RunningReservation where
  taskId : TaskID
  resources : ResourceRequest
  deriving DecidableEq

end AgentRuntime
