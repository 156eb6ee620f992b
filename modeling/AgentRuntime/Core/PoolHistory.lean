import AgentRuntime.Core.ResourcePool
import AgentRuntime.Library.Ledger
import AgentRuntime.Library.Run

/-!
# Runs of pool calls

Any sequence of acquisitions and releases on one pool, with arbitrary requests.
The state carries, next to the pool, the requests that were granted and the
requests that were given back. The arithmetic of a call is listed exactly, as
integers, so that it can be compared with the 64-bit range.
-/
namespace AgentRuntime

namespace ResourcePool

/-! ## The arithmetic of one call -/

/-- What the mutation loop computes before each `Set`, in order; it stops where the loop stops. -/
def mutationResults (exact : Int → Int → Int)
    (combine : ResourceQuantity → ResourceQuantity → ResourceQuantity) :
    List (String × ResourceQuantity) → ResourceSet → List Int
  | [], _ => []
  | (name, quantity) :: rest, available =>
    let next := available.set name (combine (available.get name) quantity)
    exact (available.get name).value quantity.value ::
      if next.1.ok then mutationResults exact combine rest next.2 else []

/-- What the validation loop of `Release` computes; it stops at the first excess. -/
def validationResults (pool : ResourcePool) : List (String × ResourceQuantity) → List Int
  | [] => []
  | (name, released) :: rest =>
    ((pool.total.get name).value - (pool.available.get name).value) ::
      if pool.total.get name - pool.available.get name < released then []
      else pool.validationResults rest

inductive Call where
  | acquire (request : ResourceRequest)
  | release (request : ResourceRequest)

namespace Call

/-- The status the call returns and the pool it leaves. -/
def reply (pool : ResourcePool) : Call → Status × ResourcePool
  | acquire request => pool.acquire request
  | release request => pool.release request

/-- The exact results of the 64-bit additions and subtractions that the call performs. -/
def arithmetic (pool : ResourcePool) : Call → List Int
  | acquire request =>
    if pool.canFit request then
      mutationResults (fun a b => a - b) (fun available requested => available - requested)
        request.resources.values.entries pool.available
    else []
  | release request =>
    pool.validationResults request.resources.values.entries ++
      if pool.canRelease request then
        mutationResults (fun a b => a + b) (fun available released => available + released)
          request.resources.values.entries pool.available
      else []

/-- What the call takes when it succeeds. -/
def takes : Call → List ResourceRequest
  | acquire request => [request]
  | release _ => []

/-- What the call gives back when it succeeds. -/
def returns : Call → List ResourceRequest
  | acquire _ => []
  | release request => [request]

end Call

theorem validationResults_mem {pool : ResourcePool} {es : List (String × ResourceQuantity)}
    {v : Int} (h : v ∈ pool.validationResults es) :
    ∃ name, v = pool.total.amount name - pool.available.amount name := by
  induction es with
  | nil => simp [validationResults] at h
  | cons e rest ih =>
    obtain ⟨name, released⟩ := e
    rcases List.mem_cons.mp h with rfl | h
    · exact ⟨name, rfl⟩
    · split at h
      · simp at h
      · exact ih h

/-- No `Set` fails, so each listed name is combined once with what the pool had of it. -/
theorem mutationResults_mem (exact : Int → Int → Int)
    (combine : ResourceQuantity → ResourceQuantity → ResourceQuantity) (available : ResourceSet)
    {es : List (String × ResourceQuantity)} (hs : es.Pairwise (fun e f => e.1 < f.1))
    (hvalid : ∀ e ∈ es, isValidResourceName e.1 = true)
    (hnonneg : ∀ e ∈ es, 0 ≤ (combine (available.get e.1) e.2).value) {v : Int}
    (h : v ∈ mutationResults exact combine es available) :
    ∃ e ∈ es, v = exact (available.amount e.1) e.2.value := by
  induction es generalizing available with
  | nil => simp [mutationResults] at h
  | cons e rest ih =>
    obtain ⟨key, quantity⟩ := e
    obtain ⟨hlt, hrest⟩ := List.pairwise_cons.mp hs
    obtain ⟨hok, hset⟩ := available.set_spec (hvalid (key, quantity) (by simp))
      (hnonneg (key, quantity) (by simp))
    have hsame : ∀ e ∈ rest,
        (available.set key (combine (available.get key) quantity)).2.get e.1 =
          available.get e.1 := by
      intro e he
      have := hset e.1
      rw [if_neg (hlt e he).ne'] at this
      exact ResourceQuantity.ext this
    simp only [mutationResults, hok, Status.ok_OK, if_true] at h
    rcases List.mem_cons.mp h with rfl | h
    · exact ⟨(key, quantity), List.mem_cons_self, rfl⟩
    · obtain ⟨e, he, hv⟩ := ih _ hrest (fun e he => hvalid e (List.mem_cons_of_mem _ he))
        (by
          intro e he
          rw [hsame e he]
          exact hnonneg e (List.mem_cons_of_mem _ he)) h
      refine ⟨e, List.mem_cons_of_mem _ he, ?_⟩
      rw [hv, ResourceSet.amount, hsame e he, ResourceSet.amount]

/-- Every addition and subtraction stays in the 64-bit range. -/
theorem Call.arithmetic_fits {pool : ResourcePool}
    (hwithin : ∀ name, pool.available.amount name ≤ pool.total.amount name) (c : Call) :
    ∀ v ∈ c.arithmetic pool, FitsInt64 v := by
  -- everything computed lies between zero and the total
  have hrange : ∀ name v, 0 ≤ v → v ≤ pool.total.amount name → FitsInt64 v := by
    intro name v hlo hhi
    obtain ⟨-, hmax⟩ := (pool.total.get name).fits
    simp only [ResourceSet.amount] at hhi
    simp only [FitsInt64, int64Min, int64Max] at hmax ⊢
    omega
  intro v hv
  cases c with
  | acquire request =>
    simp only [arithmetic] at hv
    split at hv
    · rename_i hfit
      obtain ⟨e, he, rfl⟩ := mutationResults_mem _ _ pool.available
        request.resources.values.sorted (entries_valid request)
        (fun e he => by
          obtain ⟨hvalue, hnonneg⟩ := value_remaining hfit he
          rw [hvalue]
          exact hnonneg) hv
      obtain ⟨-, hnonneg⟩ := value_remaining hfit he
      have hp := entries_pos request e he
      have hw := hwithin e.1
      exact hrange e.1 _ hnonneg (by omega)
    · simp at hv
  | release request =>
    simp only [arithmetic] at hv
    rcases List.mem_append.mp hv with hv | hv
    · obtain ⟨name, rfl⟩ := validationResults_mem hv
      have hw := hwithin name
      have hnonneg := pool.available.amount_nonneg name
      exact hrange name _ (by omega) (by omega)
    · split at hv
      · rename_i hfit
        obtain ⟨e, he, rfl⟩ := mutationResults_mem _ _ pool.available
          request.resources.values.sorted (entries_valid request)
          (fun e he => by
            obtain ⟨hvalue, hnonneg, -⟩ := value_next hfit he
            rw [hvalue]
            exact hnonneg) hv
        obtain ⟨-, hnonneg, hle⟩ := value_next hfit he
        exact hrange e.1 _ hnonneg hle
      · simp at hv

/-- What has just been acquired can be released, and that restores the pool. -/
theorem release_acquire {pool : ResourcePool} {request : ResourceRequest}
    (hwithin : ∀ name, pool.available.amount name ≤ pool.total.amount name)
    (h : pool.canFit request = true) :
    (pool.acquire request).2.release request = (.OK, pool) := by
  obtain ⟨-, htotal, hamount⟩ := acquire_fits h
  have hcan : (pool.acquire request).2.canRelease request = true := by
    rw [canRelease_iff]
    intro name _
    have hw := hwithin name
    rw [htotal, hamount name]
    omega
  obtain ⟨hok, htotal', hamount'⟩ := release_fits hcan
  apply Prod.ext
  · exact hok
  · apply ext_amount (htotal'.trans htotal)
    intro name
    rw [hamount' name, hamount name]
    omega

/-- A call is refused and changes nothing, or it moves exactly what it names. -/
theorem Call.reply_cases (pool : ResourcePool) (c : Call) :
    ((c.reply pool).1.ok = false ∧ (c.reply pool).1.code ≠ .internal ∧
      (c.reply pool).2 = pool) ∨
    (c.reply pool).1 = .OK ∧ (c.reply pool).2.total = pool.total ∧
      ∀ name, (c.reply pool).2.available.amount name = pool.available.amount name -
        Ledger.held ResourceRequest.amount c.takes name +
        Ledger.held ResourceRequest.amount c.returns name := by
  cases c with
  | acquire request =>
    cases h : pool.canFit request with
    | false =>
      left
      simp only [reply, acquire_refused h]
      exact ⟨rfl, nofun, trivial⟩
    | true =>
      right
      obtain ⟨hok, htotal, hamount⟩ := acquire_fits h
      refine ⟨hok, htotal, ?_⟩
      intro name
      simp [reply, takes, returns, hamount name]
  | release request =>
    cases h : pool.canRelease request with
    | false =>
      left
      simp only [reply, release_refused h]
      exact ⟨rfl, nofun, trivial⟩
    | true =>
      right
      obtain ⟨hok, htotal, hamount⟩ := release_fits h
      refine ⟨hok, htotal, ?_⟩
      intro name
      simp [reply, takes, returns, hamount name]

/-- No call makes more available than there is in total. -/
theorem Call.reply_within {pool : ResourcePool}
    (hwithin : ∀ name, pool.available.amount name ≤ pool.total.amount name) (c : Call)
    (name : String) :
    (c.reply pool).2.available.amount name ≤ (c.reply pool).2.total.amount name := by
  cases c with
  | acquire request =>
    cases h : pool.canFit request with
    | false =>
      simp only [reply, acquire_refused h]
      exact hwithin name
    | true =>
      obtain ⟨-, htotal, hamount⟩ := acquire_fits h
      have hnonneg := request.amount_nonneg name
      have hw := hwithin name
      simp only [reply, htotal, hamount name]
      omega
  | release request =>
    cases h : pool.canRelease request with
    | false =>
      simp only [reply, release_refused h]
      exact hwithin name
    | true =>
      obtain ⟨-, htotal, hamount⟩ := release_fits h
      have hle := (canRelease_iff pool request).mp h name
      have hnonneg := request.amount_nonneg name
      have hw := hwithin name
      simp only [reply, htotal, hamount name]
      omega

end ResourcePool

/-! ## Sequences of calls -/

structure PoolHistory where
  pool : ResourcePool
  /-- The requests of the successful `Acquire` calls. -/
  acquired : List ResourceRequest
  /-- The requests of the successful `Release` calls. -/
  released : List ResourceRequest

namespace PoolHistory

open ResourcePool

def initial (total : ResourceSet) : PoolHistory := ⟨.new total, [], []⟩

def step (h : PoolHistory) (c : Call) : Option PoolHistory := some
  { pool := (c.reply h.pool).2
    acquired := if (c.reply h.pool).1.ok then h.acquired ++ c.takes else h.acquired
    released := if (c.reply h.pool).1.ok then h.released ++ c.returns else h.released }

theorem run_total (calls : List Call) (h : PoolHistory) : ∃ h', Run.run step calls h = some h' :=
  Run.run_total (fun _ _ => ⟨_, rfl⟩) calls h

/-- The books of a pool that started with `total`. -/
structure Conserved (total : ResourceSet) (h : PoolHistory) : Prop where
  owner : h.pool.total = total
  conserved : ∀ name, h.pool.available.amount name =
    total.amount name - Ledger.held ResourceRequest.amount h.acquired name +
      Ledger.held ResourceRequest.amount h.released name
  within : ∀ name, h.pool.available.amount name ≤ h.pool.total.amount name

theorem conserved_initial (total : ResourceSet) : Conserved total (initial total) where
  owner := rfl
  conserved := by
    intro name
    simp [initial, ResourcePool.new]
  within := fun _ => le_rfl

theorem Conserved.step {total : ResourceSet} {h h' : PoolHistory} {c : Call}
    (hc : Conserved total h) (hs : h.step c = some h') : Conserved total h' := by
  cases hs
  obtain ⟨hrefused, -, hpool⟩ | ⟨hok, htotal, hamount⟩ := c.reply_cases h.pool
  · simp only [hrefused, hpool]
    exact ⟨hc.owner, hc.conserved, hc.within⟩
  · refine ⟨htotal.trans hc.owner, ?_, c.reply_within hc.within⟩
    intro name
    simp only [hok, Status.ok_OK, if_true, hamount name, hc.conserved name, Ledger.held_append]
    omega

/-- The pool conserves resources exactly, whichever calls were made and whichever comes next. -/
theorem pool_conserves (total : ResourceSet) (calls : List Call) :
    ∃ h, Run.run step calls (initial total) = some h ∧
      h.pool.total = total ∧
      (∀ name, h.pool.available.amount name =
        total.amount name - Ledger.held ResourceRequest.amount h.acquired name +
          Ledger.held ResourceRequest.amount h.released name) ∧
      (∀ name, 0 ≤ h.pool.available.amount name ∧
        h.pool.available.amount name ≤ total.amount name) ∧
      (∀ name quantity, h.pool.available.values.lookup name = some quantity →
        0 < quantity.value ∧ (total.values.lookup name).isSome = true) ∧
      (∀ c : Call, (∀ v ∈ c.arithmetic h.pool, FitsInt64 v) ∧
        (c.reply h.pool).1.code ≠ .internal ∧
        ((c.reply h.pool).1.ok = false → (c.reply h.pool).2 = h.pool)) ∧
      ∀ request,
        ((h.pool.acquire request).1.ok = true ↔
          ∀ name, request.amount name ≤ h.pool.available.amount name) ∧
        ((h.pool.release request).1.ok = true ↔
          ∀ name, request.amount name ≤ total.amount name - h.pool.available.amount name) ∧
        ((h.pool.acquire request).1.ok = true →
          (h.pool.acquire request).2.release request = (.OK, h.pool)) := by
  obtain ⟨h, hr⟩ := run_total calls (initial total)
  have hc : Conserved total h :=
    Run.invariant_run (fun _ _ _ hc hs => hc.step hs) hr (conserved_initial total)
  refine ⟨h, hr, hc.owner, hc.conserved, ?bounds, ?stored, ?call, ?request⟩
  case bounds =>
    intro name
    have hw := hc.within name
    rw [hc.owner] at hw
    exact ⟨h.pool.available.amount_nonneg name, hw⟩
  case stored =>
    intro name quantity hl
    have hpos := (h.pool.available.canonical name quantity hl).2
    refine ⟨hpos, ?_⟩
    -- a name that the total lacks would be available beyond the total
    have hw := hc.within name
    rw [hc.owner] at hw
    cases ht : total.values.lookup name with
    | some q => rfl
    | none =>
      simp only [ResourceSet.amount, ResourceSet.get, hl, ht, ResourceQuantity.value_zero] at hw
      omega
  case call =>
    intro c
    refine ⟨c.arithmetic_fits hc.within, ?_, ?_⟩
    · obtain ⟨-, hne, -⟩ | ⟨hok, -⟩ := c.reply_cases h.pool
      · exact hne
      · rw [hok]
        intro hinternal
        cases hinternal
    · intro hrefused
      obtain ⟨-, -, he⟩ | ⟨hok, -⟩ := c.reply_cases h.pool
      · exact he
      · simp [hok] at hrefused
  case request =>
    intro request
    refine ⟨?_, ?_, ?_⟩
    · rw [acquire_ok_iff, canFit_iff]
    · rw [release_ok_iff, canRelease_iff, hc.owner]
      constructor
      · intro hle name
        have hw := hc.within name
        rw [hc.owner] at hw
        by_cases hpos : 0 < request.amount name
        · exact hle name hpos
        · omega
      · exact fun hle name _ => hle name
    · intro hok
      exact release_acquire hc.within ((acquire_ok_iff _ _).mp hok)

end PoolHistory

end AgentRuntime
