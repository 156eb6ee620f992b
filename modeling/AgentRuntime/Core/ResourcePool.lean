import AgentRuntime.Core.Resource

/-!
# The accounting of one resource owner

`ResourcePool::Acquire` and `ResourcePool::Release` first validate the whole
request and then write name by name through `Set`. The loops are shown to
reach neither their `Internal` return nor an overflow, for any pool.
-/
namespace AgentRuntime

structure ResourcePool where
  total : ResourceSet
  available : ResourceSet
  deriving DecidableEq

namespace ResourcePool

/-- The constructor: everything is available. -/
def new (total : ResourceSet) : ResourcePool := ⟨total, total⟩

def canFit (pool : ResourcePool) (request : ResourceRequest) : Bool :=
  request.resources.values.entries.all (fun e => !decide (pool.available.get e.1 < e.2))

/-- The mutation loop shared by `Acquire` and `Release`; it stops at the first failed `Set`. -/
def applyEach (combine : ResourceQuantity → ResourceQuantity → ResourceQuantity)
    (violated : Status) : List (String × ResourceQuantity) → ResourceSet → Status × ResourceSet
  | [], available => (.OK, available)
  | (name, quantity) :: rest, available =>
    let next := available.set name (combine (available.get name) quantity)
    if next.1.ok then applyEach combine violated rest next.2 else (violated, next.2)

def acquire (pool : ResourcePool) (request : ResourceRequest) : Status × ResourcePool :=
  if pool.canFit request then
    let done := applyEach (fun available requested => available - requested)
      (.Internal "Resource Invariant violated during acquire")
      request.resources.values.entries pool.available
    (done.1, { pool with available := done.2 })
  else
    (.ResourceExhausted "Requestsed resources do not fit current availability", pool)

/-- The validation loop of `Release`: nothing is released that is not in use. -/
def canRelease (pool : ResourcePool) (request : ResourceRequest) : Bool :=
  request.resources.values.entries.all
    (fun e => !decide (pool.total.get e.1 - pool.available.get e.1 < e.2))

def release (pool : ResourcePool) (request : ResourceRequest) : Status × ResourcePool :=
  if pool.canRelease request then
    let done := applyEach (fun available released => available + released)
      (.Internal "Resource Invariant violated during release")
      request.resources.values.entries pool.available
    (done.1, { pool with available := done.2 })
  else
    (.FailedPrecondition "release exceeds acquired amount for resource", pool)

theorem amount_of_unlisted {request : ResourceRequest} {name : String}
    (h : OrderedMap.lookupEntries name request.resources.values.entries = none) :
    request.amount name = 0 := by
  simp [ResourceRequest.amount, ResourceSet.amount, ResourceSet.get, OrderedMap.lookup, h]

theorem amount_of_mem {request : ResourceRequest} {e : String × ResourceQuantity}
    (h : e ∈ request.resources.values.entries) : request.amount e.1 = e.2.value := by
  have hl := OrderedMap.lookup_eq_some_iff.mpr h
  simp [ResourceRequest.amount, ResourceSet.amount, ResourceSet.get, hl]

/-- A name with a positive amount has an entry. -/
theorem mem_of_amount_pos {request : ResourceRequest} {name : String}
    (h : 0 < request.amount name) :
    ∃ quantity, (name, quantity) ∈ request.resources.values.entries ∧
      quantity.value = request.amount name := by
  cases hl : request.resources.values.lookup name with
  | none => simp [ResourceRequest.amount, ResourceSet.amount, ResourceSet.get, hl] at h
  | some quantity =>
    exact ⟨quantity, OrderedMap.lookup_eq_some_iff.mp hl,
      by simp [ResourceRequest.amount, ResourceSet.amount, ResourceSet.get, hl]⟩

theorem canFit_iff (pool : ResourcePool) (request : ResourceRequest) :
    pool.canFit request = true ↔
      ∀ name, request.amount name ≤ pool.available.amount name := by
  simp only [canFit, List.all_eq_true, Bool.not_eq_true', decide_eq_false_iff_not,
    ResourceQuantity.lt_iff, not_lt]
  constructor
  · intro h name
    have hnonneg := pool.available.amount_nonneg name
    by_cases hpos : 0 < request.amount name
    · obtain ⟨quantity, hmem, hvalue⟩ := mem_of_amount_pos hpos
      have := h (name, quantity) hmem
      rw [← hvalue]
      exact this
    · omega
  · intro h e hmem
    have := h e.1
    rw [amount_of_mem hmem] at this
    exact this

/-- What is in use of a name, computed without leaving the 64-bit range. -/
theorem value_inUse (pool : ResourcePool) (name : String) :
    (pool.total.get name - pool.available.get name).value =
      pool.total.amount name - pool.available.amount name :=
  ResourceQuantity.value_sub_of_nonneg (pool.total.amount_nonneg name)
    (pool.available.amount_nonneg name)

theorem canRelease_iff (pool : ResourcePool) (request : ResourceRequest) :
    pool.canRelease request = true ↔ ∀ name, 0 < request.amount name →
      request.amount name ≤ pool.total.amount name - pool.available.amount name := by
  simp only [canRelease, List.all_eq_true, Bool.not_eq_true', decide_eq_false_iff_not,
    ResourceQuantity.lt_iff, not_lt, value_inUse]
  constructor
  · intro h name hpos
    obtain ⟨quantity, hmem, hvalue⟩ := mem_of_amount_pos hpos
    have := h (name, quantity) hmem
    rw [← hvalue]
    exact this
  · intro h e hmem
    have hpos := (request.resources.canonical e.1 e.2
      (OrderedMap.lookup_eq_some_iff.mpr hmem)).2
    have := h e.1 (by rw [amount_of_mem hmem]; exact hpos)
    rw [amount_of_mem hmem] at this
    exact this

/-- The mutation loop writes each listed name once, when no combined value is negative. -/
theorem applyEach_spec (combine : ResourceQuantity → ResourceQuantity → ResourceQuantity)
    (violated : Status) (available : ResourceSet) {es : List (String × ResourceQuantity)}
    (hs : es.Pairwise (fun e f => e.1 < f.1))
    (hvalid : ∀ e ∈ es, isValidResourceName e.1 = true)
    (hnonneg : ∀ e ∈ es, 0 ≤ (combine (available.get e.1) e.2).value) :
    (applyEach combine violated es available).1 = .OK ∧
    ∀ name, (applyEach combine violated es available).2.amount name =
      match OrderedMap.lookupEntries name es with
      | none => available.amount name
      | some quantity => (combine (available.get name) quantity).value := by
  induction es generalizing available with
  | nil => exact ⟨rfl, fun _ => rfl⟩
  | cons e rest ih =>
    obtain ⟨key, quantity⟩ := e
    obtain ⟨hlt, hrest⟩ := List.pairwise_cons.mp hs
    obtain ⟨hok, hset⟩ := available.set_spec (hvalid (key, quantity) (by simp))
      (hnonneg (key, quantity) (by simp))
    let next := (available.set key (combine (available.get key) quantity)).2
    have hsame : ∀ name, name ≠ key → next.get name = available.get name := by
      intro name hne
      have := hset name
      rw [if_neg hne] at this
      exact ResourceQuantity.ext this
    obtain ⟨hok', hamount⟩ := ih next hrest
      (fun e he => hvalid e (List.mem_cons_of_mem _ he))
      (by
        intro e he
        rw [hsame e.1 (hlt e he).ne']
        exact hnonneg e (List.mem_cons_of_mem _ he))
    have hunfold : applyEach combine violated ((key, quantity) :: rest) available =
        applyEach combine violated rest next := by
      simp [applyEach, hok, next]
    rw [hunfold]
    refine ⟨hok', ?_⟩
    intro name
    rw [hamount name, OrderedMap.lookupEntries_cons]
    by_cases hk : name = key
    · subst hk
      have hnone : OrderedMap.lookupEntries name rest = none :=
        OrderedMap.lookupEntries_eq_none fun e he => (hlt e he).ne'
      simpa [hnone] using hset name
    · simp only [if_neg hk, hsame name hk]
      cases OrderedMap.lookupEntries name rest with
      | none => exact congrArg ResourceQuantity.value (hsame name hk)
      | some q => rfl

theorem entries_valid (request : ResourceRequest) :
    ∀ e ∈ request.resources.values.entries, isValidResourceName e.1 = true := fun e he =>
  (request.resources.canonical e.1 e.2 (OrderedMap.lookup_eq_some_iff.mpr he)).1

theorem entries_pos (request : ResourceRequest) :
    ∀ e ∈ request.resources.values.entries, 0 < e.2.value := fun e he =>
  (request.resources.canonical e.1 e.2 (OrderedMap.lookup_eq_some_iff.mpr he)).2

/-- What `Acquire` leaves of a listed name, computed without leaving the 64-bit range. -/
theorem value_remaining {pool : ResourcePool} {request : ResourceRequest}
    (h : pool.canFit request = true) {e : String × ResourceQuantity}
    (he : e ∈ request.resources.values.entries) :
    (pool.available.get e.1 - e.2).value = pool.available.amount e.1 - e.2.value ∧
    0 ≤ pool.available.amount e.1 - e.2.value := by
  have hle := (canFit_iff pool request).mp h e.1
  rw [amount_of_mem he] at hle
  refine ⟨?_, by omega⟩
  exact ResourceQuantity.value_sub_of_nonneg (pool.available.amount_nonneg e.1)
    (entries_pos request e he).le

/-- The sum that `Release` stores is at most the total, which is itself a 64-bit quantity. -/
theorem value_next {pool : ResourcePool} {request : ResourceRequest}
    (h : pool.canRelease request = true) {e : String × ResourceQuantity}
    (he : e ∈ request.resources.values.entries) :
    (pool.available.get e.1 + e.2).value = pool.available.amount e.1 + e.2.value ∧
    0 ≤ pool.available.amount e.1 + e.2.value ∧
    pool.available.amount e.1 + e.2.value ≤ pool.total.amount e.1 := by
  have hp := entries_pos request e he
  have hle := (canRelease_iff pool request).mp h e.1 (by rw [amount_of_mem he]; exact hp)
  rw [amount_of_mem he] at hle
  have hnonneg := pool.available.amount_nonneg e.1
  obtain ⟨-, hmax⟩ := (pool.total.get e.1).fits
  refine ⟨ResourceQuantity.value_add ?_, by omega, by omega⟩
  simp only [ResourceSet.amount] at hle hnonneg
  simp only [FitsInt64, int64Min, int64Max] at hmax ⊢
  omega

/-- `Acquire` of a fitting request succeeds and takes exactly what was requested. -/
theorem acquire_fits {pool : ResourcePool} {request : ResourceRequest}
    (h : pool.canFit request = true) :
    (pool.acquire request).1 = .OK ∧ (pool.acquire request).2.total = pool.total ∧
    ∀ name, (pool.acquire request).2.available.amount name =
      pool.available.amount name - request.amount name := by
  obtain ⟨hok, hamount⟩ := applyEach_spec (fun available requested => available - requested)
    (.Internal "Resource Invariant violated during acquire") pool.available
    request.resources.values.sorted (entries_valid request) (by
      intro e he
      obtain ⟨hvalue, hnonneg⟩ := value_remaining h he
      rw [hvalue]
      exact hnonneg)
  simp only [acquire, h, if_true]
  refine ⟨hok, trivial, ?_⟩
  intro name
  rw [hamount name]
  cases hl : OrderedMap.lookupEntries name request.resources.values.entries with
  | none => simp [amount_of_unlisted hl]
  | some q =>
    have hmem := OrderedMap.mem_of_lookupEntries hl
    simp only [(value_remaining h hmem).1, amount_of_mem hmem]

theorem acquire_refused {pool : ResourcePool} {request : ResourceRequest}
    (h : pool.canFit request = false) : pool.acquire request =
      (.ResourceExhausted "Requestsed resources do not fit current availability", pool) := by
  simp [acquire, h]

/-- `Release` of an amount in use succeeds and gives back exactly what was requested. -/
theorem release_fits {pool : ResourcePool} {request : ResourceRequest}
    (h : pool.canRelease request = true) :
    (pool.release request).1 = .OK ∧ (pool.release request).2.total = pool.total ∧
    ∀ name, (pool.release request).2.available.amount name =
      pool.available.amount name + request.amount name := by
  obtain ⟨hok, hamount⟩ := applyEach_spec (fun available released => available + released)
    (.Internal "Resource Invariant violated during release") pool.available
    request.resources.values.sorted (entries_valid request) (by
      intro e he
      obtain ⟨hvalue, hnonneg, -⟩ := value_next h he
      rw [hvalue]
      exact hnonneg)
  simp only [release, h, if_true]
  refine ⟨hok, trivial, ?_⟩
  intro name
  rw [hamount name]
  cases hl : OrderedMap.lookupEntries name request.resources.values.entries with
  | none => simp [amount_of_unlisted hl]
  | some q =>
    have hmem := OrderedMap.mem_of_lookupEntries hl
    simp only [(value_next h hmem).1, amount_of_mem hmem]

theorem release_refused {pool : ResourcePool} {request : ResourceRequest}
    (h : pool.canRelease request = false) : pool.release request =
      (.FailedPrecondition "release exceeds acquired amount for resource", pool) := by
  simp [release, h]

theorem release_ok_iff (pool : ResourcePool) (request : ResourceRequest) :
    (pool.release request).1.ok = true ↔ pool.canRelease request = true := by
  cases h : pool.canRelease request with
  | true => simp [(release_fits h).1]
  | false => simp [release_refused h]

theorem acquire_ok_iff (pool : ResourcePool) (request : ResourceRequest) :
    (pool.acquire request).1.ok = true ↔ pool.canFit request = true := by
  cases h : pool.canFit request with
  | true => simp [(acquire_fits h).1]
  | false => simp [acquire_refused h]

theorem ext_amount {pool pool' : ResourcePool} (htotal : pool.total = pool'.total)
    (h : ∀ name, pool.available.amount name = pool'.available.amount name) : pool = pool' := by
  obtain ⟨total, available⟩ := pool
  obtain ⟨total', available'⟩ := pool'
  cases htotal
  cases ResourceSet.ext_amount h
  rfl

@[simp] theorem release_total (pool : ResourcePool) (request : ResourceRequest) :
    (pool.release request).2.total = pool.total := by
  cases h : pool.canRelease request with
  | true => exact (release_fits h).2.1
  | false => rw [release_refused h]

end ResourcePool

end AgentRuntime
