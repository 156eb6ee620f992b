import AgentRuntime.Core.PoolHistory
import AgentRuntime.Node.RegistryHistory

/-!
# What a node has been committed to

For each registered lifetime an account says which registration started it,
what has been reserved from it and what has been released to it. The pool of a
lifetime starts from the resources the worker reported as available then, and
that report is what bounds the commitments. `Release` names a node and no
reservation, so the books number the reservations and say which of them a
`Release` is for: one for a reservation of an earlier lifetime fills the pool of
the present one, and no bound is stated once that has happened.
-/
namespace AgentRuntime

namespace NodeRegistry

/-- A call, with the number of the reservation that it is for if it is a `Release`. -/
structure Booking where
  call : Call
  reservation : Nat

/-- The account of a lifetime, opened by the registration that started it. -/
structure Account where
  registration : NodeRecord
  /-- What the pool of the lifetime has lent, and what has been released to it. -/
  reserved : List ResourceRequest
  released : List ResourceRequest
  /-- The reservations from the lifetime that are not yet released, with their numbers. -/
  opened : List (Nat × ResourceRequest)

/-- The sum of the requests reserved from the lifetime and not yet released. -/
def Account.outstanding (account : Account) (name : String) : Int :=
  Ledger.held (fun r => ResourceRequest.amount r.2) account.opened name

structure Books where
  registry : NodeRegistry
  /-- The account of the lifetime that was last registered under a NodeID. -/
  account : NodeID → Option Account
  /-- How many reservations have been made. -/
  made : Nat

namespace Books

def initial : Books := ⟨NodeRegistry.empty, fun _ => none, 0⟩

/-- The entry that a call makes in the account of a NodeID. A reservation is closed in the account
that has it, so not by a `Release` that comes when the account is that of a later lifetime. -/
def entry (b : Books) (booking : Booking) (id : NodeID) (account : Option Account) :
    Option Account :=
  match booking.call with
  | .registerNode node _ =>
    if id = node.nodeId ∧ startsLifetime b.registry node then some ⟨node, [], [], []⟩ else account
  | .reserveFirstFit request =>
    match (b.registry.reserveFirstFit request).2.1 with
    | none => account
    | some node =>
      if id = node.nodeId then
        account.map fun a =>
          { a with
            reserved := a.reserved ++ [request]
            opened := a.opened ++ [(b.made, request)] }
      else account
  | .release nodeId request =>
    if id = nodeId ∧ (b.registry.release nodeId request).1.ok then
      account.map fun a =>
        { a with
          released := a.released ++ [request]
          opened := a.opened.erase (booking.reservation, request) }
    else account
  | _ => account

def step (b : Books) (booking : Booking) : Option Books := some
  { registry := (booking.call.reply b.registry).2
    account := fun id => entry b booking id (b.account id)
    made := b.made + if (booking.call.selects b.registry).isSome then 1 else 0 }

/-- A `Release` that is accepted is for an open reservation of the registered lifetime. -/
def releasesOpen (b : Books) (booking : Booking) : Bool :=
  match booking.call with
  | .release nodeId request =>
    !(b.registry.release nodeId request).1.ok ||
      (b.account nodeId).any fun a => a.opened.contains (booking.reservation, request)
  | _ => true

theorem run_total (bookings : List Booking) (b : Books) :
    ∃ b', Run.run step bookings b = some b' :=
  Run.run_total (fun _ _ => ⟨_, rfl⟩) bookings b

theorem run_registry {bookings : List Booking} {b : Books}
    (h : Run.run step bookings initial = some b) :
    b.registry = registryAfter (bookings.map Booking.call) := by
  induction bookings using List.reverseRecOn generalizing b with
  | nil =>
    cases h
    rfl
  | append_singleton bookings booking ih =>
    obtain ⟨b₁, h₁, h₂⟩ := Run.run_split h
    obtain ⟨b₂, hstep, hnil⟩ := Run.run_cons_some h₂
    cases hstep
    cases hnil
    rw [List.map_append, List.map_singleton, registryAfter_concat, ← ih h₁]

end Books

/-! ## The account and the stored node -/

/-- The stored node is of the lifetime of the account, and its pool agrees with it. -/
structure Accounted (account : Account) (stored : StoredNode) : Prop where
  incarnation : stored.record.incarnation = account.registration.incarnation
  total : stored.record.totalResources = account.registration.totalResources
  pool : PoolHistory.Conserved account.registration.reportedAvailable
    ⟨stored.schedulablePool, account.reserved, account.released⟩

def Balanced (b : Books) : Prop :=
  b.registry.WellFormed ∧ ∀ id stored, b.registry.nodes.lookup id = some stored →
    ∃ account, b.account id = some account ∧ Accounted account stored

theorem balanced_initial : Balanced Books.initial :=
  ⟨wellFormed_empty, by simp [Books.initial, empty]⟩

/-- A registration that starts a lifetime stores the node afresh. -/
theorem registerNode_starts {reg : NodeRegistry} {node : NodeRecord} (now : Int)
    (h : startsLifetime reg node) (id : NodeID) :
    (reg.registerNode node now).2.nodes.lookup id =
      if id = node.nodeId then some (.new (freshRecord node now)) else reg.nodes.lookup id := by
  obtain ⟨haccepts, hnewer⟩ := h
  obtain he | ⟨-, -, ⟨-, he⟩ | ⟨stored, -, -, he⟩⟩ := registerNode_cases reg node now
  · -- the registry stays as it is only for a duplicate or a refusal
    obtain ⟨hno, -⟩ | ⟨-, -, hstates⟩ := registerNode_reply reg node now
    · exact absurd ⟨haccepts, hnewer⟩ hno
    · have hstate := hstates node.nodeId
      rw [he, if_pos rfl] at hstate
      have hlifetime : reg.lifetimeOf node.nodeId = some node.incarnation := by
        rw [lifetimeOf_eq_stateOf, hstate]
        rfl
      exact absurd (hnewer _ hlifetime) (lt_irrefl _)
  · rw [he, UnorderedMap.lookup_insert_eq]
  · rw [he, UnorderedMap.lookup_insert_eq]

theorem registerNode_same {reg : NodeRegistry} {node : NodeRecord} (now : Int)
    (h : ¬ startsLifetime reg node) : (reg.registerNode node now).2 = reg := by
  obtain ⟨-, he, -⟩ | ⟨hstarts, -⟩ := registerNode_reply reg node now
  · exact he
  · exact absurd hstarts h

theorem Accounted.fresh (node : NodeRecord) (now : Int) :
    Accounted ⟨node, [], [], []⟩ (.new (freshRecord node now)) where
  incarnation := rfl
  total := rfl
  pool := PoolHistory.conserved_initial node.reportedAvailable

theorem Accounted.reserve {account : Account} {stored : StoredNode} (h : Accounted account stored)
    {request : ResourceRequest} (hfit : stored.schedulablePool.canFit request = true)
    (opened : List (Nat × ResourceRequest)) :
    Accounted { account with reserved := account.reserved ++ [request], opened := opened }
      (stored.withPool (stored.schedulablePool.acquire request).2) where
  incarnation := h.incarnation
  total := h.total
  pool := by
    refine h.pool.step (c := .acquire request) ?_
    simp [PoolHistory.step, ResourcePool.Call.reply, ResourcePool.Call.takes,
      ResourcePool.Call.returns, (ResourcePool.acquire_fits hfit).1, StoredNode.withPool]

theorem Accounted.giveBack {account : Account} {stored : StoredNode}
    (h : Accounted account stored) {request : ResourceRequest}
    (hfit : stored.schedulablePool.canRelease request = true)
    (opened : List (Nat × ResourceRequest)) :
    Accounted { account with released := account.released ++ [request], opened := opened }
      (stored.withPool (stored.schedulablePool.release request).2) where
  incarnation := h.incarnation
  total := h.total
  pool := by
    refine h.pool.step (c := .release request) ?_
    simp [PoolHistory.step, ResourcePool.Call.reply, ResourcePool.Call.takes,
      ResourcePool.Call.returns, (ResourcePool.release_fits hfit).1, StoredNode.withPool]

/-- Heartbeats and scans leave the account as it is. -/
theorem Accounted.record {account : Account} {stored stored' : StoredNode}
    (h : Accounted account stored) (hinc : stored'.record.incarnation = stored.record.incarnation)
    (htotal : stored'.record.totalResources = stored.record.totalResources)
    (hpool : stored'.schedulablePool = stored.schedulablePool) : Accounted account stored' where
  incarnation := hinc.trans h.incarnation
  total := htotal.trans h.total
  pool := by
    rw [hpool]
    exact h.pool

theorem Balanced.step {b b' : Books} {booking : Booking} (h : Balanced b)
    (hs : Books.step b booking = some b') : Balanced b' := by
  cases hs
  obtain ⟨hwf, haccounts⟩ := h
  obtain ⟨c, number⟩ := booking
  refine ⟨Call.wellFormed hwf c, ?_⟩
  intro id stored hl
  cases c with
  | registerNode node now =>
    simp only [Call.reply, Books.entry] at hl ⊢
    by_cases hstarts : startsLifetime b.registry node
    · rw [registerNode_starts now hstarts] at hl
      by_cases hid : id = node.nodeId
      · rw [if_pos hid] at hl
        cases hl
        exact ⟨_, by rw [if_pos ⟨hid, hstarts⟩], .fresh node now⟩
      · rw [if_neg hid] at hl
        rw [if_neg (fun h => hid h.1)]
        exact haccounts id stored hl
    · rw [registerNode_same now hstarts] at hl
      rw [if_neg (fun h => hstarts h.2)]
      exact haccounts id stored hl
  | heartbeat nodeId incarnation reported running now =>
    simp only [Call.reply, Books.entry] at hl ⊢
    obtain he | ⟨old, hold, -, -, he⟩ :=
      heartbeat_cases b.registry nodeId incarnation reported running now
    · rw [he] at hl
      exact haccounts id stored hl
    · rw [he, UnorderedMap.lookup_insert_eq] at hl
      split at hl
      · rename_i hid
        subst hid
        cases hl
        obtain ⟨account, haccount, hac⟩ := haccounts id old hold
        exact ⟨account, haccount, hac.record rfl rfl rfl⟩
      · exact haccounts id stored hl
  | updateLiveness now suspect dead =>
    simp only [Call.reply, Books.entry] at hl ⊢
    obtain he | he := updateLiveness_lookup b.registry now suspect dead id
    · rw [he] at hl
      exact haccounts id stored hl
    · rw [he] at hl
      obtain ⟨old, hold, rfl⟩ := Option.map_eq_some_iff.mp hl
      obtain ⟨account, haccount, hac⟩ := haccounts id old hold
      refine ⟨account, haccount, ?_⟩
      simp only [rescan]
      split
      · exact hac
      · exact hac.record rfl rfl rfl
  | removeNode nodeId incarnation =>
    simp only [Call.reply, Books.entry] at hl ⊢
    obtain he | ⟨-, he⟩ := removeNode_cases b.registry nodeId incarnation
    · rw [he] at hl
      exact haccounts id stored hl
    · rw [he, UnorderedMap.lookup_erase_eq] at hl
      split at hl
      · cases hl
      · exact haccounts id stored hl
  | reserveFirstFit request =>
    simp only [Call.reply, Books.entry] at hl ⊢
    obtain he | ⟨k, old, hold, -, hfit, he⟩ := reserveFirstFit_cases b.registry request
    · rw [he] at hl ⊢
      exact haccounts id stored hl
    · rw [he] at hl ⊢
      have hkey : (StoredNode.withPool old (old.schedulablePool.acquire request).2).record.nodeId =
          k := (hwf.entries k old hold).keyed
      rw [putPool, UnorderedMap.lookup_insert_eq] at hl
      simp only [hkey]
      by_cases hid : id = k
      · subst hid
        rw [if_pos rfl] at hl
        cases hl
        obtain ⟨account, haccount, hac⟩ := haccounts id old hold
        exact ⟨_, by rw [if_pos rfl, haccount]; rfl, hac.reserve hfit _⟩
      · rw [if_neg hid] at hl
        rw [if_neg hid]
        exact haccounts id stored hl
  | release nodeId request =>
    simp only [Call.reply, Books.entry] at hl ⊢
    obtain ⟨hno, he, -⟩ | ⟨old, hold, hfit, he⟩ := release_cases b.registry nodeId request
    · rw [he] at hl
      rw [if_neg (by simp [hno])]
      exact haccounts id stored hl
    · rw [he, putPool, UnorderedMap.lookup_insert_eq] at hl
      rw [he]
      by_cases hid : id = nodeId
      · subst hid
        rw [if_pos rfl] at hl
        cases hl
        obtain ⟨account, haccount, hac⟩ := haccounts id old hold
        exact ⟨_, by rw [if_pos ⟨rfl, rfl⟩, haccount]; rfl, hac.giveBack hfit _⟩
      · rw [if_neg hid] at hl
        rw [if_neg (fun h => hid h.1)]
        exact haccounts id stored hl

/-- What is open in an account is what has been reserved and not released. -/
def Settled (b : Books) : Prop := ∀ id account, b.account id = some account → ∀ name,
  account.outstanding name = Ledger.held ResourceRequest.amount account.reserved name -
    Ledger.held ResourceRequest.amount account.released name

theorem settled_initial : Settled Books.initial := by
  intro id account h
  cases h

/-- A release closes its reservation, if that is open. -/
theorem outstanding_erase {opened : List (Nat × ResourceRequest)} {r : Nat × ResourceRequest}
    (h : r ∈ opened) (name : String) :
    Ledger.held (fun r => ResourceRequest.amount r.2) (opened.erase r) name =
      Ledger.held (fun r => ResourceRequest.amount r.2) opened name - r.2.amount name := by
  have hperm : Ledger.held (fun r : Nat × ResourceRequest => r.2.amount) opened name =
      Ledger.held (fun r => r.2.amount) (r :: opened.erase r) name :=
    Ledger.held_perm (List.perm_cons_erase h) name
  rw [Ledger.held_cons] at hperm
  omega

theorem Settled.step {b b' : Books} {booking : Booking} (h : Settled b)
    (hC : b.releasesOpen booking = true) (hs : Books.step b booking = some b') : Settled b' := by
  cases hs
  obtain ⟨c, number⟩ := booking
  intro id account haccount name
  cases c with
  | registerNode node now =>
    simp only [Books.entry] at haccount
    split at haccount
    · cases haccount
      rfl
    · exact h id account haccount name
  | reserveFirstFit request =>
    simp only [Books.entry] at haccount
    split at haccount
    · exact h id account haccount name
    · split at haccount
      · obtain ⟨old, hold, rfl⟩ := Option.map_eq_some_iff.mp haccount
        have hsettled := h id old hold name
        simp only [Account.outstanding, Ledger.held_append, Ledger.held_cons,
          Ledger.held_nil] at hsettled ⊢
        omega
      · exact h id account haccount name
  | release nodeId request =>
    simp only [Books.entry] at haccount
    split at haccount
    · rename_i hreleased
      obtain ⟨rfl, hok⟩ := hreleased
      obtain ⟨old, hold, rfl⟩ := Option.map_eq_some_iff.mp haccount
      have hopen : (number, request) ∈ old.opened := by
        simpa [Books.releasesOpen, hok, hold] using hC
      have hsettled := h id old hold name
      simp only [Account.outstanding, outstanding_erase hopen, Ledger.held_append,
        Ledger.held_cons, Ledger.held_nil] at hsettled ⊢
      omega
    · exact h id account haccount name
  | heartbeat | updateLiveness | removeNode => exact h id account haccount name

namespace Sample

/-- A worker with one CPU that reports two as available. -/
def boasting : NodeRecord where
  nodeId := nodeId
  workerEndpoint := "worker:1"
  totalResources := AgentRuntime.Sample.cpu AgentRuntime.Sample.oneCpu
  reportedAvailable := AgentRuntime.Sample.cpu AgentRuntime.Sample.twoCpus
  schedulableAvailable := .empty
  incarnation := 1
  state := .alive
  runningTasks := 0
  lastHeartbeatReceived := 0

def twoCpuRequest : ResourceRequest := ⟨AgentRuntime.Sample.cpu AgentRuntime.Sample.twoCpus⟩
def oneCpuRequest : ResourceRequest := ⟨AgentRuntime.Sample.cpu AgentRuntime.Sample.oneCpu⟩

/-- Two reservations are made, and the first is released. -/
def released : List Booking :=
  [⟨.registerNode boasting 0, 0⟩, ⟨.reserveFirstFit oneCpuRequest, 0⟩,
    ⟨.reserveFirstFit oneCpuRequest, 0⟩, ⟨.release nodeId oneCpuRequest, 0⟩]

end Sample

end NodeRegistry

end AgentRuntime
