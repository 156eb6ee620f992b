import AgentRuntime.Control.RecordHistory
import AgentRuntime.Library.Ledger

/-!
# Every reservation is given back once

The books of the control plane: for each task how often its reservation was
given back, as far as its call and its record tell, and for each registered
lifetime that its pool lacks exactly what the open reservations hold. They stay
balanced as long as no rollback erases a terminal record and no lifetime ends
while a reservation is open on it.
-/
namespace AgentRuntime

namespace ControlSystem

variable {s u : State}

/-- What the phase of the call and the record say about the releases made for a task. -/
def Account (phase : SubmitPhase) (t : TaskID) (record : Option DistributedTaskRecord)
    (given : Nat) : Prop :=
  match phase with
  | .unused | .refused _ | .reserved _ | .erased _ _ => record = none ∧ given = 0
  | .published call | .undelivered call _ | .accepted call => ∃ r, record = some r ∧
      SameTask (call.record t) r ∧ given = if isTerminal r.state then 1 else 0
  | .rolledBack _ _ => record = none ∧ given = 1

/-- The reservation of the task is open: made and not given back. -/
def State.holds (s : State) (t : TaskID) : Bool :=
  match s.phase t with
  | .unused | .refused _ | .rolledBack _ _ => false
  | .reserved _ | .erased _ _ => true
  | .published _ | .undelivered _ _ | .accepted _ =>
    (s.record t).any fun record => !isTerminal record.state

theorem Account.holds_iff {t : TaskID} {given : Nat}
    (h : Account (s.phase t) t (s.record t) given) :
    s.holds t = true ↔ (s.callOf t).isSome = true ∧ given = 0 := by
  simp only [State.holds, State.callOf]
  cases hp : s.phase t with
  | unused | refused => simp [SubmitPhase.call?]
  | reserved | erased =>
    rw [hp] at h
    simp [SubmitPhase.call?, h.2]
  | rolledBack =>
    rw [hp] at h
    simp [SubmitPhase.call?, h.2]
  | published | undelivered | accepted =>
    rw [hp] at h
    obtain ⟨r, hr, -, hgiven⟩ := h
    cases ht : isTerminal r.state <;> simp [SubmitPhase.call?, hr, hgiven, ht]

/-- Writing over a record that exists. -/
theorem Account.update {phase : SubmitPhase} {t : TaskID} {old new : DistributedTaskRecord}
    {given given' : Nat} (h : Account phase t (some old) given) (hlive : isTerminal old.state = false)
    (hsame : SameTask old new)
    (hgiven : given' = given + if isTerminal new.state then 1 else 0) :
    Account phase t (some new) given' := by
  cases phase with
  | unused | refused | reserved | erased | rolledBack => cases h.1
  | published | undelivered | accepted =>
    obtain ⟨r, hr, hsame', hcount⟩ := h
    cases hr
    exact ⟨new, rfl, hsame'.trans hsame, by simp [hgiven, hcount, hlive]⟩

/-- The account of a task is kept by a step whose rollback erases no terminal record and whose
rollback release succeeds. -/
theorem Account.step {a : Action} {t : TaskID} {given : Nat}
    (h : Account (s.phase t) t (s.record t) given) (hC : rollbackFindsLive s a = true)
    (hrelease : ∀ call status, s.phase t = .erased call status →
      (s.registry.release call.node.nodeId call.submission.resources).1.ok = true)
    (ht : TaskStep s u a t) :
    Account (u.phase t) t (u.record t) (given + (givenBack s a).count t) := by
  cases ht with
  | other hphase hrecord hgiven =>
    rw [hphase, hrecord, List.count_eq_zero.mpr hgiven]
    exact h
  | refused status hphase hphase' hrecord hgiven =>
    rw [hphase] at h
    rw [hphase', hrecord, hgiven]
    exact h
  | reserved call hphase hphase' hrecord hgiven =>
    rw [hphase] at h
    rw [hphase', hrecord, hgiven]
    exact h
  | published call hfree hphase hphase' hrecord hgiven =>
    rw [hphase] at h
    rw [hphase', hrecord, hgiven, if_pos h.1]
    exact ⟨call.record t, rfl, .refl _, by simp [h.2]; rfl⟩
  | delivered call status ha hok hphase hphase' hrecord hgiven =>
    rw [hphase] at h
    rw [hphase', hrecord, hgiven]
    exact h
  | undelivered call status hphase hphase' hrecord hgiven =>
    rw [hphase] at h
    rw [hphase', hrecord, hgiven]
    exact h
  | erased call status ha hphase hphase' hrecord hgiven =>
    subst ha
    rw [hphase] at h
    obtain ⟨r, hr, -, hcount⟩ := h
    rw [hphase', hrecord, hgiven]
    refine ⟨rfl, ?_⟩
    simp [hcount, rollbackFindsLive_erase hC hr]
  | rolledBack call status status' hphase hphase' hrecord hgiven =>
    have hok := hrelease call status hphase
    rw [hphase] at h
    rw [hphase', hrecord, hgiven, hok]
    exact ⟨h.1, by simp [h.2]⟩
  | requested old new hphase hold hlive hnew hlive' hsame hgiven =>
    rw [hold] at h
    rw [hphase, hnew, hgiven]
    exact Account.update h hlive hsame (by simp [hlive'])
  | ended old new hphase hold hlive hnew hterm hsame hgiven =>
    rw [hold] at h
    rw [hphase, hnew, hgiven]
    exact Account.update h hlive hsame (by simp [hterm])

/-! ## The books -/

/-- What the open reservation of a task holds of the pool of a lifetime. -/
def State.claimed (s : State) (id : NodeID) (incarnation : Nat) (t : TaskID) (name : String) :
    Int :=
  match s.callOf t with
  | some call =>
    if call.node.nodeId = id ∧ call.node.incarnation = incarnation then
      call.submission.resources.amount name
    else 0
  | none => 0

theorem State.claimed_of_call {t : TaskID} {call : SubmitCall} (h : s.callOf t = some call) :
    s.claimed call.node.nodeId call.node.incarnation t = call.submission.resources.amount := by
  funext name
  simp [State.claimed, h]

theorem State.claimed_of_ne {id : NodeID} {i : Nat} {t : TaskID} {call : SubmitCall}
    (h : s.callOf t = some call) (hne : call.node.nodeId ≠ id) :
    s.claimed id i t = fun _ => 0 := by
  funext name
  simp [State.claimed, h, hne]

theorem State.claimed_nonneg (s : State) (id : NodeID) (i : Nat) (t : TaskID) (name : String) :
    0 ≤ s.claimed id i t name := by
  simp only [State.claimed]
  split
  · split
    · exact ResourceRequest.amount_nonneg _ name
    · exact le_refl 0
  · exact le_refl 0

/-- The pool of every registered lifetime lacks what the listed tasks hold of it. -/
def PoolsBalanced (s : State) (claims : List TaskID) : Prop :=
  ∀ id i pool, s.registry.poolOf id = some (i, pool) →
    Ledger.Balanced pool.total.amount pool.available.amount (s.claimed id i) claims

structure Books (given : List TaskID) (s : State) : Prop where
  wellFormed : s.registry.WellFormed
  accounts : ∀ t, Account (s.phase t) t (s.record t) (given.count t)
  placed : ∀ t call, s.callOf t = some call → given.count t = 0 →
    s.registry.lifetimeOf call.node.nodeId = some call.node.incarnation
  balanced : ∃ claims : List TaskID, claims.Nodup ∧
    (∀ t, t ∈ claims ↔ (s.callOf t).isSome = true ∧ given.count t = 0) ∧ PoolsBalanced s claims

theorem books_initial : Books [] .initial where
  wellFormed := NodeRegistry.wellFormed_empty
  accounts := fun t => ⟨rfl, rfl⟩
  placed := by
    intro t call h
    cases h
  balanced := by
    refine ⟨[], .nil, fun t => ?_, ?_⟩
    · have hnone : State.initial.callOf t = none := rfl
      simp [hnone]
    · intro id i pool h
      cases h

/-- An open reservation can always be given back. -/
theorem Books.can_release {given : List TaskID} (h : Books given s) {t : TaskID}
    {call : SubmitCall} (hcall : s.callOf t = some call) (hopen : given.count t = 0) :
    (s.registry.release call.node.nodeId call.submission.resources).1.ok = true := by
  have hlife := h.placed t call hcall hopen
  rw [NodeRegistry.lifetimeOf_eq_poolOf] at hlife
  obtain ⟨⟨i, pool⟩, hpool, rfl⟩ := Option.map_eq_some_iff.mp hlife
  obtain ⟨claims, -, hmem, hbal⟩ := h.balanced
  have hfit : pool.canRelease call.submission.resources = true := by
    rw [ResourcePool.canRelease_iff]
    intro name _
    have hcovers := (hbal _ _ _ hpool).covers (s.claimed_nonneg _ _)
      ((hmem t).mpr ⟨by simp [hcall], hopen⟩) name
    rwa [State.claimed_of_call hcall] at hcovers
  obtain ⟨stored, hl, -, rfl⟩ := NodeRegistry.lookup_of_poolOf hpool
  obtain ⟨-, -, hno⟩ | ⟨stored', -, -, he⟩ :=
    s.registry.release_cases call.node.nodeId call.submission.resources
  · rw [hno stored hl] at hfit
    cases hfit
  · rw [he]
    rfl

/-- A release is made for an open reservation and names its node and its request. -/
theorem Books.release_matches {given : List TaskID} (h : Books given s) {a : Action}
    {r : ReleaseCall} (hr : releaseCall s a = some r) : ∃ call, s.callOf r.taskId = some call ∧
      given.count r.taskId = 0 ∧ r.nodeId = call.node.nodeId ∧
      r.incarnation = call.node.incarnation ∧ r.resources = call.submission.resources := by
  have hrecord : ∀ t record, s.record t = some record → isTerminal record.state = false →
      ∃ call, s.callOf t = some call ∧ given.count t = 0 ∧ record.nodeId = call.node.nodeId ∧
        record.nodeIncarnation = call.node.incarnation ∧
        record.resources = call.submission.resources := by
    intro t record hrec hlive
    have hacc := h.accounts t
    rw [hrec] at hacc
    cases hp : s.phase t with
    | unused | refused | reserved | erased | rolledBack =>
      rw [hp] at hacc
      cases hacc.1
    | published call | undelivered call | accepted call =>
      rw [hp] at hacc
      obtain ⟨_, ⟨⟩, hsame, hcount⟩ := hacc
      refine ⟨call, by simp [State.callOf, hp, SubmitPhase.call?], by simpa [hlive] using hcount,
        hsame.nodeId, hsame.nodeIncarnation, hsame.resources⟩
  cases a with
  | submitRelease t =>
    simp only [releaseCall] at hr
    split at hr
    · rename_i call status hp
      cases hr
      have hacc := h.accounts t
      rw [hp] at hacc
      exact ⟨call, by simp [State.callOf, hp, SubmitPhase.call?], hacc.2, rfl, rfl, rfl⟩
    · cases hr
  | report t e state terminalStatus result media =>
    simp only [releaseCall] at hr
    split at hr
    · obtain ⟨record, hrec, hif⟩ := Option.bind_eq_some_iff.mp hr
      split at hif
      · rename_i hlive
        cases hif
        exact hrecord t record hrec hlive.2
      · cases hif
    · cases hr
  | deadNext =>
    simp only [releaseCall] at hr
    obtain ⟨call, -, hr⟩ := Option.bind_eq_some_iff.mp hr
    obtain ⟨t, -, hr⟩ := Option.bind_eq_some_iff.mp hr
    obtain ⟨record, hrec, hif⟩ := Option.bind_eq_some_iff.mp hr
    split at hif
    · rename_i hf
      cases hif
      exact hrecord t record hrec hf.2
    · cases hif
  | _ => cases hr

/-- No reservation is open on the node, whatever its lifetime. -/
def State.nothingHeldOn (s : State) (id : NodeID) : Bool :=
  decide (∀ t ∈ s.submits.keys, s.holds t = true →
    (s.callOf t).all fun call => call.node.nodeId ≠ id)

/-- Neither a newer registration nor a removal ends a lifetime on which a reservation is open. -/
def endsNoHeldLifetime (s : State) : Action → Bool
  | .registerNode node _ =>
    !decide (NodeRegistry.startsLifetime s.registry node) || s.nothingHeldOn node.nodeId
  | .removeNode nodeId incarnation =>
    s.registry.lifetimeOf nodeId ≠ some incarnation || s.nothingHeldOn nodeId
  | _ => true

theorem Books.nothingHeld {given : List TaskID} (h : Books given s) {id : NodeID}
    (hid : s.nothingHeldOn id = true) {t : TaskID} {call : SubmitCall}
    (hcall : s.callOf t = some call) (hopen : given.count t = 0) : call.node.nodeId ≠ id := by
  have hholds : s.holds t = true := (h.accounts t).holds_iff.mpr ⟨by simp [hcall], hopen⟩
  have hkey : t ∈ s.submits.keys := by
    rw [Finmap.mem_keys, Finmap.mem_iff]
    cases hl : s.submits.lookup t with
    | none => simp [State.callOf, State.phase, hl, SubmitPhase.call?] at hcall
    | some phase => exact ⟨phase, rfl⟩
  simp only [State.nothingHeldOn, decide_eq_true_eq] at hid
  simpa [hcall] using hid t hkey hholds

/-! ## Balanced pools, step by step -/

theorem claimed_congr (hcalls : u.callOf = s.callOf) : u.claimed = s.claimed := by
  funext id i t name
  simp only [State.claimed, hcalls]

/-- The pools when none of them changes. -/
theorem PoolsBalanced.same {claims : List TaskID} (h : PoolsBalanced s claims)
    (hcalls : u.callOf = s.callOf) (hpools : u.registry.poolOf = s.registry.poolOf) :
    PoolsBalanced u claims := by
  intro id i pool hp
  rw [hpools] at hp
  rw [claimed_congr hcalls]
  exact h id i pool hp

/-- A new lifetime on which nothing is held starts with a full pool. -/
theorem PoolsBalanced.registered {claims : List TaskID} (h : PoolsBalanced s claims)
    {node : NodeRecord} (hcalls : u.callOf = s.callOf)
    (hidle : ∀ t ∈ claims, ∀ i, s.claimed node.nodeId i t = fun _ => 0)
    (hpools : ∀ id, u.registry.poolOf id =
      if id = node.nodeId then some (node.incarnation, .new node.reportedAvailable)
      else s.registry.poolOf id) : PoolsBalanced u claims := by
  intro id i pool hp
  rw [hpools] at hp
  rw [claimed_congr hcalls]
  split at hp
  · rename_i hid
    cases hp
    rw [hid]
    exact .full (fun _ => rfl) fun t ht => hidle t ht _
  · exact h id i pool hp

theorem PoolsBalanced.removed {claims : List TaskID} (h : PoolsBalanced s claims)
    {nodeId : NodeID} (hcalls : u.callOf = s.callOf)
    (hpools : ∀ id, u.registry.poolOf id = if id = nodeId then none else s.registry.poolOf id) :
    PoolsBalanced u claims := by
  intro id i pool hp
  rw [hpools] at hp
  rw [claimed_congr hcalls]
  split at hp
  · cases hp
  · exact h id i pool hp

/-- A reservation adds its task to the claims. -/
theorem PoolsBalanced.reserved {claims : List TaskID} (h : PoolsBalanced s claims) {t : TaskID}
    {call : SubmitCall} {pool : ResourcePool} (hnew : t ∉ claims)
    (hcalls : ∀ t', u.callOf t' = if t' = t then some call else s.callOf t')
    (hpool : s.registry.poolOf call.node.nodeId = some (call.node.incarnation, pool))
    (hfit : pool.canFit call.submission.resources = true)
    (hpools : ∀ id, u.registry.poolOf id =
      if id = call.node.nodeId then
        some (call.node.incarnation, (pool.acquire call.submission.resources).2)
      else s.registry.poolOf id) : PoolsBalanced u (t :: claims) := by
  have hcall : u.callOf t = some call := by rw [hcalls, if_pos rfl]
  have hold : ∀ id i, ∀ t' ∈ claims, s.claimed id i t' = u.claimed id i t' := by
    intro id i t' ht'
    funext name
    have hne : t' ≠ t := fun he => hnew (he ▸ ht')
    simp only [State.claimed, hcalls, if_neg hne]
  intro id i pool' hp
  rw [hpools] at hp
  split at hp
  · rename_i hid
    cases hp
    obtain ⟨-, htotal, hamount⟩ := ResourcePool.acquire_fits hfit
    have hbal := (h _ _ _ hpool).congr (hold _ _)
    rw [htotal, hid]
    refine hbal.grant fun name => ?_
    rw [hamount name, State.claimed_of_call hcall]
  · rename_i hid
    have hzero := State.claimed_of_ne (i := i) hcall (Ne.symm hid)
    exact (Ledger.Balanced.skip fun name => congrFun hzero name).mpr
      ((h id i pool' hp).congr (hold id i))

/-- A release takes its task out of the claims. -/
theorem PoolsBalanced.released {claims : List TaskID} {t : TaskID} {call : SubmitCall}
    {pool : ResourcePool} (h : PoolsBalanced s (t :: claims)) (hcalls : u.callOf = s.callOf)
    (hcall : s.callOf t = some call)
    (hpool : s.registry.poolOf call.node.nodeId = some (call.node.incarnation, pool))
    (hfit : pool.canRelease call.submission.resources = true)
    (hpools : ∀ id, u.registry.poolOf id =
      if id = call.node.nodeId then
        some (call.node.incarnation, (pool.release call.submission.resources).2)
      else s.registry.poolOf id) : PoolsBalanced u claims := by
  intro id i pool' hp
  rw [hpools] at hp
  rw [claimed_congr hcalls]
  split at hp
  · rename_i hid
    cases hp
    obtain ⟨-, htotal, hamount⟩ := ResourcePool.release_fits hfit
    rw [htotal, hid]
    refine (h _ _ _ hpool).giveBack fun name => ?_
    rw [hamount name, State.claimed_of_call hcall]
  · rename_i hid
    have hzero := State.claimed_of_ne (i := i) hcall (Ne.symm hid)
    exact (Ledger.Balanced.skip fun name => congrFun hzero name).mp (h id i pool' hp)

theorem claimed_idle {given claims : List TaskID}
    (hmem : ∀ t, t ∈ claims ↔ (s.callOf t).isSome = true ∧ given.count t = 0) {id : NodeID}
    (hidle : ∀ t call, s.callOf t = some call → given.count t = 0 → call.node.nodeId ≠ id) :
    ∀ t ∈ claims, ∀ i, s.claimed id i t = fun _ => 0 := by
  intro t ht i
  obtain ⟨hsome, hopen⟩ := (hmem t).mp ht
  obtain ⟨call, hcall⟩ := Option.isSome_iff_exists.mp hsome
  exact State.claimed_of_ne hcall (hidle t call hcall hopen)

/-- Lending and giving back leave the lifetimes as they are. -/
theorem lifetimeOf_of_pools {id₀ : NodeID} {i : Nat} {pool pool' : ResourcePool}
    (hpool : s.registry.poolOf id₀ = some (i, pool))
    (hpools : ∀ id, u.registry.poolOf id =
      if id = id₀ then some (i, pool') else s.registry.poolOf id) (id : NodeID) :
    u.registry.lifetimeOf id = s.registry.lifetimeOf id := by
  rw [NodeRegistry.lifetimeOf_eq_poolOf, NodeRegistry.lifetimeOf_eq_poolOf, hpools]
  split
  · rename_i hid
    rw [hid, hpool]
    rfl
  · rfl

theorem Books.step {given : List TaskID} {a : Action} (h : Books given s)
    (hC : rollbackFindsLive s a = true) (hL : endsNoHeldLifetime s a = true)
    (hstep : step s a = some u) : Books (given ++ givenBack s a) u := by
  have hcount : ∀ t, (given ++ givenBack s a).count t = given.count t + (givenBack s a).count t :=
    fun t => List.count_append
  have haccounts : ∀ t, Account (u.phase t) t (u.record t) ((given ++ givenBack s a).count t) := by
    intro t
    rw [hcount]
    refine Account.step (h.accounts t) hC ?_ (step_task hstep t)
    intro call status hp
    have hacc := h.accounts t
    rw [hp] at hacc
    exact h.can_release (by simp [State.callOf, hp, SubmitPhase.call?]) hacc.2
  obtain ⟨claims, hnodup, hmem, hbal⟩ := h.balanced
  have hwf := step_wellFormed h.wellFormed hstep
  cases step_pools h.wellFormed hstep with
  | same hcalls hgiven hpools =>
    rw [hgiven, List.append_nil] at haccounts ⊢
    refine ⟨hwf, haccounts, ?_, claims, hnodup, ?_, hbal.same hcalls hpools⟩
    · intro t call hcall hopen
      rw [NodeRegistry.lifetimeOf_eq_poolOf, hpools, ← NodeRegistry.lifetimeOf_eq_poolOf]
      exact h.placed t call (by rw [← hcalls, hcall]) hopen
    · rw [hcalls]
      exact hmem
  | registered node now ha hcalls hgiven hstarts hpools =>
    subst ha
    rw [hgiven, List.append_nil] at haccounts ⊢
    have hheld : s.nothingHeldOn node.nodeId = true := by
      simpa [endsNoHeldLifetime, hstarts] using hL
    have hidle : ∀ t call, s.callOf t = some call → given.count t = 0 →
        call.node.nodeId ≠ node.nodeId := fun t call => h.nothingHeld hheld
    refine ⟨hwf, haccounts, ?_, claims, hnodup, ?_,
      hbal.registered hcalls (claimed_idle hmem hidle) hpools⟩
    · intro t call hcall hopen
      rw [hcalls] at hcall
      rw [NodeRegistry.lifetimeOf_eq_poolOf, hpools, if_neg (hidle t call hcall hopen),
        ← NodeRegistry.lifetimeOf_eq_poolOf]
      exact h.placed t call hcall hopen
    · rw [hcalls]
      exact hmem
  | removed nodeId incarnation ha hcalls hgiven hold hpools =>
    subst ha
    rw [hgiven, List.append_nil] at haccounts ⊢
    have hheld : s.nothingHeldOn nodeId = true := by
      simpa [endsNoHeldLifetime, hold] using hL
    refine ⟨hwf, haccounts, ?_, claims, hnodup, ?_, hbal.removed hcalls hpools⟩
    · intro t call hcall hopen
      rw [hcalls] at hcall
      rw [NodeRegistry.lifetimeOf_eq_poolOf, hpools, if_neg (h.nothingHeld hheld hcall hopen),
        ← NodeRegistry.lifetimeOf_eq_poolOf]
      exact h.placed t call hcall hopen
    · rw [hcalls]
      exact hmem
  | reserved t call pool ha hres hnone hcalls hpool hfit hpools =>
    rw [givenBack_of_none ha, List.append_nil] at haccounts ⊢
    have hopen : given.count t = 0 := by
      have hacc := h.accounts t
      simp only [State.callOf] at hnone
      cases hp : s.phase t with
      | unused | refused =>
        rw [hp] at hacc
        exact hacc.2
      | reserved | published | undelivered | erased | rolledBack | accepted =>
        simp [hp, SubmitPhase.call?] at hnone
    have hnew : t ∉ claims := by
      rw [hmem, hnone]
      simp
    refine ⟨hwf, haccounts, ?_, t :: claims, List.nodup_cons.mpr ⟨hnew, hnodup⟩, ?_,
      hbal.reserved hnew hcalls hpool hfit hpools⟩
    · intro t' call' hcall' hopen'
      rw [hcalls] at hcall'
      split at hcall'
      · cases hcall'
        exact NodeRegistry.lifetimeOf_of_poolOf (by rw [hpools, if_pos rfl])
      · rw [lifetimeOf_of_pools hpool hpools]
        exact h.placed t' call' hcall' hopen'
    · intro t'
      rw [List.mem_cons, hmem, hcalls]
      by_cases ht : t' = t
      · simp [ht, hopen]
      · simp [ht]
  | released r i pool ha hcalls hgiven hpool hfit hpools =>
    obtain ⟨call, hcall, hopen, hnode, -, hresources⟩ := h.release_matches ha
    rw [hnode] at hpool hpools
    rw [hresources] at hfit hpools
    have hi : i = call.node.incarnation := by
      have hlife := h.placed r.taskId call hcall hopen
      rw [NodeRegistry.lifetimeOf_of_poolOf hpool] at hlife
      exact Option.some.inj hlife
    subst hi
    rw [hgiven] at haccounts hcount ⊢
    have ht : r.taskId ∈ claims := (hmem r.taskId).mpr ⟨by simp [hcall], hopen⟩
    have hbal' : PoolsBalanced s (r.taskId :: claims.erase r.taskId) :=
      fun id i pool hp => (hbal id i pool hp).perm (List.perm_cons_erase ht)
    refine ⟨hwf, haccounts, ?_, claims.erase r.taskId, hnodup.erase _, ?_,
      hbal'.released hcalls hcall hpool hfit hpools⟩
    · intro t' call' hcall' hopen'
      rw [hcalls] at hcall'
      rw [hcount] at hopen'
      rw [lifetimeOf_of_pools hpool hpools]
      exact h.placed t' call' hcall' (by omega)
    · intro t'
      rw [hnodup.mem_erase_iff, hmem, hcalls, hcount]
      by_cases he : t' = r.taskId
      · simp [he]
      · simp [he, Ne.symm he]

/-! ## Whole runs -/

/-- The tasks for which a run gives a reservation back, one entry for each successful release. -/
def givenBackIn (as : List Action) (s : State) : List TaskID :=
  Run.observed step givenBack as s

/-- In every run whose rollbacks erase no terminal record, and which ends no lifetime under an
open reservation, each reservation is given back at most once, and exactly once when the record
is terminal or the rollback is over. -/
theorem reservation_given_back_once {as : List Action}
    (hC : Run.Along step (fun s a => rollbackFindsLive s a = true) as .initial)
    (hL : Run.Along step (fun s a => endsNoHeldLifetime s a = true) as .initial)
    (hrun : Run.run step as .initial = some s) (t : TaskID) :
    (givenBackIn as .initial).count t ≤ 1 ∧
    (∀ record, s.record t = some record → isTerminal record.state = true →
      (givenBackIn as .initial).count t = 1) ∧
    (∀ call status, s.phase t = .rolledBack call status →
      (givenBackIn as .initial).count t = 1) := by
  have hbooks : Books (givenBackIn as .initial) s :=
    Run.invariant_observed (fun given v a w hv ha hw => hv.step ha.1 ha.2 hw) (hC.and hL) hrun
      books_initial
  have hacc := hbooks.accounts t
  refine ⟨?_, ?_, ?_⟩
  · cases hp : s.phase t with
    | unused | refused | reserved | erased | rolledBack =>
      rw [hp] at hacc
      have hcount := hacc.2
      omega
    | published | undelivered | accepted =>
      rw [hp] at hacc
      obtain ⟨r, -, -, hcount⟩ := hacc
      rw [hcount]
      split <;> decide
  · intro record hrec hterm
    rw [hrec] at hacc
    cases hp : s.phase t with
    | unused | refused | reserved | erased | rolledBack =>
      rw [hp] at hacc
      cases hacc.1
    | published | undelivered | accepted =>
      rw [hp] at hacc
      obtain ⟨_, ⟨⟩, -, hcount⟩ := hacc
      rw [hcount, if_pos hterm]
  · intro call status hp
    rw [hp] at hacc
    exact hacc.2

/-- One task is rolled back while another one runs. -/
theorem reservation_given_back_once_rollback : (givenBackIn [.registerNode (Sample.node 1) 0,
      Sample.reserve 1, .submitPublish (Sample.task 1), Sample.reserve 2,
      .submitPublish (Sample.task 2), .submitDispatched (Sample.task 1) Sample.lost,
      .submitErase (Sample.task 1), .submitRelease (Sample.task 1)]
      .initial).count (Sample.task 1) = 1 :=
  (reservation_given_back_once (by decide) (by decide) (Run.run_stateAfter (by decide))
    (Sample.task 1)).2.2 _ _ rfl

/-- The outcome of a task arrives although the reply to its launch is lost; the rollback then
releases the reservation of the running second task. -/
theorem reservation_given_back_twice : ¬ ∀ (as : List Action) (s : State) (t : TaskID),
    Run.run step as .initial = some s → (givenBackIn as .initial).count t ≤ 1 ∧
    (∀ record, s.record t = some record → isTerminal record.state = true →
      (givenBackIn as .initial).count t = 1) ∧
    (∀ call status, s.phase t = .rolledBack call status →
      (givenBackIn as .initial).count t = 1) := by
  intro h
  have htwice := (h [.registerNode (Sample.node 1) 0, Sample.reserve 1,
    .submitPublish (Sample.task 1), Sample.reserve 2, .submitPublish (Sample.task 2),
    Sample.succeed 1, .submitDispatched (Sample.task 1) Sample.lost,
    .submitErase (Sample.task 1), .submitRelease (Sample.task 1)] _ (Sample.task 1)
    (Run.run_stateAfter (by decide))).1
  exact absurd htwice (by decide)

end ControlSystem

end AgentRuntime
