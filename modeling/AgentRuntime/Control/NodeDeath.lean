import AgentRuntime.Control.TaskSteps
import Mathlib.Algebra.BigOperators.Group.Finset.Basic
import Mathlib.Algebra.Order.BigOperators.Group.List
import Mathlib.Algebra.Order.Ring.Int

/-!
# The loop over the records of a dead node

`HandleNodeDead` visits the hash table in whatever order it has, releases and
fails the records of the lifetime one by one, and returns at the first refused
release. When the releases fit together the order does not matter; when they do
not, what is left behind depends on which records came first.
-/
namespace AgentRuntime

namespace ControlPlane

/-- `HandleNodeDead`, for an order in which the hash table may be iterated. -/
def handleNodeDead (nodeId : NodeID) (incarnation : Nat) :
    List TaskID → ControlPlane → Status × ControlPlane
  | [], cp => (.OK, cp)
  | t :: rest, cp =>
    let done := cp.failRecord nodeId incarnation t
    if done.1.ok then handleNodeDead nodeId incarnation rest done.2 else done

/-! ## What the call should do -/

/-- The record as it is after the death of the lifetime. -/
def afterDeath (nodeId : NodeID) (incarnation : Nat) (record : DistributedTaskRecord) :
    DistributedTaskRecord :=
  if failsWithNode nodeId incarnation record then failedByNode record else record

/-- What the record of a task holds of the lifetime until it is failed. -/
def claim (cp : ControlPlane) (nodeId : NodeID) (incarnation : Nat) (name : String)
    (t : TaskID) : Int :=
  match cp.tasks.lookup t with
  | none => 0
  | some record =>
    if failsWithNode nodeId incarnation record then record.resources.amount name else 0

/-- The sum of what the unfinished records of the lifetime request. -/
def claims (cp : ControlPlane) (nodeId : NodeID) (incarnation : Nat) (name : String) : Int :=
  cp.tasks.keys.sum (cp.claim nodeId incarnation name)

/-- The stored node has got back the given amounts, and nothing else has changed. -/
structure Regains (gain : String → Int) (stored stored' : StoredNode) : Prop where
  total : stored'.schedulablePool.total = stored.schedulablePool.total
  amounts : ∀ name, stored'.schedulablePool.available.amount name =
    stored.schedulablePool.available.amount name + gain name
  record : stored'.record =
    { stored.record with schedulableAvailable := stored'.schedulablePool.available }

/-- What a registry does that gives the amounts back to one node. -/
structure GivesBack (gain : String → Int) (nodeId : NodeID) (reg reg' : NodeRegistry) : Prop where
  node : ∀ stored, reg.nodes.lookup nodeId = some stored →
    ∃ stored', reg'.nodes.lookup nodeId = some stored' ∧ Regains gain stored stored'
  absent : reg.nodes.lookup nodeId = none → reg'.nodes.lookup nodeId = none
  others : ∀ id, id ≠ nodeId → reg'.nodes.lookup id = reg.nodes.lookup id
  order : reg'.registrationOrder = reg.registrationOrder

/-- Every record of the lifetime has ended, the unfinished ones by the death of the node, and
their requests have been given back. -/
structure LifetimeFailed (cp : ControlPlane) (nodeId : NodeID) (incarnation : Nat)
    (cp' : ControlPlane) : Prop where
  ended : ∀ t record, cp'.tasks.lookup t = some record → record.belongsTo nodeId incarnation →
    isTerminal record.state = true
  tasks : ∀ t, cp'.tasks.lookup t = (cp.tasks.lookup t).map (afterDeath nodeId incarnation)
  registry : GivesBack (cp.claims nodeId incarnation) nodeId cp.registry cp'.registry

/-- The call does the same in every order, and does all of its work or nothing. -/
structure DeathHandled (cp : ControlPlane) (nodeId : NodeID) (incarnation : Nat) : Prop where
  orderFree : ∀ order order', UnorderedMap.Enumerates order cp.tasks →
    UnorderedMap.Enumerates order' cp.tasks →
    handleNodeDead nodeId incarnation order cp = handleNodeDead nodeId incarnation order' cp
  completes : ∀ order, UnorderedMap.Enumerates order cp.tasks →
    (handleNodeDead nodeId incarnation order cp).1.ok = true →
    LifetimeFailed cp nodeId incarnation (handleNodeDead nodeId incarnation order cp).2
  atomic : ∀ order, UnorderedMap.Enumerates order cp.tasks →
    (handleNodeDead nodeId incarnation order cp).1.ok = false →
    (handleNodeDead nodeId incarnation order cp).2 = cp

/-! ## When it does -/

/-- The pool registered under the NodeID has this request in use. -/
def Releasable (reg : NodeRegistry) (nodeId : NodeID) (request : ResourceRequest) : Prop :=
  ∃ stored, reg.nodes.lookup nodeId = some stored ∧
    stored.schedulablePool.canRelease request = true

/-- The pool registered under the NodeID has all these amounts in use together. -/
def InUse (reg : NodeRegistry) (nodeId : NodeID) (amounts : String → Int) : Prop :=
  ∃ stored, reg.nodes.lookup nodeId = some stored ∧ ∀ name, 0 < amounts name →
    amounts name ≤
      stored.schedulablePool.total.amount name - stored.schedulablePool.available.amount name

/-- The releases of the lifetime all fit together, or none of them fits alone. -/
def AllOrNone (cp : ControlPlane) (nodeId : NodeID) (incarnation : Nat) : Prop :=
  InUse cp.registry nodeId (cp.claims nodeId incarnation) ∨
  ∀ t record, cp.tasks.lookup t = some record → failsWithNode nodeId incarnation record →
    ¬ Releasable cp.registry nodeId record.resources

variable {cp : ControlPlane} {nodeId : NodeID} {incarnation : Nat} {t : TaskID}

theorem claim_eq_zero {name : String} (h : ∀ record, cp.tasks.lookup t = some record →
    ¬ failsWithNode nodeId incarnation record) : cp.claim nodeId incarnation name t = 0 := by
  simp only [claim]
  cases hl : cp.tasks.lookup t with
  | none => rfl
  | some record => simp [h record hl]

theorem claim_of_fails {name : String} {record : DistributedTaskRecord}
    (hl : cp.tasks.lookup t = some record) (h : failsWithNode nodeId incarnation record) :
    cp.claim nodeId incarnation name t = record.resources.amount name := by
  simp [claim, hl, h]

theorem claim_nonneg (name : String) (t : TaskID) : 0 ≤ cp.claim nodeId incarnation name t := by
  simp only [claim]
  split
  · exact le_rfl
  · split
    · exact ResourceRequest.amount_nonneg _ name
    · exact le_rfl

/-- The claims of the listed tasks. -/
def claimsOf (cp : ControlPlane) (nodeId : NodeID) (incarnation : Nat) (order : List TaskID)
    (name : String) : Int :=
  (order.map (cp.claim nodeId incarnation name)).sum

@[simp] theorem claimsOf_nil (name : String) : cp.claimsOf nodeId incarnation [] name = 0 := rfl
@[simp] theorem claimsOf_cons (rest : List TaskID) (name : String) :
    cp.claimsOf nodeId incarnation (t :: rest) name =
      cp.claim nodeId incarnation name t + cp.claimsOf nodeId incarnation rest name := by
  simp [claimsOf]

theorem claimsOf_nonneg (order : List TaskID) (name : String) :
    0 ≤ cp.claimsOf nodeId incarnation order name := by
  apply List.sum_nonneg
  intro x hx
  obtain ⟨t, -, rfl⟩ := List.mem_map.mp hx
  exact claim_nonneg name t

/-- The sum does not depend on the order of the table. -/
theorem claimsOf_enumerates {order : List TaskID} (h : UnorderedMap.Enumerates order cp.tasks)
    (name : String) : cp.claimsOf nodeId incarnation order name =
      cp.claims nodeId incarnation name := by
  rw [claims, ← h.2, List.sum_toFinset _ h.1]
  rfl

theorem claimsOf_congr {cp' : ControlPlane} {order : List TaskID}
    (h : ∀ t ∈ order, cp'.tasks.lookup t = cp.tasks.lookup t) (name : String) :
    cp'.claimsOf nodeId incarnation order name = cp.claimsOf nodeId incarnation order name := by
  simp only [claimsOf]
  congr 1
  apply List.map_congr_left
  intro t ht
  simp only [claim, h t ht]

/-! ## One turn of the loop -/

/-- The record has been failed, and its request given back to the stored node. -/
def failOne (cp : ControlPlane) (nodeId : NodeID) (stored : StoredNode) (t : TaskID)
    (record : DistributedTaskRecord) : ControlPlane :=
  ⟨cp.registry.putPool nodeId stored (stored.schedulablePool.release record.resources).2,
    cp.tasks.insert t (failedByNode record)⟩

theorem failOne_lookup (cp : ControlPlane) (stored : StoredNode) (record : DistributedTaskRecord)
    (k : TaskID) : (cp.failOne nodeId stored t record).tasks.lookup k =
      if k = t then some (failedByNode record) else cp.tasks.lookup k :=
  UnorderedMap.lookup_insert_eq cp.tasks t k _

/-- The turn passes over the record, stops the loop, or fails the record of the lifetime. -/
inductive Turn (cp : ControlPlane) (nodeId : NodeID) (incarnation : Nat) (t : TaskID)
    (done : Status × ControlPlane) : Prop where
  | passed (none : ∀ record, cp.tasks.lookup t = some record →
      ¬ failsWithNode nodeId incarnation record) (result : done = (.OK, cp))
  | stopped (record : DistributedTaskRecord) (lookup : cp.tasks.lookup t = some record)
      (fails : failsWithNode nodeId incarnation record)
      (refused : ¬ Releasable cp.registry nodeId record.resources)
      (result : done = ((cp.registry.release nodeId record.resources).1, cp))
      (notOk : done.1.ok = false)
  | failed (record : DistributedTaskRecord) (lookup : cp.tasks.lookup t = some record)
      (fails : failsWithNode nodeId incarnation record) (stored : StoredNode)
      (node : cp.registry.nodes.lookup nodeId = some stored)
      (fits : stored.schedulablePool.canRelease record.resources = true)
      (result : done = (.OK, cp.failOne nodeId stored t record))

theorem failRecord_turn (cp : ControlPlane) (nodeId : NodeID) (incarnation : Nat) (t : TaskID) :
    Turn cp nodeId incarnation t (cp.failRecord nodeId incarnation t) := by
  simp only [failRecord]
  cases hl : cp.tasks.lookup t with
  | none => exact .passed (by simp [hl]) rfl
  | some record =>
    by_cases hf : failsWithNode nodeId incarnation record
    · simp only [hf, if_true]
      have hnode : record.nodeId = nodeId := hf.1.1
      obtain ⟨hno, he, hnone⟩ | ⟨stored, hstored, hfits, he⟩ :=
        NodeRegistry.release_cases cp.registry nodeId record.resources
      · rw [hnode, release_status, hno]
        simp only [Bool.false_eq_true, if_false]
        refine .stopped record hl hf ?_ ?_ hno
        · rintro ⟨stored, hstored, hfits⟩
          rw [hnone stored hstored] at hfits
          cases hfits
        · exact Prod.ext rfl (release_refused hno)
      · refine .failed record hl hf stored hstored hfits ?_
        simp [hnode, release, he, failOne]
    · simp only [hf, if_false]
      refine .passed ?_ rfl
      rintro record' hl'
      cases hl.symm.trans hl'
      exact hf

/-! ## The loop -/

/-- The loop does not touch the tasks that it does not visit. -/
theorem handleNodeDead_lookup {order : List TaskID} (h : t ∉ order) (cp : ControlPlane) :
    (handleNodeDead nodeId incarnation order cp).2.tasks.lookup t = cp.tasks.lookup t := by
  induction order generalizing cp with
  | nil => rfl
  | cons k rest ih =>
    obtain ⟨hne, hrest⟩ := not_or.mp (List.mem_cons.not.mp h)
    have hturn : (cp.failRecord nodeId incarnation k).2.tasks.lookup t = cp.tasks.lookup t := by
      cases failRecord_turn cp nodeId incarnation k with
      | passed none he => rw [he]
      | stopped record hl hf refused he hno => rw [he]
      | failed record hl hf stored hs hfits he =>
        rw [he, failOne_lookup, if_neg hne]
    simp only [handleNodeDead]
    split
    · rw [ih hrest, hturn]
    · exact hturn

theorem Regains.refl {stored : StoredNode} {gain : String → Int} (h : ∀ name, gain name = 0)
    (hsynced : stored.record.schedulableAvailable = stored.schedulablePool.available) :
    Regains gain stored stored where
  total := rfl
  amounts := by
    intro name
    rw [h name, add_zero]
  record := by rw [← hsynced]

theorem GivesBack.refl {reg : NodeRegistry} (hwf : reg.WellFormed) {gain : String → Int}
    (h : ∀ name, gain name = 0) : GivesBack gain nodeId reg reg where
  node := fun stored hl => ⟨stored, hl, .refl h (hwf.entries nodeId stored hl).synced⟩
  absent := fun h => h
  others := fun _ _ => rfl
  order := rfl

theorem GivesBack.congr {reg reg' : NodeRegistry} {gain gain' : String → Int}
    (h : GivesBack gain nodeId reg reg') (he : ∀ name, gain name = gain' name) :
    GivesBack gain' nodeId reg reg' := by
  rw [← show gain = gain' from funext he]
  exact h

/-- A release and then more releases on the same node. -/
theorem GivesBack.after_release {reg reg' : NodeRegistry} {stored : StoredNode}
    {request : ResourceRequest} {gain : String → Int}
    (hl : reg.nodes.lookup nodeId = some stored)
    (hfits : stored.schedulablePool.canRelease request = true)
    (h : GivesBack gain nodeId (reg.putPool nodeId stored
      (stored.schedulablePool.release request).2) reg') :
    GivesBack (fun name => request.amount name + gain name) nodeId reg reg' := by
  obtain ⟨-, htotal, hamount⟩ := ResourcePool.release_fits hfits
  constructor
  · intro stored₀ hl₀
    cases hl.symm.trans hl₀
    obtain ⟨stored', hl', hregains⟩ := h.node _ (by simp [NodeRegistry.putPool]; rfl)
    refine ⟨stored', hl', hregains.total.trans htotal, ?_, hregains.record⟩
    intro name
    rw [hregains.amounts name]
    simp only [StoredNode.withPool, hamount name]
    omega
  · intro hnone
    rw [hl] at hnone
    cases hnone
  · intro id hne
    rw [h.others id hne]
    simp [NodeRegistry.putPool, hne]
  · exact h.order

/-- What a loop that goes through has done. -/
structure Through (cp : ControlPlane) (nodeId : NodeID) (incarnation : Nat)
    (order : List TaskID) (cp' : ControlPlane) : Prop where
  tasks : ∀ t, cp'.tasks.lookup t =
    if t ∈ order then (cp.tasks.lookup t).map (afterDeath nodeId incarnation)
    else cp.tasks.lookup t
  registry : GivesBack (cp.claimsOf nodeId incarnation order) nodeId cp.registry cp'.registry
  fitted : ∀ stored, cp.registry.nodes.lookup nodeId = some stored → ∀ name,
    0 < cp.claimsOf nodeId incarnation order name → cp.claimsOf nodeId incarnation order name ≤
      stored.schedulablePool.total.amount name - stored.schedulablePool.available.amount name

theorem handleNodeDead_through (hwf : cp.registry.WellFormed) {order : List TaskID}
    (hnodup : order.Nodup) (hok : (handleNodeDead nodeId incarnation order cp).1.ok = true) :
    Through cp nodeId incarnation order (handleNodeDead nodeId incarnation order cp).2 := by
  induction order generalizing cp with
  | nil => exact ⟨by simp [handleNodeDead], .refl hwf (fun _ => rfl), by simp⟩
  | cons t rest ih =>
    obtain ⟨hnew, hrest⟩ := List.nodup_cons.mp hnodup
    simp only [handleNodeDead] at hok ⊢
    cases failRecord_turn cp nodeId incarnation t with
    | stopped record hl hf refused he hno =>
      rw [hno] at hok
      simp [hno] at hok
    | passed none he =>
      rw [he] at hok ⊢
      simp only [Status.ok_OK, if_true] at hok ⊢
      have h := ih hwf hrest hok
      have hclaims : ∀ name, cp.claimsOf nodeId incarnation rest name =
          cp.claimsOf nodeId incarnation (t :: rest) name := by
        intro name
        rw [claimsOf_cons, claim_eq_zero none, zero_add]
      refine ⟨?_, h.registry.congr hclaims, ?_⟩
      · intro k
        rw [h.tasks k]
        by_cases hk : k = t
        · subst hk
          cases hl : cp.tasks.lookup k with
          | none => simp
          | some record => simp [afterDeath, none record hl]
        · simp [hk]
      · intro stored hs name hpos
        rw [← hclaims name] at hpos ⊢
        exact h.fitted stored hs name hpos
    | failed record hl hf stored hs hfits he =>
      rw [he] at hok ⊢
      simp only [Status.ok_OK, if_true] at hok ⊢
      have h := ih (hwf.putPool hs _) hrest hok
      have hother : ∀ k ∈ rest, (cp.failOne nodeId stored t record).tasks.lookup k =
          cp.tasks.lookup k := by
        intro k hk
        rw [failOne_lookup, if_neg (by rintro rfl; exact hnew hk)]
      have hclaims : ∀ name, record.resources.amount name +
          (cp.failOne nodeId stored t record).claimsOf nodeId incarnation rest name =
          cp.claimsOf nodeId incarnation (t :: rest) name := by
        intro name
        rw [claimsOf_cons, claim_of_fails hl hf, claimsOf_congr hother]
      refine ⟨?_, (h.registry.after_release hs hfits).congr hclaims, ?_⟩
      · intro k
        rw [h.tasks k]
        rw [failOne_lookup]
        by_cases hk : k = t
        · subst hk
          simp [hnew, hl, afterDeath, hf]
        · simp [hk]
      · intro stored₀ hs₀ name hpos
        cases hs.symm.trans hs₀
        obtain ⟨-, htotal, hamount⟩ := ResourcePool.release_fits hfits
        have hfit := h.fitted _ (by simp [failOne, NodeRegistry.putPool]; rfl) name
        simp only [StoredNode.withPool, htotal, hamount name] at hfit
        have hthis := (ResourcePool.canRelease_iff _ _).mp hfits name
        have hnonneg := record.resources.amount_nonneg name
        rw [← hclaims name] at hpos ⊢
        have hsum : 0 ≤ (cp.failOne nodeId stored t record).claimsOf nodeId incarnation rest name :=
          claimsOf_nonneg rest name
        omega

/-- When the releases fit together, the loop goes through. -/
theorem handleNodeDead_ok {order : List TaskID} (hnodup : order.Nodup)
    (h : InUse cp.registry nodeId (cp.claimsOf nodeId incarnation order)) :
    (handleNodeDead nodeId incarnation order cp).1 = .OK := by
  induction order generalizing cp with
  | nil => rfl
  | cons t rest ih =>
    obtain ⟨hnew, hrest⟩ := List.nodup_cons.mp hnodup
    obtain ⟨stored, hs, hinUse⟩ := h
    have hsum : ∀ name, 0 ≤ cp.claimsOf nodeId incarnation rest name := claimsOf_nonneg rest
    simp only [handleNodeDead]
    cases failRecord_turn cp nodeId incarnation t with
    | stopped record hl hf refused he hno =>
      -- one of the claims fits where all of them fit
      refine absurd ⟨stored, hs, (ResourcePool.canRelease_iff _ _).mpr ?_⟩ refused
      intro name hpos
      have hfit := hinUse name
      rw [claimsOf_cons, claim_of_fails hl hf] at hfit
      have hrestpos := hsum name
      omega
    | passed none he =>
      rw [he]
      apply ih hrest
      refine ⟨stored, hs, ?_⟩
      intro name hpos
      have hfit := hinUse name
      rw [claimsOf_cons, claim_eq_zero none, zero_add] at hfit
      exact hfit hpos
    | failed record hl hf stored' hs' hfits he =>
      rw [he]
      cases hs.symm.trans hs'
      obtain ⟨-, htotal, hamount⟩ := ResourcePool.release_fits hfits
      apply ih hrest
      refine ⟨stored.withPool (stored.schedulablePool.release record.resources).2, ?_, ?_⟩
      · simp [failOne, NodeRegistry.putPool]
      · intro name hpos
        have hother : ∀ k ∈ rest, (cp.failOne nodeId stored t record).tasks.lookup k =
            cp.tasks.lookup k := by
          intro k hk
          rw [failOne_lookup, if_neg (by rintro rfl; exact hnew hk)]
        have hfit := hinUse name
        have hnonneg := record.resources.amount_nonneg name
        rw [claimsOf_cons, claim_of_fails hl hf] at hfit
        rw [claimsOf_congr hother] at hpos ⊢
        simp only [StoredNode.withPool, htotal, hamount name]
        omega

/-- What every refused release of a node returns. -/
def refusal (reg : NodeRegistry) (nodeId : NodeID) : Status :=
  match reg.nodes.lookup nodeId with
  | none => .NotFound "node is not registered"
  | some _ => .FailedPrecondition "release exceeds acquired amount for resource"

theorem release_refusal {reg : NodeRegistry} {request : ResourceRequest}
    (h : ¬ Releasable reg nodeId request) : (reg.release nodeId request).1 = refusal reg nodeId := by
  simp only [NodeRegistry.release, refusal]
  cases hl : reg.nodes.lookup nodeId with
  | none => rfl
  | some stored =>
    have hno : stored.schedulablePool.canRelease request = false := by
      rw [← Bool.not_eq_true]
      exact fun hfits => h ⟨stored, hl, hfits⟩
    simp [ResourcePool.release_refused hno]

/-- When no release fits, the loop stops at the first record of the lifetime, if there is one. -/
theorem handleNodeDead_none (order : List TaskID)
    (h : ∀ t record, cp.tasks.lookup t = some record → failsWithNode nodeId incarnation record →
      ¬ Releasable cp.registry nodeId record.resources) :
    (handleNodeDead nodeId incarnation order cp).2 = cp ∧
    ((handleNodeDead nodeId incarnation order cp).1 = .OK ∧ (∀ t ∈ order, ∀ record,
        cp.tasks.lookup t = some record → ¬ failsWithNode nodeId incarnation record) ∨
      (handleNodeDead nodeId incarnation order cp).1 = refusal cp.registry nodeId ∧
        ∃ t ∈ order, ∃ record, cp.tasks.lookup t = some record ∧
          failsWithNode nodeId incarnation record) := by
  induction order with
  | nil => exact ⟨rfl, .inl ⟨rfl, by simp⟩⟩
  | cons t rest ih =>
    simp only [handleNodeDead]
    cases failRecord_turn cp nodeId incarnation t with
    | failed record hl hf stored hs hfits he =>
      exact absurd ⟨stored, hs, hfits⟩ (h t record hl hf)
    | stopped record hl hf refused he hno =>
      simp only [hno, Bool.false_eq_true, if_false]
      rw [he]
      exact ⟨rfl, .inr ⟨release_refusal refused, t, List.mem_cons_self, record, hl, hf⟩⟩
    | passed none he =>
      rw [he]
      simp only [Status.ok_OK, if_true]
      obtain ⟨hcp, ⟨hok, hall⟩ | ⟨hno, k, hk, hlive⟩⟩ := ih
      · exact ⟨hcp, .inl ⟨hok, List.forall_mem_cons.mpr ⟨none, hall⟩⟩⟩
      · exact ⟨hcp, .inr ⟨hno, k, List.mem_cons_of_mem _ hk, hlive⟩⟩

/-! ## The result -/

theorem Through.lifetimeFailed {order : List TaskID} {cp' : ControlPlane}
    (h : Through cp nodeId incarnation order cp')
    (he : UnorderedMap.Enumerates order cp.tasks) :
    LifetimeFailed cp nodeId incarnation cp' := by
  have htasks : ∀ t, cp'.tasks.lookup t =
      (cp.tasks.lookup t).map (afterDeath nodeId incarnation) := by
    intro t
    rw [h.tasks t]
    by_cases hmem : t ∈ order
    · rw [if_pos hmem]
    · cases hl : cp.tasks.lookup t with
      | none => simp
      | some record => exact absurd ((he.mem_iff t).mpr ⟨record, hl⟩) hmem
  refine ⟨?_, htasks, h.registry.congr (claimsOf_enumerates he)⟩
  intro t record hl hbelongs
  rw [htasks t] at hl
  obtain ⟨old, -, rfl⟩ := Option.map_eq_some_iff.mp hl
  by_cases hf : failsWithNode nodeId incarnation old
  · simp [afterDeath, hf, failedByNode, isTerminal]
  · simp only [afterDeath, hf, if_false] at hbelongs ⊢
    simpa [failsWithNode, hbelongs] using hf

/-- What `LifetimeFailed` says determines the control plane. -/
theorem LifetimeFailed.unique {cp₁ cp₂ : ControlPlane}
    (h₁ : LifetimeFailed cp nodeId incarnation cp₁)
    (h₂ : LifetimeFailed cp nodeId incarnation cp₂) : cp₁ = cp₂ := by
  have htasks : cp₁.tasks = cp₂.tasks := by
    apply Finmap.ext_lookup
    intro t
    rw [h₁.tasks t, h₂.tasks t]
  have hnodes : cp₁.registry.nodes = cp₂.registry.nodes := by
    apply Finmap.ext_lookup
    intro id
    by_cases hid : id = nodeId
    · subst hid
      cases hl : cp.registry.nodes.lookup id with
      | none => rw [h₁.registry.absent hl, h₂.registry.absent hl]
      | some stored =>
        obtain ⟨stored₁, hl₁, hr₁⟩ := h₁.registry.node stored hl
        obtain ⟨stored₂, hl₂, hr₂⟩ := h₂.registry.node stored hl
        have hpool : stored₁.schedulablePool = stored₂.schedulablePool :=
          ResourcePool.ext_amount (hr₁.total.trans hr₂.total.symm) fun name => by
            rw [hr₁.amounts name, hr₂.amounts name]
        have hrecord : stored₁.record = stored₂.record := by
          rw [hr₁.record, hr₂.record, hpool]
        cases stored₁
        cases stored₂
        rw [hl₁, hl₂]
        exact congrArg some (by cases hpool; cases hrecord; rfl)
    · rw [h₁.registry.others id hid, h₂.registry.others id hid]
  have horder := h₁.registry.order.trans h₂.registry.order.symm
  obtain ⟨⟨nodes₁, order₁⟩, tasks₁⟩ := cp₁
  obtain ⟨⟨nodes₂, order₂⟩, tasks₂⟩ := cp₂
  cases htasks
  cases hnodes
  cases horder
  rfl

/-- Any task of the table can come first. -/
theorem exists_enumerates_cons {record : DistributedTaskRecord}
    (hl : cp.tasks.lookup t = some record) :
    ∃ rest, t ∉ rest ∧ UnorderedMap.Enumerates (t :: rest) cp.tasks := by
  have hmem : t ∈ cp.tasks.keys := by
    rw [Finmap.mem_keys, Finmap.mem_iff]
    exact ⟨record, hl⟩
  refine ⟨(cp.tasks.keys.erase t).toList, by simp, ?_, ?_⟩
  · exact List.nodup_cons.mpr ⟨by simp, Finset.nodup_toList _⟩
  · rw [List.toFinset_cons, Finset.toList_toFinset, Finset.insert_erase hmem]

theorem deathHandled_iff (hwf : cp.registry.WellFormed) :
    DeathHandled cp nodeId incarnation ↔ AllOrNone cp nodeId incarnation := by
  have hcompletes : ∀ order, UnorderedMap.Enumerates order cp.tasks →
      (handleNodeDead nodeId incarnation order cp).1.ok = true →
      LifetimeFailed cp nodeId incarnation (handleNodeDead nodeId incarnation order cp).2 :=
    fun order he hok => (handleNodeDead_through hwf he.1 hok).lifetimeFailed he
  constructor
  · intro h
    by_contra hneither
    obtain ⟨hno, hsome⟩ := not_or.mp hneither
    push Not at hsome
    obtain ⟨t, record, hl, hf, stored, hs, hfits⟩ := hsome
    -- let a record come first that can be released alone
    obtain ⟨rest, hnew, he⟩ := exists_enumerates_cons hl
    cases hok : (handleNodeDead nodeId incarnation (t :: rest) cp).1.ok with
    | true =>
      have hthrough := handleNodeDead_through hwf he.1 hok
      apply hno
      refine ⟨stored, hs, ?_⟩
      intro name
      rw [← claimsOf_enumerates he name]
      exact hthrough.fitted stored hs name
    | false =>
      have hsame := h.atomic (t :: rest) he hok
      have hfirst : (handleNodeDead nodeId incarnation (t :: rest) cp).2.tasks.lookup t =
          some (failedByNode record) := by
        simp only [handleNodeDead]
        cases failRecord_turn cp nodeId incarnation t with
        | passed none _ => exact absurd hf (none record hl)
        | stopped record' hl' _ refused _ _ =>
          cases hl.symm.trans hl'
          exact absurd ⟨stored, hs, hfits⟩ refused
        | failed record' hl' _ stored' _ _ hturn =>
          cases hl.symm.trans hl'
          rw [hturn]
          simp only [Status.ok_OK, if_true]
          rw [handleNodeDead_lookup hnew, failOne_lookup, if_pos rfl]
      rw [hsame, hl, Option.some.injEq] at hfirst
      have hlive := hf.2
      rw [hfirst] at hlive
      exact absurd hlive (by simp [failedByNode, isTerminal])
  · rintro (hall | hnone)
    · have hok : ∀ order, UnorderedMap.Enumerates order cp.tasks →
          (handleNodeDead nodeId incarnation order cp).1 = .OK := by
        intro order he
        apply handleNodeDead_ok he.1
        obtain ⟨stored, hs, hfit⟩ := hall
        refine ⟨stored, hs, ?_⟩
        intro name
        rw [claimsOf_enumerates he name]
        exact hfit name
      refine ⟨?_, hcompletes, ?_⟩
      · intro order order' he he'
        apply Prod.ext
        · rw [hok order he, hok order' he']
        · exact (hcompletes order he (by rw [hok order he]; rfl)).unique
            (hcompletes order' he' (by rw [hok order' he']; rfl))
      · intro order he hno
        rw [hok order he] at hno
        cases hno
    · refine ⟨?_, hcompletes, fun order _ _ => (handleNodeDead_none order hnone).1⟩
      intro order order' he he'
      obtain ⟨hcp, hcase⟩ := handleNodeDead_none order hnone
      obtain ⟨hcp', hcase'⟩ := handleNodeDead_none order' hnone
      apply Prod.ext
      swap
      · rw [hcp, hcp']
      -- the lifetime has an unfinished record in both orders or in neither
      have hmem : ∀ t record, cp.tasks.lookup t = some record → t ∈ order ∧ t ∈ order' :=
        fun t record hl => ⟨(he.mem_iff t).mpr ⟨record, hl⟩, (he'.mem_iff t).mpr ⟨record, hl⟩⟩
      obtain ⟨hs, hno⟩ | ⟨hs, t, -, record, hl, hf⟩ := hcase <;>
        obtain ⟨hs', hno'⟩ | ⟨hs', t', -, record', hl', hf'⟩ := hcase'
      · rw [hs, hs']
      · exact absurd hf' (hno t' (hmem t' record' hl').1 record' hl')
      · exact absurd hf (hno' t (hmem t record hl).2 record hl)
      · rw [hs, hs']

end ControlPlane

namespace ControlSystem

open ControlPlane

/-- `HandleNodeDead` in the system of calls, when nothing comes between its turns. -/
theorem run_deadNext (order : List TaskID) {s : State} {nodeId : NodeID} {incarnation : Nat}
    (h : s.handling = some ⟨nodeId, incarnation, order⟩) : ∃ turns t,
      Run.run step (List.replicate turns .deadNext) s = some t ∧ t.handling = none ∧
      t.plane = (handleNodeDead nodeId incarnation order s.plane).2 := by
  induction order generalizing s with
  | nil =>
    refine ⟨1, { s with handling := none }, ?_, rfl, rfl⟩
    simp [step, h, deadNext]
  | cons t rest ih =>
    have hstep : step s .deadNext = some (deadNext s ⟨nodeId, incarnation, t :: rest⟩) := by
      simp [step, h]
    cases hok : (s.plane.failRecord nodeId incarnation t).1.ok with
    | true =>
      obtain ⟨turns, u, hrun, hfree, hplane⟩ := @ih (deadNext s ⟨nodeId, incarnation, t :: rest⟩)
        (by simp [deadNext, hok])
      refine ⟨turns + 1, u, ?_, hfree, ?_⟩
      · rw [List.replicate_succ, Run.run_cons, hstep]
        exact hrun
      · rw [hplane]
        simp [handleNodeDead, hok, deadNext]
    | false =>
      refine ⟨1, deadNext s ⟨nodeId, incarnation, t :: rest⟩, ?_, ?_, ?_⟩
      · rw [List.replicate_one, Run.run_cons, hstep]
        rfl
      · simp [deadNext, hok]
      · simp [deadNext, handleNodeDead, hok]

/-- In every reachable state the call does the same in every order, and all of its work or
nothing, iff the releases of the lifetime fit together or none of them fits alone. -/
theorem node_death_handled_iff {as : List Action} {s : State}
    (hrun : Run.run step as .initial = some s) (nodeId : NodeID) (incarnation : Nat) :
    DeathHandled s.plane nodeId incarnation ↔ AllOrNone s.plane nodeId incarnation :=
  deathHandled_iff (Run.invariant_run (fun _ _ _ hv hw => step_wellFormed hv hw) hrun
    NodeRegistry.wellFormed_empty)

/-- Two tasks run under the first incarnation when its death is announced. -/
def announcedDead : List Action :=
  [.registerNode (Sample.node 1) 0,
    Sample.reserve 1, .submitPublish (Sample.task 1), .submitDispatched (Sample.task 1) .OK,
    Sample.reserve 2, .submitPublish (Sample.task 2), .submitDispatched (Sample.task 2) .OK,
    .updateLiveness 3000000 1 2]

/-- The worker restarts and is given one more task before the death is handled. -/
def restarted : List Action :=
  [.registerNode (Sample.node 2) 3000001,
    Sample.reserve 3, .submitPublish (Sample.task 3), .submitDispatched (Sample.task 3) .OK]

def restartedIdle : State :=
  Run.stateAfter step (announcedDead ++ [.registerNode (Sample.node 2) 3000001]) .initial

/-- Nothing is in use of the restarted worker, so no release fits and nothing changes. -/
theorem node_death_handled_iff_idle : DeathHandled restartedIdle.plane Sample.nodeId 1 := by
  have hrun : Run.run step (announcedDead ++ [.registerNode (Sample.node 2) 3000001]) .initial =
      some restartedIdle := Run.run_stateAfter (by decide)
  refine (node_death_handled_iff hrun Sample.nodeId 1).mpr (.inr ?_)
  intro t record hl _
  have hkeys : restartedIdle.plane.tasks.keys = {Sample.task 1, Sample.task 2} := by decide
  have hmem : t ∈ restartedIdle.plane.tasks.keys := by
    rw [Finmap.mem_keys, Finmap.mem_iff]
    exact ⟨record, hl⟩
  have hresources : record.resources = Sample.submission.resources := by
    rw [hkeys, Finset.mem_insert, Finset.mem_singleton] at hmem
    have hboth : ∀ t', t' = Sample.task 1 ∨ t' = Sample.task 2 →
        (restartedIdle.plane.tasks.lookup t').map (fun r => r.resources) =
          some Sample.submission.resources := by
      rintro t' (rfl | rfl) <;> decide
    have hrecord := hboth t hmem
    rw [hl] at hrecord
    exact Option.some.inj hrecord
  rw [hresources]
  rintro ⟨stored, hs, hfits⟩
  have hfull : (restartedIdle.registry.nodes.lookup Sample.nodeId).map
      (fun node => node.schedulablePool.canRelease Sample.submission.resources) = some false := by
    decide
  rw [State.registry, hs, Option.map_some, hfits] at hfull
  simp at hfull

/-- With one unit in use, the first of the two releases takes it and the second is refused. -/
theorem death_half_handled : ¬ ∀ (as : List Action) (s : State),
    Run.run step as .initial = some s → ∀ nodeId incarnation,
      DeathHandled s.plane nodeId incarnation := by
  intro h
  have hhandled := h (announcedDead ++ restarted) _ (Run.run_stateAfter (by decide))
    Sample.nodeId 1
  have hsame := hhandled.atomic [Sample.task 1, Sample.task 2, Sample.task 3] (by decide)
    (by decide)
  have hrecord := congrArg (fun cp => (cp.tasks.lookup (Sample.task 1)).map
    fun record => record.state) hsame
  exact absurd hrecord (by decide)

end ControlSystem

end AgentRuntime
