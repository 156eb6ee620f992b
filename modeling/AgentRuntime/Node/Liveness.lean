import AgentRuntime.Node.RegistryHistory

/-!
# Liveness by heartbeat age

`FailureDetector` compares the time since a heartbeat, in clock ticks, with
timeouts in milliseconds. The comparison multiplies the timeouts by 10^6 in 64
bits, and `Start` does not bound them. The scan is compared with the same
classification over the integers.
-/
namespace AgentRuntime

/-! ## The detector -/

structure FailureDetectorOptions where
  scanInterval : Int
  suspectTimeout : Int
  deadTimeout : Int
  deriving DecidableEq

structure FailureDetector where
  options : FailureDetectorOptions
  running : Bool
  deriving DecidableEq

namespace FailureDetector

def start (detector : FailureDetector) : Status × FailureDetector :=
  if detector.options.scanInterval ≤ 0 then
    (.InvalidArgument "failure detector scan interval must be positive", detector)
  else if detector.options.suspectTimeout ≤ 0 then
    (.InvalidArgument "failure detector suspect timeout must be positive", detector)
  else if detector.options.deadTimeout ≤ detector.options.suspectTimeout then
    (.InvalidArgument "failure detector dead timeout must exceed suspect timeout", detector)
  else if detector.running then
    (.FailedPrecondition "failure detector is already running", detector)
  else (.OK, { detector with running := true })

/-- The call of `UpdateLiveness` that `ScanOnce` makes. -/
def scanOnce (detector : FailureDetector) (reg : NodeRegistry) (now : Int) :
    List DeadNodeLifetime × NodeRegistry :=
  reg.updateLiveness now detector.options.suspectTimeout detector.options.deadTimeout

/-- `Start` admits the options when they are positive and in order. -/
theorem start_ok {detector : FailureDetector} (h : detector.start.1.ok = true) :
    0 < detector.options.suspectTimeout ∧
      detector.options.suspectTimeout < detector.options.deadTimeout := by
  simp only [start] at h
  split_ifs at h with hscan hsuspect hdead hrunning
  · simp at h
  · simp at h
  · simp at h
  · simp at h
  · constructor <;> omega

end FailureDetector

namespace NodeRegistry

/-! ## The classification over the integers -/

/-- The state of a node that is not dead, its age compared with the timeouts exactly. -/
def exactState (now suspectTimeout deadTimeout : Int) (node : NodeRecord) : NodeState :=
  let elapsed := now - node.lastHeartbeatReceived
  if deadTimeout * 1000000 ≤ elapsed then .dead
  else if suspectTimeout * 1000000 ≤ elapsed then .suspect
  else .alive

/-- The stored node as an exact scan leaves it. -/
def exactRescan (now suspectTimeout deadTimeout : Int) (stored : StoredNode) : StoredNode :=
  if stored.record.state = .dead then stored
  else { stored with record := { stored.record with
    state := exactState now suspectTimeout deadTimeout stored.record } }

/-- The scan classifies every node exactly, returns those it killed and changes nothing else. -/
structure ScanExact (reg : NodeRegistry) (now suspectTimeout deadTimeout : Int)
    (announced : List DeadNodeLifetime) (reg' : NodeRegistry) : Prop where
  nodes : ∀ id, reg'.nodes.lookup id =
    (reg.nodes.lookup id).map (exactRescan now suspectTimeout deadTimeout)
  order : reg'.registrationOrder = reg.registrationOrder
  once : announced.Nodup
  killed : announced = reg.registrationOrder.filterMap fun id =>
    (reg.nodes.lookup id).bind fun stored =>
      if stored.record.state ≠ .dead ∧
          exactState now suspectTimeout deadTimeout stored.record = .dead then
        some ⟨id, stored.record.incarnation⟩
      else none

/-- A timeout that leaves the 64-bit range is still larger than the age it is compared with. -/
def keepsOrder (timeout elapsed : Int) : Prop :=
  FitsInt64 (timeout * 1000000) ∨ elapsed < toNanoseconds timeout

instance (timeout elapsed : Int) : Decidable (keepsOrder timeout elapsed) :=
  inferInstanceAs (Decidable (_ ∨ _))

/-- A comparison in clock ticks is exact when the timeout fits, or is larger than the age. -/
theorem toNanoseconds_le_iff {timeout elapsed : Int} (hpos : 0 < timeout)
    (helapsed : FitsInt64 elapsed) :
    (toNanoseconds timeout ≤ elapsed ↔ timeout * 1000000 ≤ elapsed) ↔
      keepsOrder timeout elapsed := by
  by_cases hfits : FitsInt64 (timeout * 1000000)
  · simp [keepsOrder, hfits, toNanoseconds, wrap64_of_fits hfits]
  · -- the timeout is beyond every age that the clock can represent
    have hbeyond : elapsed < timeout * 1000000 := by
      obtain ⟨-, hmax⟩ := helapsed
      simp only [FitsInt64, int64Min, int64Max] at hfits hmax
      omega
    simp only [keepsOrder, hfits, false_or]
    constructor
    · intro h
      by_contra hle
      exact absurd (h.mp (not_lt.mp hle)) (by omega)
    · intro h
      omega

/-- The classification of one node is exact iff neither timeout is cut short. -/
theorem classify_exact_iff {now suspectTimeout deadTimeout : Int} {node : NodeRecord}
    (hpos : 0 < suspectTimeout) (hlt : suspectTimeout < deadTimeout)
    (helapsed : FitsInt64 (now - node.lastHeartbeatReceived)) :
    classify now suspectTimeout deadTimeout node =
        exactState now suspectTimeout deadTimeout node ↔
      keepsOrder deadTimeout (now - node.lastHeartbeatReceived) ∧
        keepsOrder suspectTimeout (now - node.lastHeartbeatReceived) := by
  have hdead := toNanoseconds_le_iff (hpos.trans hlt) helapsed
  have hsuspect := toNanoseconds_le_iff hpos helapsed
  rw [← hdead, ← hsuspect]
  simp only [classify, exactState, wrap64_of_fits helapsed]
  by_cases hd : deadTimeout * 1000000 ≤ now - node.lastHeartbeatReceived
  · -- the longer timeout fits, so both are compared exactly
    have hfits : FitsInt64 (suspectTimeout * 1000000) := by
      obtain ⟨-, hmax⟩ := helapsed
      simp only [FitsInt64, int64Min, int64Max] at hmax ⊢
      omega
    have hs : suspectTimeout * 1000000 ≤ now - node.lastHeartbeatReceived := by omega
    simp only [hd, if_true, iff_true, toNanoseconds, wrap64_of_fits hfits, hs, and_true]
    split_ifs with hd'
    · simp [hd']
    · simp [hd']
  · by_cases hs : suspectTimeout * 1000000 ≤ now - node.lastHeartbeatReceived
    · have hfits : FitsInt64 (suspectTimeout * 1000000) := by
        obtain ⟨-, hmax⟩ := helapsed
        simp only [FitsInt64, int64Min, int64Max] at hmax ⊢
        omega
      simp only [hd, hs, if_true, if_false, iff_false, not_le, toNanoseconds,
        wrap64_of_fits hfits, and_true]
      split_ifs with hd'
      · simpa using hd'
      · simpa using hd'
    · simp only [hd, hs, if_false, iff_false, not_le]
      split_ifs with hd' hs'
      · simp
        omega
      · simp
        omega
      · simp
        omega

/-! ## The scan -/

variable {reg : NodeRegistry}

theorem exactRescan_eq_iff {now suspectTimeout deadTimeout : Int} {stored : StoredNode} :
    rescan now suspectTimeout deadTimeout stored =
        exactRescan now suspectTimeout deadTimeout stored ↔
      (stored.record.state ≠ .dead → classify now suspectTimeout deadTimeout stored.record =
        exactState now suspectTimeout deadTimeout stored.record) := by
  simp only [rescan, exactRescan]
  split_ifs with hd
  · simp [hd]
  · simp [hd]

theorem updateLiveness_ordered {now suspectTimeout deadTimeout : Int}
    (hpos : 0 < suspectTimeout) (hlt : suspectTimeout < deadTimeout) :
    reg.updateLiveness now suspectTimeout deadTimeout =
      ((scan now suspectTimeout deadTimeout reg.registrationOrder reg.nodes).1,
        { reg with nodes :=
          (scan now suspectTimeout deadTimeout reg.registrationOrder reg.nodes).2 }) := by
  rw [updateLiveness, if_neg (by omega)]

/-- The scan looks at every registered node once. -/
theorem updateLiveness_lookup_eq (h : WellFormed reg) {now suspectTimeout deadTimeout : Int}
    (hpos : 0 < suspectTimeout) (hlt : suspectTimeout < deadTimeout) (id : NodeID) :
    (reg.updateLiveness now suspectTimeout deadTimeout).2.nodes.lookup id =
      (reg.nodes.lookup id).map (rescan now suspectTimeout deadTimeout) := by
  rw [updateLiveness_ordered hpos hlt, scan_lookup]
  split_ifs with hmem
  · rfl
  · cases hl : reg.nodes.lookup id with
    | none => rfl
    | some stored => exact absurd ((h.listed id).mpr ⟨stored, hl⟩) hmem

/-- The scan is exact iff it classifies every node that is not dead exactly. -/
theorem scanExact_iff (h : WellFormed reg) {now suspectTimeout deadTimeout : Int}
    (hpos : 0 < suspectTimeout) (hlt : suspectTimeout < deadTimeout) :
    ScanExact reg now suspectTimeout deadTimeout
        (reg.updateLiveness now suspectTimeout deadTimeout).1
        (reg.updateLiveness now suspectTimeout deadTimeout).2 ↔
      ∀ id stored, reg.nodes.lookup id = some stored → stored.record.state ≠ .dead →
        classify now suspectTimeout deadTimeout stored.record =
          exactState now suspectTimeout deadTimeout stored.record := by
  constructor
  · intro he id stored hl
    have hnode := he.nodes id
    rw [updateLiveness_lookup_eq h hpos hlt, hl, Option.map_some, Option.map_some,
      Option.some.injEq] at hnode
    exact exactRescan_eq_iff.mp hnode
  · intro hexact
    constructor
    · intro id
      rw [updateLiveness_lookup_eq h hpos hlt]
      cases hl : reg.nodes.lookup id with
      | none => rfl
      | some stored =>
        rw [Option.map_some, Option.map_some, exactRescan_eq_iff.mpr (hexact id stored hl)]
    · rw [updateLiveness_ordered hpos hlt]
    · exact (updateLiveness_announces h now suspectTimeout deadTimeout).1
    · rw [updateLiveness_ordered hpos hlt]
      simp only
      rw [scan_announced _ _ _ _ _ h.once]
      apply List.filterMap_congr
      intro id _
      cases hl : reg.nodes.lookup id with
      | none => rfl
      | some stored =>
        simp only [Option.bind_some, newlyDead, Bool.and_eq_true, decide_eq_true_eq,
          (h.entries id stored hl).keyed]
        by_cases hd : stored.record.state = .dead
        · simp [hd]
        · simp [hd, hexact id stored hl hd]

/-- With the options that `Start` admits, a scan is exact iff no timeout that leaves the 64-bit
range in nanoseconds comes out as at most the age of a node. -/
theorem liveness_exact_iff (calls : List Call) (detector : FailureDetector) (now : Int)
    (hstart : detector.start.1.ok = true)
    (hclock : ∀ id stored, (registryAfter calls).nodes.lookup id = some stored →
      FitsInt64 (now - stored.record.lastHeartbeatReceived)) :
    ScanExact (registryAfter calls) now detector.options.suspectTimeout
        detector.options.deadTimeout (detector.scanOnce (registryAfter calls) now).1
        (detector.scanOnce (registryAfter calls) now).2 ↔
      ∀ id stored, (registryAfter calls).nodes.lookup id = some stored →
        stored.record.state ≠ .dead →
        keepsOrder detector.options.deadTimeout (now - stored.record.lastHeartbeatReceived) ∧
          keepsOrder detector.options.suspectTimeout
            (now - stored.record.lastHeartbeatReceived) := by
  obtain ⟨hpos, hlt⟩ := FailureDetector.start_ok hstart
  simp only [FailureDetector.scanOnce]
  rw [scanExact_iff (wellFormed_registryAfter calls) hpos hlt]
  refine forall_congr' fun id => forall_congr' fun stored => forall_congr' fun hl =>
    forall_congr' fun _ => ?_
  exact classify_exact_iff hpos hlt (hclock id stored hl)

namespace Sample

/-- The largest number of milliseconds stands for no timeout. -/
def neverDead : FailureDetector := ⟨⟨1000, 3000, 9223372036854775807⟩, false⟩

def patient : FailureDetector := ⟨⟨1000, 3000, 10000⟩, false⟩

end Sample

/-- A scan five seconds after the registration finds the node suspect. -/
theorem liveness_exact_iff_suspect :
    ScanExact (registryAfter [Sample.register 1]) 5000000000 3000 10000
      (Sample.patient.scanOnce (registryAfter [Sample.register 1]) 5000000000).1
      (Sample.patient.scanOnce (registryAfter [Sample.register 1]) 5000000000).2 ∧
    (Sample.patient.scanOnce (registryAfter [Sample.register 1]) 5000000000).2.stateOf
      Sample.nodeId = some (1, .suspect) := by
  have hnode : ∀ id stored, (registryAfter [Sample.register 1]).nodes.lookup id = some stored →
      stored.record.lastHeartbeatReceived = 0 := by
    have ⟨first, hnodes, hreceived⟩ : ∃ first, (registryAfter [Sample.register 1]).nodes =
        (∅ : UnorderedMap NodeID StoredNode).insert Sample.nodeId first ∧
        first.record.lastHeartbeatReceived = 0 := ⟨_, rfl, rfl⟩
    intro id stored hl
    rw [hnodes, UnorderedMap.lookup_insert_eq] at hl
    split_ifs at hl
    · cases hl
      exact hreceived
    · cases hl
  refine ⟨(liveness_exact_iff [Sample.register 1] Sample.patient 5000000000 (by decide)
    ?_).mpr ?_, by decide⟩
  · intro id stored hl
    rw [hnode id stored hl]
    decide
  · intro id stored hl _
    rw [hnode id stored hl]
    exact ⟨.inl (by decide), .inl (by decide)⟩

/-- With a dead timeout that means never, a node is dead as soon as it has registered. -/
theorem never_means_at_once :
    Sample.neverDead.start.1.ok = true ∧
    FitsInt64 Sample.neverDead.options.deadTimeout ∧
    (Sample.neverDead.scanOnce (registryAfter [Sample.register 1]) 0).2.stateOf Sample.nodeId =
      some (1, .dead) ∧
    ¬ ScanExact (registryAfter [Sample.register 1]) 0
      Sample.neverDead.options.suspectTimeout Sample.neverDead.options.deadTimeout
      (Sample.neverDead.scanOnce (registryAfter [Sample.register 1]) 0).1
      (Sample.neverDead.scanOnce (registryAfter [Sample.register 1]) 0).2 := by
  have hdead : (Sample.neverDead.scanOnce (registryAfter [Sample.register 1]) 0).2.stateOf
      Sample.nodeId = some (1, .dead) := by decide
  refine ⟨by decide, by decide, hdead, fun h => ?_⟩
  rw [stateOf, h.nodes] at hdead
  exact absurd hdead (by decide)

end NodeRegistry

end AgentRuntime
