import AgentRuntime.Control.TaskSteps
import AgentRuntime.Node.RegistryHistory

/-!
# Tasks whose lifetime has ended

A lifetime that dies is announced once and `HandleNodeDead` then fails its
tasks. A live record whose call has returned is tended: its lifetime is
registered and not dead, or the announcement of its death is still to come, or
a `HandleNodeDead` has yet to visit the record. The steps that would leave a
record untended are the ones that end a lifetime in another way.
-/
namespace AgentRuntime

namespace ControlSystem

variable {s u : State}

/-- The call of the task has returned and its record is not terminal. -/
def State.awaiting (s : State) (t : TaskID) (record : DistributedTaskRecord) : Prop :=
  s.record t = some record ∧ isTerminal record.state = false ∧ (s.phase t).settled = true

/-- The lifetime of the record is registered and not dead. -/
def State.lives (s : State) (record : DistributedTaskRecord) : Bool :=
  (s.registry.stateOf record.nodeId).any fun lifetime =>
    lifetime.1 = record.nodeIncarnation && lifetime.2 ≠ .dead

/-- The lifetime of the record is announced and not yet handled. -/
def State.announces (s : State) (record : DistributedTaskRecord) : Bool :=
  s.announced.contains ⟨record.nodeId, record.nodeIncarnation⟩

/-- A `HandleNodeDead` for the lifetime of the record is to come, or to visit the record. -/
def State.promises (s : State) (t : TaskID) (record : DistributedTaskRecord) : Bool :=
  s.announces record || s.handling.any fun call =>
    call.nodeId = record.nodeId && call.incarnation = record.nodeIncarnation &&
      call.remaining.contains t

/-- The end of the lifetime of a record has been or will be brought to it. -/
def State.tends (s : State) (t : TaskID) (record : DistributedTaskRecord) : Bool :=
  s.lives record || s.promises t record

theorem lives_iff {record : DistributedTaskRecord} : s.lives record = true ↔ ∃ state,
    s.registry.stateOf record.nodeId = some (record.nodeIncarnation, state) ∧
      state ≠ .dead := by
  simp only [State.lives, Option.any_eq_true, Bool.and_eq_true, decide_eq_true_eq]
  constructor
  · rintro ⟨⟨_, state⟩, hstate, rfl, hlive⟩
    exact ⟨state, hstate, hlive⟩
  · rintro ⟨state, hstate, hlive⟩
    exact ⟨_, hstate, rfl, hlive⟩

theorem announces_iff {record : DistributedTaskRecord} : s.announces record = true ↔
    ⟨record.nodeId, record.nodeIncarnation⟩ ∈ s.announced := by
  simp only [State.announces, List.contains_iff_mem]

theorem promises_iff {t : TaskID} {record : DistributedTaskRecord} :
    s.promises t record = true ↔ ⟨record.nodeId, record.nodeIncarnation⟩ ∈ s.announced ∨
      ∃ call, s.handling = some call ∧ call.nodeId = record.nodeId ∧
        call.incarnation = record.nodeIncarnation ∧ t ∈ call.remaining := by
  simp only [State.promises, Bool.or_eq_true, announces_iff, Option.any_eq_true, Bool.and_eq_true,
    decide_eq_true_eq, List.contains_iff_mem, and_assoc]

theorem tends_iff {t : TaskID} {record : DistributedTaskRecord} :
    s.tends t record = true ↔ s.lives record = true ∨ s.promises t record = true := by
  simp only [State.tends, Bool.or_eq_true]

/-- Some live record of the lifetime whose call has returned is not among the kept ones. -/
def State.strands (s : State) (nodeId : NodeID) (incarnation : Nat)
    (kept : TaskID → DistributedTaskRecord → Bool) : Bool :=
  decide (∃ t ∈ s.plane.tasks.keys, (s.phase t).settled = true ∧
    (s.record t).any fun record => !isTerminal record.state &&
      decide (record.belongsTo nodeId incarnation) && !kept t record)

theorem kept_of_awaiting {t : TaskID} {record : DistributedTaskRecord}
    {kept : TaskID → DistributedTaskRecord → Bool} (h : s.awaiting t record)
    (hkept : s.strands record.nodeId record.nodeIncarnation kept = false) :
    kept t record = true := by
  obtain ⟨hrec, hlive, hsettled⟩ := h
  simp only [State.strands, decide_eq_false_iff_not] at hkept
  by_contra hnot
  rw [Bool.not_eq_true] at hnot
  refine hkept ⟨t, ?_, hsettled, ?_⟩
  · rw [Finmap.mem_keys, Finmap.mem_iff]
    exact ⟨record, hrec⟩
  · simp [hrec, hlive, hnot, DistributedTaskRecord.belongsTo]

/-- A lifetime is replaced or removed only when `HandleNodeDead` is to come to each of its tasks,
no submission returns OK for a task that the announcement has already missed, and a
`HandleNodeDead` whose release is refused leaves behind no task of a lifetime that has ended. -/
def leavesNoOrphan (s : State) : Action → Bool
  | .registerNode node _ =>
    !decide (NodeRegistry.startsLifetime s.registry node) ||
      (s.registry.lifetimeOf node.nodeId).all fun i => !s.strands node.nodeId i s.promises
  | .removeNode nodeId incarnation =>
    s.registry.lifetimeOf nodeId ≠ some incarnation || !s.strands nodeId incarnation s.promises
  | .submitDispatched t status =>
    !status.ok || (s.record t).all fun record => isTerminal record.state || s.tends t record
  | .deadNext =>
    s.handling.all fun call =>
      (call.remaining.head?.all fun t =>
        (s.record t).all fun record =>
          !decide (ControlPlane.failsWithNode call.nodeId call.incarnation record) ||
            (s.registry.poolOf record.nodeId).any fun registered =>
              registered.2.canRelease record.resources) ||
      !s.strands call.nodeId call.incarnation fun _ record => s.lives record || s.announces record
  | _ => true

def Tended (s : State) : Prop := ∀ t record, s.awaiting t record → s.tends t record = true

theorem tended_initial : Tended .initial := by
  intro t record h
  cases h.1

/-- A task waiting after the step was waiting before it, under the same identities, unless the
step is the one that returns OK from its submission. -/
theorem awaiting_before {a : Action} (hrec : Recorded s) (hstep : step s a = some u) {t : TaskID}
    {record : DistributedTaskRecord} (h : u.awaiting t record) :
    (∃ old, s.awaiting t old ∧ SameTask old record) ∨
    (∃ status, a = .submitDispatched t status ∧ status.ok = true) ∧ s.record t = some record := by
  obtain ⟨hr, hlive, hsettled⟩ := h
  cases step_task hstep t with
  | other hphase hrecord hgiven =>
    rw [hphase] at hsettled
    rw [hrecord] at hr
    exact .inl ⟨record, ⟨hr, hlive, hsettled⟩, .refl _⟩
  | refused status hphase hphase' hrecord hgiven =>
    rw [hrecord, hrec.none (by simp [hphase]) (by simp [hphase]) (by simp [hphase])] at hr
    cases hr
  | reserved call hphase hphase' hrecord hgiven =>
    rw [hphase'] at hsettled
    cases hsettled
  | published call hfree hphase hphase' hrecord hgiven =>
    rw [hphase'] at hsettled
    cases hsettled
  | delivered call status ha hok hphase hphase' hrecord hgiven =>
    rw [hrecord] at hr
    exact .inr ⟨⟨status, ha, hok⟩, hr⟩
  | undelivered call status hphase hphase' hrecord hgiven =>
    rw [hphase'] at hsettled
    cases hsettled
  | erased call status ha hphase hphase' hrecord hgiven =>
    rw [hrecord] at hr
    cases hr
  | rolledBack call status status' hphase hphase' hrecord hgiven =>
    rw [hrecord, hrec.none (by simp [hphase]) (by simp [hphase]) (by simp [hphase])] at hr
    cases hr
  | requested old new hphase hold holdlive hnew hnewlive hsame hgiven =>
    rw [hphase] at hsettled
    rw [hnew] at hr
    cases hr
    exact .inl ⟨old, ⟨hold, holdlive, hsettled⟩, hsame⟩
  | ended old new hphase hold holdlive hnew hterm hsame hgiven =>
    rw [hnew] at hr
    cases hr
    rw [hterm] at hlive
    cases hlive

theorem tends_of_same {t : TaskID} {record : DistributedTaskRecord}
    (hstate : u.registry.stateOf record.nodeId = s.registry.stateOf record.nodeId)
    (hann : u.announced = s.announced) (hhandling : u.handling = s.handling) :
    u.tends t record = s.tends t record := by
  simp only [State.tends, State.lives, State.promises, State.announces, hstate, hann, hhandling]

/-- What needs no `HandleNodeDead`, or none that has begun, stays tended. -/
theorem tends_of_kept {t : TaskID} {record : DistributedTaskRecord}
    (hstates : u.registry.stateOf = s.registry.stateOf) (hann : u.announced = s.announced)
    (hkept : s.lives record = true ∨ s.announces record = true) : u.tends t record = true := by
  simp only [State.lives, ← hstates, State.announces, ← hann] at hkept
  obtain hlives | hannounces := hkept
  · exact tends_iff.mpr (.inl hlives)
  · exact tends_iff.mpr (.inr (promises_iff.mpr (.inl (announces_iff.mp hannounces))))

theorem promises_of_same {t : TaskID} {record : DistributedTaskRecord}
    (hann : u.announced = s.announced) (hhandling : u.handling = s.handling) :
    u.promises t record = s.promises t record := by
  simp only [State.promises, State.announces, hann, hhandling]

theorem tends_congr {t : TaskID} {old new : DistributedTaskRecord} (h : SameTask old new) :
    s.tends t new = s.tends t old := by
  simp only [State.tends, State.lives, State.promises, State.announces, h.nodeId,
    h.nodeIncarnation]

/-- A lifetime that ends with its tasks promised, or another lifetime than the record's. -/
theorem tends_ended {t : TaskID} {record : DistributedTaskRecord} (hold : s.awaiting t record)
    (h : s.tends t record = true) (nodeId : NodeID)
    (hends : ∀ i, s.registry.lifetimeOf nodeId = some i →
      s.strands nodeId i s.promises = false)
    (hstates : ∀ id, id ≠ nodeId → u.registry.stateOf id = s.registry.stateOf id)
    (hann : u.announced = s.announced) (hhandling : u.handling = s.handling) :
    u.tends t record = true := by
  by_cases hid : record.nodeId = nodeId
  swap
  · rw [tends_of_same (hstates _ hid) hann hhandling]
    exact h
  refine tends_iff.mpr (.inr ?_)
  rw [promises_of_same hann hhandling]
  obtain hlives | hpromises := tends_iff.mp h
  · obtain ⟨state, hstate, -⟩ := lives_iff.mp hlives
    have hlife : s.registry.lifetimeOf nodeId = some record.nodeIncarnation := by
      rw [NodeRegistry.lifetimeOf_eq_stateOf, ← hid, hstate]
      rfl
    have hkept := hends _ hlife
    rw [← hid] at hkept
    exact kept_of_awaiting hold hkept
  · exact hpromises

theorem tends_registerNode {node : NodeRecord} {now : Int} {t : TaskID}
    {record : DistributedTaskRecord} (hC : leavesNoOrphan s (.registerNode node now) = true)
    (hold : s.awaiting t record) (h : s.tends t record = true) :
    (s.setRegistry (s.registry.registerNode node now).2).tends t record = true := by
  obtain ⟨-, he, -⟩ | ⟨hstarts, -, hstates⟩ := s.registry.registerNode_reply node now
  · rw [he]
    exact h
  · refine tends_ended hold h node.nodeId (fun i hlife => ?_) (fun id hid => ?_) rfl rfl
    · simpa [leavesNoOrphan, hstarts, hlife] using hC
    · rw [State.setRegistry_registry, hstates, if_neg hid]

theorem tends_removeNode {nodeId : NodeID} {incarnation : Nat} {t : TaskID}
    {record : DistributedTaskRecord}
    (hC : leavesNoOrphan s (.removeNode nodeId incarnation) = true)
    (hold : s.awaiting t record) (h : s.tends t record = true) :
    (s.setRegistry (s.registry.removeNode nodeId incarnation).2).tends t record = true := by
  obtain he | ⟨hlife, hstates⟩ := s.registry.removeNode_stateOf nodeId incarnation
  · rw [he]
    exact h
  · refine tends_ended hold h nodeId (fun i hi => ?_) (fun id hid => ?_) rfl rfl
    · rw [hlife] at hi
      cases hi
      simpa [leavesNoOrphan, hlife] using hC
    · rw [State.setRegistry_registry, hstates, if_neg hid]

theorem tends_heartbeat {nodeId : NodeID} {incarnation : Nat} {reported : ResourceSet}
    {running : Nat} {now : Int} {t : TaskID} {record : DistributedTaskRecord}
    (h : s.tends t record = true) :
    (s.setRegistry (s.registry.heartbeat nodeId incarnation reported running now).2).tends t
      record = true := by
  obtain he | ⟨state, hstate, -, hnew⟩ :=
    s.registry.heartbeat_stateOf nodeId incarnation reported running now record.nodeId
  · rw [← h]
    exact tends_of_same he rfl rfl
  · obtain hlives | hpromises := tends_iff.mp h
    · obtain ⟨state', hstate', -⟩ := lives_iff.mp hlives
      rw [hstate] at hstate'
      cases hstate'
      exact tends_iff.mpr (.inl (lives_iff.mpr ⟨.alive, hnew, by simp⟩))
    · exact tends_iff.mpr (.inr hpromises)

/-- A scan announces the lifetimes it kills. -/
theorem tends_updateLiveness (hwf : s.registry.WellFormed) {now suspectTimeout deadTimeout : Int}
    {t : TaskID} {record : DistributedTaskRecord} (h : s.tends t record = true)
    (hstep : step s (.updateLiveness now suspectTimeout deadTimeout) = some u) :
    u.tends t record = true := by
  cases hstep
  obtain hlives | hpromises := tends_iff.mp h
  · obtain ⟨state, hstate, hlive⟩ := lives_iff.mp hlives
    obtain ⟨state', hnew, -, hannounced⟩ :=
      NodeRegistry.updateLiveness_stateOf hwf now suspectTimeout deadTimeout hstate
    by_cases hd : state' = .dead
    · have hin := (hannounced hd).resolve_left hlive
      exact tends_iff.mpr (.inr (promises_iff.mpr (.inl (List.mem_append_right _ hin))))
    · exact tends_iff.mpr (.inl (lives_iff.mpr ⟨state', hnew, hd⟩))
  · refine tends_iff.mpr (.inr (promises_iff.mpr ?_))
    exact (promises_iff.mp hpromises).imp_left (List.mem_append_left _)

/-- `HandleNodeDead` takes over what its announcement promised. -/
theorem tends_deadBegin {nodeId : NodeID} {incarnation : Nat} {order : List TaskID} {t : TaskID}
    {record : DistributedTaskRecord} (hrec : s.record t = some record)
    (h : s.tends t record = true)
    (hstep : step s (.deadBegin nodeId incarnation order) = some u) :
    u.tends t record = true := by
  obtain ⟨hfree, horder, rfl⟩ := step_deadBegin hstep
  obtain hlives | hpromises := tends_iff.mp h
  · exact tends_iff.mpr (.inl hlives)
  refine tends_iff.mpr (.inr (promises_iff.mpr ?_))
  obtain hann | ⟨call, hcall, -⟩ := promises_iff.mp hpromises
  · by_cases hsame : (⟨record.nodeId, record.nodeIncarnation⟩ : DeadNodeLifetime) =
        ⟨nodeId, incarnation⟩
    · right
      cases hsame
      exact ⟨_, rfl, rfl, rfl, (horder.mem_iff t).mpr ⟨record, hrec⟩⟩
    · exact .inl ((List.mem_erase_of_ne hsame).mpr hann)
  · rw [hfree] at hcall
    cases hcall

/-- One turn of `HandleNodeDead` visits its record or leaves it for later. -/
theorem tends_deadNext {t : TaskID} {record old : DistributedTaskRecord}
    (hC : leavesNoOrphan s .deadNext = true) (hold : s.awaiting t old)
    (hu : u.awaiting t record) (h : s.tends t old = true)
    (hstep : step s .deadNext = some u) : u.tends t old = true := by
  obtain ⟨call, hcall, hcase⟩ := step_deadNext hstep
  -- the record is in the rest of the loop whenever it was in what remained
  have hrest : ∀ {v : State} {t' rest}, call.remaining = t' :: rest →
      v.registry.stateOf = s.registry.stateOf → v.announced = s.announced →
      v.handling = some { call with remaining := rest } → (call.nodeId = old.nodeId →
        call.incarnation = old.nodeIncarnation → t ≠ t') → v.tends t old = true := by
    intro v t' rest hrem hstates hann hhandling hne
    obtain hlives | hpromises := tends_iff.mp h
    · exact tends_of_kept hstates hann (.inl hlives)
    obtain hin | ⟨call', hcall', hnode, hinc, hmem⟩ := promises_iff.mp hpromises
    · exact tends_of_kept hstates hann (.inr (announces_iff.mpr hin))
    rw [hcall] at hcall'
    cases hcall'
    rw [hrem] at hmem
    exact tends_iff.mpr (.inr (promises_iff.mpr (.inr ⟨_, hhandling, hnode, hinc,
      (List.mem_cons.mp hmem).resolve_left (hne hnode hinc)⟩)))
  obtain ⟨hnil, rfl⟩ | ⟨t', rest, hrem, hcase⟩ := hcase
  · refine tends_of_kept rfl rfl ((tends_iff.mp h).imp_right fun hpromises => ?_)
    obtain hin | ⟨call', hcall', -, -, hmem⟩ := promises_iff.mp hpromises
    · exact announces_iff.mpr hin
    · rw [hcall] at hcall'
      cases hcall'
      rw [hnil] at hmem
      cases hmem
  obtain ⟨hskip, rfl⟩ | ⟨⟨r, hr, hf, hno⟩, rfl⟩ | ⟨r, hr, hf, hok, rfl⟩ := hcase
  · refine hrest hrem rfl rfl rfl ?_
    rintro hnode hinc rfl
    exact hskip old hold.1 ⟨⟨hnode.symm, hinc.symm⟩, hold.2.1⟩
  · obtain hlives | hpromises := tends_iff.mp h
    · exact tends_of_kept rfl rfl (.inl hlives)
    obtain hin | ⟨call', hcall', hnode, hinc, -⟩ := promises_iff.mp hpromises
    · exact tends_of_kept rfl rfl (.inr (announces_iff.mpr hin))
    rw [hcall] at hcall'
    cases hcall'
    have hstrands : s.strands old.nodeId old.nodeIncarnation
        (fun _ record => s.lives record || s.announces record) = false := by
      have hrefused : ((s.registry.poolOf r.nodeId).any fun registered =>
          registered.2.canRelease r.resources) = false := by
        by_contra hfits
        rw [NodeRegistry.release_ok (Bool.eq_true_of_not_eq_false hfits)] at hno
        cases hno
      rw [hnode, hinc] at hf
      simpa [leavesNoOrphan, hcall, hrem, hr, hf, hrefused, hnode, hinc] using hC
    have hkept := kept_of_awaiting hold hstrands
    rw [Bool.or_eq_true] at hkept
    exact tends_of_kept rfl rfl hkept
  · refine hrest hrem (funext fun id => s.registry.release_stateOf r.nodeId r.resources id) rfl
      rfl ?_
    rintro - - rfl
    obtain ⟨hrecord, hlive, -⟩ := hu
    have hfailed := record_of_insert (s := s) (u := s.setPlane
      ⟨(s.registry.release r.nodeId r.resources).2,
        s.plane.tasks.insert t (ControlPlane.failedByNode r)⟩) rfl t
    rw [if_pos rfl] at hfailed
    cases hfailed.symm.trans hrecord
    cases hlive

theorem Tended.step {a : Action} (hwf : s.registry.WellFormed) (hrec : Recorded s)
    (h : Tended s) (hC : leavesNoOrphan s a = true) (hstep : step s a = some u) : Tended u := by
  intro t record hu
  obtain ⟨old, hold, hsame⟩ | ⟨⟨status, rfl, hok⟩, hr⟩ := awaiting_before hrec hstep hu
  swap
  -- the submission that returns now answers for its own record
  · obtain ⟨call, -, rfl⟩ := step_submitDispatched hstep
    have hlive := hu.2.1
    have htends : s.tends t record = true := by
      simpa [leavesNoOrphan, hok, hr, hlive] using hC
    rw [← htends]
    exact tends_of_same rfl rfl rfl
  have htends : s.tends t old = true := h t old hold
  rw [tends_congr hsame]
  cases a with
  | registerNode node now => cases hstep; exact tends_registerNode hC hold htends
  | heartbeat nodeId incarnation reported running now =>
    cases hstep
    exact tends_heartbeat htends
  | updateLiveness now suspectTimeout deadTimeout => exact tends_updateLiveness hwf htends hstep
  | removeNode nodeId incarnation => cases hstep; exact tends_removeNode hC hold htends
  | deadBegin nodeId incarnation order => exact tends_deadBegin hold.1 htends hstep
  | deadNext => exact tends_deadNext hC hold hu htends hstep
  | submitReserve t' e hasOut submission =>
    rw [← htends]
    obtain ⟨-, ⟨status, rfl⟩ | ⟨id, stored, hl, -, -, -, rfl⟩⟩ := step_submitReserve hstep
    · exact tends_of_same rfl rfl rfl
    · exact tends_of_same (NodeRegistry.putPool_stateOf hl _ _) rfl rfl
  | submitPublish t' =>
    rw [← htends]
    obtain ⟨call, -, -, rfl⟩ := step_submitPublish hstep
    exact tends_of_same rfl rfl rfl
  | submitDispatched t' status =>
    rw [← htends]
    obtain ⟨call, -, rfl⟩ := step_submitDispatched hstep
    exact tends_of_same rfl rfl rfl
  | submitErase t' =>
    rw [← htends]
    obtain ⟨call, status, -, -, rfl⟩ := step_submitErase hstep
    exact tends_of_same rfl rfl rfl
  | submitRelease t' =>
    rw [← htends]
    obtain ⟨call, status, -, rfl⟩ := step_submitRelease hstep
    exact tends_of_same (s.registry.release_stateOf _ _ _) rfl rfl
  | cancelSnapshot k t' =>
    rw [← htends]
    obtain ⟨phase, rfl⟩ := step_cancelSnapshot hstep
    exact tends_of_same rfl rfl rfl
  | cancelLocate k =>
    rw [← htends]
    obtain ⟨phase, rfl⟩ := step_cancelLocate hstep
    exact tends_of_same rfl rfl rfl
  | cancelDelivered k status =>
    rw [← htends]
    obtain ⟨phase, rfl⟩ := step_cancelDelivered hstep
    exact tends_of_same rfl rfl rfl
  | cancelPublish k =>
    rw [← htends]
    obtain ⟨phase, rfl | ⟨t', current, -, -, -, rfl⟩⟩ := step_cancelPublish hstep
    · exact tends_of_same rfl rfl rfl
    · exact tends_of_same rfl rfl rfl
  | report t' e state terminalStatus result media =>
    rw [← htends]
    obtain ⟨-, ⟨rfl, -⟩ | ⟨r, -, -, -, -, -, rfl⟩⟩ := step_report hstep
    · rfl
    · exact tends_of_same (s.registry.release_stateOf _ _ _) rfl rfl

/-! ## Quiet states -/

/-- No `SubmitTask` or `CancelTask` call is between its sections, and every announced lifetime
has been handled. -/
def State.quiet (s : State) : Bool :=
  s.handling.isNone && s.announced.isEmpty &&
    decide (∀ t ∈ s.submits.keys, (s.phase t).settled = true) &&
    decide (∀ k ∈ s.cancels.keys, (s.cancelPhase k).settled = true)

theorem quiet_settled (h : s.quiet = true) (t : TaskID) : (s.phase t).settled = true := by
  simp only [State.quiet, Bool.and_eq_true, decide_eq_true_eq] at h
  by_cases hk : t ∈ s.submits.keys
  · exact h.1.2 t hk
  · rw [Finmap.mem_keys, ← Finmap.lookup_eq_none] at hk
    simp [State.phase, hk, SubmitPhase.settled]

/-- In a quiet state of a run that leaves no orphan, the lifetime of every live record is
registered and not dead. -/
theorem live_record_has_lifetime {as : List Action}
    (hC : Run.Along step (fun s a => leavesNoOrphan s a = true) as .initial)
    (hrun : Run.run step as .initial = some s) (hquiet : s.quiet = true) (t : TaskID)
    (record : DistributedTaskRecord) (hr : s.record t = some record)
    (hlive : isTerminal record.state = false) : ∃ state,
    s.registry.stateOf record.nodeId = some (record.nodeIncarnation, state) ∧ state ≠ .dead := by
  have hinv : s.registry.WellFormed ∧ Recorded s ∧ Tended s :=
    Run.invariant (I := fun v => v.registry.WellFormed ∧ Recorded v ∧ Tended v)
      (fun _ _ _ hv ha hw => ⟨step_wellFormed hv.1 hw, hv.2.1.step hw,
      hv.2.2.step hv.1 hv.2.1 ha hw⟩) hC hrun
      ⟨NodeRegistry.wellFormed_empty, recorded_initial, tended_initial⟩
  have htends := hinv.2.2 t record ⟨hr, hlive, quiet_settled hquiet t⟩
  simp only [State.quiet, Bool.and_eq_true, Option.isNone_iff_eq_none, List.isEmpty_iff] at hquiet
  obtain hlives | hpromises := tends_iff.mp htends
  · exact lives_iff.mp hlives
  -- nothing is promised in a quiet state
  obtain hin | ⟨call, hcall, -⟩ := promises_iff.mp hpromises
  · rw [hquiet.1.1.2] at hin
    cases hin
  · rw [hquiet.1.1.1] at hcall
    cases hcall

/-- A task that runs on a node which is only suspected. -/
theorem live_record_has_lifetime_suspect : ∃ state,
    (Run.stateAfter step [.registerNode (Sample.node 1) 0, Sample.reserve 1,
      .submitPublish (Sample.task 1), .submitDispatched (Sample.task 1) .OK,
      .updateLiveness 1000000 1 2] .initial).registry.stateOf Sample.nodeId = some (1, state) ∧
    state ≠ .dead :=
  live_record_has_lifetime (by decide) (Run.run_stateAfter (by decide)) (by decide)
    (Sample.task 1) (ControlPlane.newRecord (Sample.task 1) (Sample.execution 1) (Sample.node 1)
      Sample.submission) (by decide) rfl

/-- A worker that restarts before its old lifetime is declared dead leaves its task running
under a lifetime that no announcement will ever name. -/
theorem restart_leaves_orphan : ¬ ∀ (as : List Action) (s : State),
    Run.run step as .initial = some s → s.quiet = true → ∀ t record, s.record t = some record →
    isTerminal record.state = false → ∃ state,
      s.registry.stateOf record.nodeId = some (record.nodeIncarnation, state) ∧
      state ≠ .dead := by
  intro h
  obtain ⟨state, hstate, -⟩ := h [.registerNode (Sample.node 1) 0, Sample.reserve 1,
    .submitPublish (Sample.task 1), .submitDispatched (Sample.task 1) .OK,
    .registerNode (Sample.node 2) 1] _ (Run.run_stateAfter (by decide)) (by decide)
    (Sample.task 1) (ControlPlane.newRecord (Sample.task 1) (Sample.execution 1) (Sample.node 1)
      Sample.submission) (by decide) rfl
  cases state <;> exact absurd hstate (by decide)

end ControlSystem

end AgentRuntime
