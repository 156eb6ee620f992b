import AgentRuntime.Control.ControlSystem

/-!
# What one step does to one task and to the pools

Every action of the system is inverted here once, twice over: for a single
task (its call, its record and whether its reservation is given back) and for
the pools of the registered lifetimes. The invariants of the control plane are
case analyses on these two.
-/
namespace AgentRuntime

namespace ControlSystem

/-- A call of `NodeRegistry::Release` and the task it is made for. -/
structure ReleaseCall where
  taskId : TaskID
  /-- The lifetime the task was reserved from; `Release` itself receives only its NodeID. -/
  nodeId : NodeID
  incarnation : Nat
  resources : ResourceRequest

def ReleaseCall.ofRecord (t : TaskID) (record : DistributedTaskRecord) : ReleaseCall :=
  ⟨t, record.nodeId, record.nodeIncarnation, record.resources⟩

/-- The release that a step makes, whether it succeeds or not. -/
def releaseCall (s : State) : Action → Option ReleaseCall
  | .submitRelease t =>
    match s.phase t with
    | .erased call _ =>
      some ⟨t, call.node.nodeId, call.node.incarnation, call.submission.resources⟩
    | _ => none
  | .report t executionId state _ _ _ =>
    if isTerminal state then
      (s.record t).bind fun record =>
        if record.executionId = executionId ∧ isTerminal record.state = false then
          some (.ofRecord t record)
        else none
    else none
  | .deadNext =>
    s.handling.bind fun call =>
      call.remaining.head?.bind fun t =>
        (s.record t).bind fun record =>
          if ControlPlane.failsWithNode call.nodeId call.incarnation record then
            some (.ofRecord t record)
          else none
  | _ => none

/-- The node that a step reserves from. -/
def reservedNode (s : State) : Action → Option NodeRecord
  | .submitReserve _ _ _ submission => (s.registry.reserveFirstFit submission.resources).2.1
  | _ => none

/-- The task whose reservation a step gives back, if its release succeeds. -/
def givenBack (s : State) (a : Action) : List TaskID :=
  match releaseCall s a with
  | some r => if (s.registry.release r.nodeId r.resources).1.ok then [r.taskId] else []
  | none => []

variable {s u : State}

theorem givenBack_of_none {a : Action} (h : releaseCall s a = none) : givenBack s a = [] := by
  simp [givenBack, h]

theorem givenBack_of_refused {a : Action} {r : ReleaseCall} (h : releaseCall s a = some r)
    (hno : (s.registry.release r.nodeId r.resources).1.ok = false) : givenBack s a = [] := by
  simp [givenBack, h, hno]

theorem givenBack_of_ok {a : Action} {r : ReleaseCall} (h : releaseCall s a = some r)
    (hok : (s.registry.release r.nodeId r.resources).1.ok = true) :
    givenBack s a = [r.taskId] := by
  simp [givenBack, h, hok]

/-- Two records of one task, placed on one node lifetime with one reservation. -/
structure SameTask (old new : DistributedTaskRecord) : Prop where
  taskId : new.taskId = old.taskId
  executionId : new.executionId = old.executionId
  nodeId : new.nodeId = old.nodeId
  nodeIncarnation : new.nodeIncarnation = old.nodeIncarnation
  resources : new.resources = old.resources

theorem SameTask.refl (r : DistributedTaskRecord) : SameTask r r := by constructor <;> rfl

theorem SameTask.trans {r₁ r₂ r₃ : DistributedTaskRecord} (h : SameTask r₁ r₂)
    (h' : SameTask r₂ r₃) : SameTask r₁ r₃ where
  taskId := h'.taskId.trans h.taskId
  executionId := h'.executionId.trans h.executionId
  nodeId := h'.nodeId.trans h.nodeId
  nodeIncarnation := h'.nodeIncarnation.trans h.nodeIncarnation
  resources := h'.resources.trans h.resources

/-! ## One task -/

/-- The record that `SubmitTask` publishes. -/
def SubmitCall.record (call : SubmitCall) (t : TaskID) : DistributedTaskRecord :=
  ControlPlane.newRecord t call.executionId call.node call.submission

/-- What one step does to the call, the record and the reservation of one task. -/
inductive TaskStep (s u : State) (a : Action) (t : TaskID) : Prop where
  | other (hphase : u.phase t = s.phase t) (hrecord : u.record t = s.record t)
      (hgiven : t ∉ givenBack s a)
  | refused (status : Status) (hphase : s.phase t = .unused) (hphase' : u.phase t = .refused status)
      (hrecord : u.record t = s.record t) (hgiven : givenBack s a = [])
  | reserved (call : SubmitCall) (hphase : s.phase t = .unused)
      (hphase' : u.phase t = .reserved call) (hrecord : u.record t = s.record t)
      (hgiven : givenBack s a = [])
      (ha : ∃ hasOut, a = .submitReserve t call.executionId hasOut call.submission)
  | published (call : SubmitCall) (hfree : s.handling = none) (hphase : s.phase t = .reserved call)
      (hphase' : u.phase t = .published call)
      (hrecord : u.record t =
        if s.record t = none then some (call.record t) else s.record t)
      (hgiven : givenBack s a = [])
  | delivered (call : SubmitCall) (status : Status) (ha : a = .submitDispatched t status)
      (hok : status.ok = true) (hphase : s.phase t = .published call)
      (hphase' : u.phase t = .accepted call) (hrecord : u.record t = s.record t)
      (hgiven : givenBack s a = [])
  | undelivered (call : SubmitCall) (status : Status) (hphase : s.phase t = .published call)
      (hphase' : u.phase t = .undelivered call status) (hrecord : u.record t = s.record t)
      (hgiven : givenBack s a = []) (ha : a = .submitDispatched t status)
      (hno : status.ok = false)
  | erased (call : SubmitCall) (status : Status) (ha : a = .submitErase t)
      (hphase : s.phase t = .undelivered call status) (hphase' : u.phase t = .erased call status)
      (hrecord : u.record t = none) (hgiven : givenBack s a = [])
  | rolledBack (call : SubmitCall) (status status' : Status) (hphase : s.phase t = .erased call status)
      (hphase' : u.phase t = .rolledBack call status') (hrecord : u.record t = s.record t)
      (hgiven : givenBack s a =
        if (s.registry.release call.node.nodeId call.submission.resources).1.ok then [t] else [])
  | requested (old new : DistributedTaskRecord) (hphase : u.phase t = s.phase t)
      (hold : s.record t = some old) (hlive : isTerminal old.state = false)
      (hnew : u.record t = some new) (hlive' : isTerminal new.state = false)
      (hsame : SameTask old new) (hgiven : givenBack s a = [])
      (hstate : new.state = .cancelRequested)
  | ended (old new : DistributedTaskRecord) (hphase : u.phase t = s.phase t)
      (hold : s.record t = some old) (hlive : isTerminal old.state = false)
      (hnew : u.record t = some new) (hterm : isTerminal new.state = true)
      (hsame : SameTask old new) (hgiven : givenBack s a = [t])

/-- A step that leaves the task table and the calls alone. -/
theorem TaskStep.quiet {a : Action} (hphase : u.phase = s.phase) (hrecord : u.record = s.record)
    (hgiven : givenBack s a = []) (t : TaskID) : TaskStep s u a t :=
  .other (by rw [hphase]) (by rw [hrecord]) (by simp [hgiven])

theorem record_of_insert {t : TaskID} {new : DistributedTaskRecord}
    (hu : u.plane.tasks = s.plane.tasks.insert t new) (t' : TaskID) :
    u.record t' = if t' = t then some new else s.record t' := by
  simp only [State.record, hu, UnorderedMap.lookup_insert_eq]

/-- A live record is terminated and its reservation given back. -/
theorem TaskStep.end_of_release {a : Action} {t : TaskID} {old : DistributedTaskRecord}
    (new : DistributedTaskRecord) (hu : u.plane.tasks = s.plane.tasks.insert t new)
    (hphase : u.phase = s.phase)
    (hold : s.record t = some old) (hlive : isTerminal old.state = false)
    (hterm : isTerminal new.state = true) (hsame : SameTask old new)
    (hcall : releaseCall s a = some (.ofRecord t old))
    (hok : (s.registry.release old.nodeId old.resources).1.ok = true) (t' : TaskID) :
    TaskStep s u a t' := by
  have hgiven : givenBack s a = [t] := givenBack_of_ok hcall hok
  have hrec := record_of_insert hu t'
  by_cases ht : t' = t
  · subst ht
    exact .ended old new (by rw [hphase]) hold hlive (hrec.trans (if_pos rfl)) hterm hsame hgiven
  · exact .other (by rw [hphase]) (hrec.trans (if_neg ht)) (by simp [hgiven, ht])

theorem releaseCall_report {t : TaskID} {e : ExecutionID} {state : DistributedTaskState}
    {terminalStatus : Status} {result : ByteString} {media : String}
    {record : DistributedTaskRecord} (hrec : s.record t = some record)
    (hexec : record.executionId = e) (hlive : isTerminal record.state = false)
    (hterm : isTerminal state = true) :
    releaseCall s (.report t e state terminalStatus result media) = some (.ofRecord t record) := by
  simp [releaseCall, hterm, hrec, hexec, hlive]

theorem releaseCall_deadNext {call : DeadCall} {t : TaskID} {rest : List TaskID}
    {record : DistributedTaskRecord} (hcall : s.handling = some call)
    (hrem : call.remaining = t :: rest) (hrec : s.record t = some record)
    (hf : ControlPlane.failsWithNode call.nodeId call.incarnation record) :
    releaseCall s .deadNext = some (.ofRecord t record) := by
  simp [releaseCall, hcall, hrem, hrec, hf]

/-- A release that is refused gives nothing back. -/
theorem givenBack_report_refused {t : TaskID} {e : ExecutionID} {state : DistributedTaskState}
    {terminalStatus : Status} {result : ByteString} {media : String}
    (h : ∀ record, s.record t = some record → record.executionId = e →
      isTerminal record.state = false → isTerminal state = true →
      (s.registry.release record.nodeId record.resources).1.ok = false) :
    givenBack s (.report t e state terminalStatus result media) = [] := by
  cases hterm : isTerminal state with
  | false => exact givenBack_of_none (by simp [releaseCall, hterm])
  | true =>
    cases hrec : s.record t with
    | none => exact givenBack_of_none (by simp [releaseCall, hrec])
    | some record =>
      by_cases hlive : record.executionId = e ∧ isTerminal record.state = false
      · exact givenBack_of_refused (releaseCall_report hrec hlive.1 hlive.2 hterm)
          (h record hrec hlive.1 hlive.2 hterm)
      · exact givenBack_of_none (by simp [releaseCall, hrec, hlive])

theorem givenBack_deadNext_refused {call : DeadCall} (hcall : s.handling = some call)
    (h : ∀ t rest record, call.remaining = t :: rest → s.record t = some record →
      ControlPlane.failsWithNode call.nodeId call.incarnation record →
      (s.registry.release record.nodeId record.resources).1.ok = false) :
    givenBack s .deadNext = [] := by
  cases hrem : call.remaining with
  | nil => exact givenBack_of_none (by simp [releaseCall, hcall, hrem])
  | cons t rest =>
    cases hrec : s.record t with
    | none => exact givenBack_of_none (by simp [releaseCall, hcall, hrem, hrec])
    | some record =>
      by_cases hf : ControlPlane.failsWithNode call.nodeId call.incarnation record
      · exact givenBack_of_refused (releaseCall_deadNext hcall hrem hrec hf)
          (h t rest record hrem hrec hf)
      · exact givenBack_of_none (by simp [releaseCall, hcall, hrem, hrec, hf])

theorem step_task {a : Action} (h : step s a = some u) (t : TaskID) : TaskStep s u a t := by
  cases a with
  | registerNode node now => cases h; refine .quiet ?_ ?_ ?_ t <;> rfl
  | heartbeat nodeId incarnation reported running now => cases h; refine .quiet ?_ ?_ ?_ t <;> rfl
  | updateLiveness now suspectTimeout deadTimeout => cases h; refine .quiet ?_ ?_ ?_ t <;> rfl
  | removeNode nodeId incarnation => cases h; refine .quiet ?_ ?_ ?_ t <;> rfl
  | submitReserve t' e hasOut submission =>
    obtain ⟨hphase, ⟨status, rfl⟩ | ⟨id, stored, -, -, -, -, rfl⟩⟩ := step_submitReserve h
    · by_cases ht : t = t'
      · subst ht
        exact .refused status hphase (by simp) rfl rfl
      · exact .other (by simp [ht]) rfl (by simp [givenBack, releaseCall])
    · by_cases ht : t = t'
      · subst ht
        exact .reserved _ hphase (by simp; rfl) rfl rfl ⟨hasOut, rfl⟩
      · exact .other (by simp [ht]) rfl (by simp [givenBack, releaseCall])
  | submitPublish t' =>
    obtain ⟨call, hfree, hphase, rfl⟩ := step_submitPublish h
    have hrec := s.plane.lookup_publish (call.record t') t
    by_cases ht : t = t'
    · subst ht
      refine .published call hfree hphase (by simp) (hrec.trans ?_) rfl
      have hkey : (call.record t).taskId = t := rfl
      cases hl : s.plane.tasks.lookup t <;> simp [hkey, hl, State.record]
    · exact .other (by simp [ht]) (hrec.trans (if_neg fun hn => ht hn.1))
        (by simp [givenBack, releaseCall])
  | submitDispatched t' status =>
    obtain ⟨call, hphase, rfl⟩ := step_submitDispatched h
    by_cases ht : t = t'
    · subst ht
      cases hs : status.ok with
      | true => exact .delivered call status rfl hs hphase (by simp) rfl rfl
      | false => exact .undelivered call status hphase (by simp) rfl rfl rfl hs
    · exact .other (by simp [ht]) rfl (by simp [givenBack, releaseCall])
  | submitErase t' =>
    obtain ⟨call, status, -, hphase, rfl⟩ := step_submitErase h
    have hrec := s.plane.lookup_eraseRecord t' t
    by_cases ht : t = t'
    · subst ht
      exact .erased call status rfl hphase (by simp) (hrec.trans (if_pos rfl)) rfl
    · exact .other (by simp [ht]) (hrec.trans (if_neg ht))
        (by simp [givenBack, releaseCall])
  | submitRelease t' =>
    obtain ⟨call, status, hphase, rfl⟩ := step_submitRelease h
    have hgiven : givenBack s (.submitRelease t') =
        if (s.registry.release call.node.nodeId call.submission.resources).1.ok then [t'] else [] := by
      simp [givenBack, releaseCall, hphase]
    by_cases ht : t = t'
    · subst ht
      exact .rolledBack call status _ hphase (by simp; rfl) rfl hgiven
    · refine .other (by simp [ht]) rfl ?_
      rw [hgiven]
      split <;> simp [ht]
  | cancelSnapshot k t' =>
    obtain ⟨phase, rfl⟩ := step_cancelSnapshot h
    refine .quiet ?_ ?_ ?_ t <;> rfl
  | cancelLocate k =>
    obtain ⟨phase, rfl⟩ := step_cancelLocate h
    refine .quiet ?_ ?_ ?_ t <;> rfl
  | cancelDelivered k status =>
    obtain ⟨phase, rfl⟩ := step_cancelDelivered h
    refine .quiet ?_ ?_ ?_ t <;> rfl
  | cancelPublish k =>
    obtain ⟨phase, rfl | ⟨t', current, -, hcur, hlive, rfl⟩⟩ := step_cancelPublish h
    · refine .quiet ?_ ?_ ?_ t <;> rfl
    · have hrec := record_of_insert (s := s) (u := (s.setPlane { s.plane with
          tasks := s.plane.tasks.insert t' { current with
            state := .cancelRequested } }).setCancel k phase) rfl t
      by_cases ht : t = t'
      · subst ht
        exact .requested current _ rfl hcur hlive (hrec.trans (if_pos rfl)) rfl
          (by constructor <;> rfl) rfl rfl
      · exact .other rfl (hrec.trans (if_neg ht)) (by simp [givenBack, releaseCall])
  | report t' e state terminalStatus result media =>
    obtain ⟨-, ⟨rfl, hno⟩ | ⟨record, hrec, hexec, hlive, hterm, hok, rfl⟩⟩ := step_report h
    · exact .quiet rfl rfl (givenBack_report_refused hno) t
    · refine .end_of_release { record with
        state := state, terminalStatus := terminalStatus, result := result,
        resultMediaType := media } ?_ ?_ hrec hlive hterm ?_
        (releaseCall_report hrec hexec hlive hterm) hok t
      · rfl
      · rfl
      · constructor <;> rfl
  | deadBegin nodeId incarnation order =>
    obtain ⟨-, -, rfl⟩ := step_deadBegin h
    refine .quiet ?_ ?_ ?_ t <;> rfl
  | deadNext =>
    obtain ⟨call, hcall, ⟨hnil, rfl⟩ | ⟨t', rest, hrem, hcase⟩⟩ := step_deadNext h
    · have hgiven : givenBack s .deadNext = [] := by
        refine givenBack_deadNext_refused hcall ?_
        intro t' rest record hcons
        rw [hnil] at hcons
        cases hcons
      refine .quiet ?_ ?_ hgiven t <;> rfl
    obtain ⟨hskip, rfl⟩ | ⟨⟨record, hrec, -, hno⟩, rfl⟩ | ⟨record, hrec, hf, hok, rfl⟩ := hcase
    · have hgiven : givenBack s .deadNext = [] := by
        refine givenBack_deadNext_refused hcall ?_
        intro t₁ rest₁ record hcons hrec hf
        rw [hrem] at hcons
        cases hcons
        exact absurd hf (hskip record hrec)
      refine .quiet ?_ ?_ hgiven t <;> rfl
    · have hgiven : givenBack s .deadNext = [] := by
        refine givenBack_deadNext_refused hcall ?_
        intro t₁ rest₁ record₁ hcons hrec₁ _
        rw [hrem] at hcons
        cases hcons
        rw [hrec] at hrec₁
        cases hrec₁
        exact hno
      refine .quiet ?_ ?_ hgiven t <;> rfl
    · refine .end_of_release (ControlPlane.failedByNode record) ?_ ?_ hrec hf.2 rfl ?_
        (releaseCall_deadNext hcall hrem hrec hf) hok t
      · rfl
      · rfl
      · constructor <;> rfl

/-- A record in the table is the one its call published, with its identities unchanged. -/
def Recorded (s : State) : Prop :=
  ∀ t record, s.record t = some record → ∃ call, SameTask (call.record t) record ∧
    (s.phase t = .published call ∨ (∃ status, s.phase t = .undelivered call status) ∨
      s.phase t = .accepted call)

theorem recorded_initial : Recorded .initial := by
  intro t record h
  cases h

/-- A call that has nothing published has no record. -/
theorem Recorded.none {t : TaskID} (h : Recorded s) (hp : ∀ call, s.phase t ≠ .published call)
    (hu : ∀ call status, s.phase t ≠ .undelivered call status)
    (ha : ∀ call, s.phase t ≠ .accepted call) : s.record t = none := by
  cases hr : s.record t with
  | none => rfl
  | some record =>
    obtain ⟨call, -, hphase | ⟨status, hphase⟩ | hphase⟩ := h t record hr
    · exact absurd hphase (hp call)
    · exact absurd hphase (hu call status)
    · exact absurd hphase (ha call)

theorem Recorded.step {a : Action} (h : Recorded s) (hstep : step s a = some u) : Recorded u := by
  intro t record hr
  cases step_task hstep t with
  | other hphase hrecord hgiven =>
    rw [hrecord] at hr
    rw [hphase]
    exact h t record hr
  | refused status hphase hphase' hrecord hgiven =>
    rw [hrecord, h.none (by simp [hphase]) (by simp [hphase]) (by simp [hphase])] at hr
    cases hr
  | reserved call hphase hphase' hrecord hgiven =>
    rw [hrecord, h.none (by simp [hphase]) (by simp [hphase]) (by simp [hphase])] at hr
    cases hr
  | published call hfree hphase hphase' hrecord hgiven =>
    have hold := h.none (t := t) (by simp [hphase]) (by simp [hphase]) (by simp [hphase])
    rw [hrecord, if_pos hold] at hr
    cases hr
    exact ⟨call, .refl _, .inl hphase'⟩
  | delivered call status ha hok hphase hphase' hrecord hgiven =>
    rw [hrecord] at hr
    obtain ⟨call', hsame, hp | ⟨status, hp⟩ | hp⟩ := h t record hr
    · rw [hphase] at hp
      cases hp
      exact ⟨call, hsame, .inr (.inr hphase')⟩
    · rw [hphase] at hp
      cases hp
    · rw [hphase] at hp
      cases hp
  | undelivered call status hphase hphase' hrecord hgiven =>
    rw [hrecord] at hr
    obtain ⟨call', hsame, hp | ⟨status', hp⟩ | hp⟩ := h t record hr
    · rw [hphase] at hp
      cases hp
      exact ⟨call, hsame, .inr (.inl ⟨status, hphase'⟩)⟩
    · rw [hphase] at hp
      cases hp
    · rw [hphase] at hp
      cases hp
  | erased call status ha hphase hphase' hrecord hgiven =>
    rw [hrecord] at hr
    cases hr
  | rolledBack call status status' hphase hphase' hrecord hgiven =>
    rw [hrecord, h.none (by simp [hphase]) (by simp [hphase]) (by simp [hphase])] at hr
    cases hr
  | requested old new hphase hold hlive hnew hlive' hsame hgiven =>
    rw [hnew] at hr
    cases hr
    obtain ⟨call, hsame', hp⟩ := h t old hold
    rw [hphase]
    exact ⟨call, hsame'.trans hsame, hp⟩
  | ended old new hphase hold hlive hnew hterm hsame hgiven =>
    rw [hnew] at hr
    cases hr
    obtain ⟨call, hsame', hp⟩ := h t old hold
    rw [hphase]
    exact ⟨call, hsame'.trans hsame, hp⟩

/-! ## The calls -/

/-- The submission of a task, once a node has been reserved for it. -/
def State.callOf (s : State) (t : TaskID) : Option SubmitCall := (s.phase t).call?

/-- The call of a `SubmitTask` that returns an error, or will, after it has sent its task. -/
def SubmitPhase.failed? : SubmitPhase → Option SubmitCall
  | .undelivered call _ | .erased call _ | .rolledBack call _ => some call
  | .unused | .refused _ | .reserved _ | .published _ | .accepted _ => none

theorem SubmitPhase.call?_of_failed {phase : SubmitPhase} {call : SubmitCall}
    (h : phase.failed? = some call) : phase.call? = some call := by
  cases phase <;> first | exact h | cases h

/-- A call keeps its locals. -/
theorem TaskStep.callOf_keep {a : Action} {t : TaskID} (h : TaskStep s u a t) {call : SubmitCall}
    (hcall : s.callOf t = some call) : u.callOf t = some call := by
  simp only [State.callOf] at hcall ⊢
  cases h with
  | other hphase | requested _ _ hphase | ended _ _ hphase => rwa [hphase]
  | refused _ hphase | reserved _ hphase =>
    rw [hphase] at hcall
    cases hcall
  | published _ _ hphase hphase' | delivered _ _ _ _ hphase hphase'
  | undelivered _ _ hphase hphase' | erased _ _ _ hphase hphase' | rolledBack _ _ _ hphase hphase' =>
    rw [hphase] at hcall
    rw [hphase']
    exact hcall

/-- A call gets its locals when it reserves a node. -/
theorem TaskStep.callOf_before {a : Action} {t : TaskID} (h : TaskStep s u a t) {call : SubmitCall}
    (hcall : u.callOf t = some call) : s.callOf t = some call ∨ s.phase t = .unused ∧
      ∃ hasOut, a = .submitReserve t call.executionId hasOut call.submission := by
  simp only [State.callOf] at hcall ⊢
  cases h with
  | other hphase | requested _ _ hphase | ended _ _ hphase =>
    rw [hphase] at hcall
    exact .inl hcall
  | refused _ _ hphase' =>
    rw [hphase'] at hcall
    cases hcall
  | reserved call' hphase hphase' _ _ ha =>
    rw [hphase'] at hcall
    cases hcall
    exact .inr ⟨hphase, ha⟩
  | published _ _ hphase hphase' | delivered _ _ _ _ hphase hphase'
  | undelivered _ _ hphase hphase' | erased _ _ _ hphase hphase' | rolledBack _ _ _ hphase hphase' =>
    rw [hphase'] at hcall
    rw [hphase]
    exact .inl hcall

/-- A call comes to fail when `DispatchTask` returns an error to it. -/
theorem TaskStep.failed_before {a : Action} {t : TaskID} (h : TaskStep s u a t) {call : SubmitCall}
    (hcall : (u.phase t).failed? = some call) : (s.phase t).failed? = some call ∨
      s.phase t = .published call ∧ ∃ status, a = .submitDispatched t status ∧
        status.ok = false := by
  cases h with
  | other hphase | requested _ _ hphase | ended _ _ hphase =>
    rw [hphase] at hcall
    exact .inl hcall
  | refused _ _ hphase' | reserved _ _ hphase' | published _ _ _ hphase'
  | delivered _ _ _ _ _ hphase' =>
    rw [hphase'] at hcall
    cases hcall
  | undelivered call' status hphase hphase' _ _ ha hno =>
    rw [hphase'] at hcall
    cases hcall
    exact .inr ⟨hphase, status, ha, hno⟩
  | erased _ _ _ hphase hphase' | rolledBack _ _ _ hphase hphase' =>
    rw [hphase'] at hcall
    rw [hphase]
    exact .inl hcall

/-- A call waits for `DispatchTask` until that returns. -/
theorem TaskStep.published_keep {a : Action} {t : TaskID} (h : TaskStep s u a t)
    {call : SubmitCall} (hcall : s.phase t = .published call)
    (ha : ∀ status, a ≠ .submitDispatched t status) : u.phase t = .published call := by
  cases h with
  | other hphase | requested _ _ hphase | ended _ _ hphase => rwa [hphase]
  | refused _ hphase | reserved _ hphase | published _ _ hphase | erased _ _ _ hphase
  | rolledBack _ _ _ hphase =>
    rw [hphase] at hcall
    cases hcall
  | delivered _ status ha' => exact absurd ha' (ha status)
  | undelivered _ status _ _ _ _ ha' => exact absurd ha' (ha status)

/-! ## The pools -/

theorem setSubmit_callOf {t t' : TaskID} {phase : SubmitPhase} (h : phase.call? = s.callOf t) :
    (s.setSubmit t phase).callOf t' = s.callOf t' := by
  simp only [State.callOf, State.setSubmit_phase]
  split
  · rename_i he
    rw [he, h, State.callOf]
  · rfl

/-- What one step does to the pools of the registered lifetimes, and which reservations it
makes and gives back. -/
inductive PoolStep (s u : State) (a : Action) : Prop where
  | same (hcalls : u.callOf = s.callOf) (hgiven : givenBack s a = [])
      (h : u.registry.poolOf = s.registry.poolOf)
  | registered (node : NodeRecord) (now : Int) (ha : a = .registerNode node now)
      (hcalls : u.callOf = s.callOf) (hgiven : givenBack s a = [])
      (hstarts : s.registry.startsLifetime node)
      (h : ∀ id, u.registry.poolOf id =
        if id = node.nodeId then some (node.incarnation, .new node.reportedAvailable)
        else s.registry.poolOf id)
  | removed (nodeId : NodeID) (incarnation : Nat) (ha : a = .removeNode nodeId incarnation)
      (hcalls : u.callOf = s.callOf) (hgiven : givenBack s a = [])
      (hold : s.registry.lifetimeOf nodeId = some incarnation)
      (h : ∀ id, u.registry.poolOf id = if id = nodeId then none else s.registry.poolOf id)
  | reserved (t : TaskID) (call : SubmitCall) (pool : ResourcePool)
      (ha : releaseCall s a = none) (hres : reservedNode s a = some call.node)
      (hnone : s.callOf t = none)
      (hcalls : ∀ t', u.callOf t' = if t' = t then some call else s.callOf t')
      (hpool : s.registry.poolOf call.node.nodeId = some (call.node.incarnation, pool))
      (hfit : pool.canFit call.submission.resources = true)
      (h : ∀ id, u.registry.poolOf id =
        if id = call.node.nodeId then
          some (call.node.incarnation, (pool.acquire call.submission.resources).2)
        else s.registry.poolOf id)
  | released (r : ReleaseCall) (i : Nat) (pool : ResourcePool) (ha : releaseCall s a = some r)
      (hcalls : u.callOf = s.callOf) (hgiven : givenBack s a = [r.taskId])
      (hpool : s.registry.poolOf r.nodeId = some (i, pool))
      (hfit : pool.canRelease r.resources = true)
      (h : ∀ id, u.registry.poolOf id =
        if id = r.nodeId then some (i, (pool.release r.resources).2) else s.registry.poolOf id)

/-- A step that calls `Release` and does nothing else to the registry. -/
theorem PoolStep.of_release {a : Action} {r : ReleaseCall} (ha : releaseCall s a = some r)
    (hcalls : u.callOf = s.callOf)
    (hreg : u.registry = (s.registry.release r.nodeId r.resources).2) : PoolStep s u a := by
  obtain ⟨hno, he, -⟩ | ⟨stored, hl, hfit, he⟩ := s.registry.release_cases r.nodeId r.resources
  · refine .same hcalls (givenBack_of_refused ha hno) ?_
    rw [hreg, he]
  · refine .released r stored.record.incarnation stored.schedulablePool ha hcalls
      (givenBack_of_ok ha (by rw [he]; rfl)) (NodeRegistry.poolOf_of_lookup hl) hfit ?_
    intro id
    rw [hreg, he]
    exact s.registry.putPool_poolOf r.nodeId stored _ id

theorem step_pools {a : Action} (hwf : s.registry.WellFormed) (h : step s a = some u) :
    PoolStep s u a := by
  cases a with
  | registerNode node now =>
    cases h
    obtain he | ⟨hstarts, hpools⟩ := s.registry.registerNode_poolOf node now
    · refine .same rfl rfl ?_
      rw [he]
      rfl
    · exact .registered node now rfl rfl rfl hstarts hpools
  | heartbeat nodeId incarnation reported running now =>
    cases h
    refine .same rfl rfl ?_
    funext id
    exact s.registry.heartbeat_poolOf nodeId incarnation reported running now id
  | updateLiveness now suspectTimeout deadTimeout =>
    cases h
    refine .same rfl rfl ?_
    funext id
    exact s.registry.updateLiveness_poolOf now suspectTimeout deadTimeout id
  | removeNode nodeId incarnation =>
    cases h
    obtain he | ⟨hold, hpools⟩ := s.registry.removeNode_poolOf nodeId incarnation
    · refine .same rfl rfl ?_
      rw [he]
      rfl
    · exact .removed nodeId incarnation rfl rfl rfl hold hpools
  | submitReserve t e hasOut submission =>
    obtain ⟨hphase, ⟨status, rfl⟩ | ⟨id, stored, hl, -, hfit, hres, rfl⟩⟩ := step_submitReserve h
    · refine .same ?_ rfl rfl
      funext t'
      exact setSubmit_callOf (by simp [SubmitPhase.call?, State.callOf, hphase])
    · have hkey := (hwf.entries id stored hl).keyed
      refine .reserved t ⟨e, submission, (StoredNode.withPool stored
        (stored.schedulablePool.acquire submission.resources).2).record⟩ stored.schedulablePool
        rfl hres (by simp [State.callOf, hphase, SubmitPhase.call?]) ?_ ?_ hfit ?_
      · intro t'
        simp only [State.callOf, State.setSubmit_phase, State.setRegistry_phase]
        split <;> rfl
      · simpa [StoredNode.withPool, hkey] using NodeRegistry.poolOf_of_lookup hl
      · intro id'
        have hpool := s.registry.putPool_poolOf id stored
          (stored.schedulablePool.acquire submission.resources).2 id'
        simpa [StoredNode.withPool, hkey] using hpool
  | submitPublish t =>
    obtain ⟨call, -, hphase, rfl⟩ := step_submitPublish h
    refine .same ?_ rfl rfl
    funext t'
    exact setSubmit_callOf (by simp [SubmitPhase.call?, State.callOf, hphase])
  | submitDispatched t status =>
    obtain ⟨call, hphase, rfl⟩ := step_submitDispatched h
    refine .same ?_ rfl rfl
    funext t'
    apply setSubmit_callOf
    cases status.ok <;> simp [SubmitPhase.call?, State.callOf, hphase]
  | submitErase t =>
    obtain ⟨call, status, -, hphase, rfl⟩ := step_submitErase h
    refine .same ?_ rfl rfl
    funext t'
    exact setSubmit_callOf (by simp [SubmitPhase.call?, State.callOf, hphase])
  | submitRelease t =>
    obtain ⟨call, status, hphase, rfl⟩ := step_submitRelease h
    refine .of_release (r := ⟨t, call.node.nodeId, call.node.incarnation,
      call.submission.resources⟩) (by simp [releaseCall, hphase]) ?_ rfl
    funext t'
    exact setSubmit_callOf (by simp [SubmitPhase.call?, State.callOf, hphase])
  | cancelSnapshot k t =>
    obtain ⟨phase, rfl⟩ := step_cancelSnapshot h
    exact .same rfl rfl rfl
  | cancelLocate k =>
    obtain ⟨phase, rfl⟩ := step_cancelLocate h
    exact .same rfl rfl rfl
  | cancelDelivered k status =>
    obtain ⟨phase, rfl⟩ := step_cancelDelivered h
    exact .same rfl rfl rfl
  | cancelPublish k =>
    obtain ⟨phase, rfl | ⟨t, current, -, -, -, rfl⟩⟩ := step_cancelPublish h
    · exact .same rfl rfl rfl
    · exact .same rfl rfl rfl
  | report t e state terminalStatus result media =>
    obtain ⟨-, ⟨rfl, hno⟩ | ⟨record, hrec, hexec, hlive, hterm, -, rfl⟩⟩ := step_report h
    · exact .same rfl (givenBack_report_refused hno) rfl
    · exact .of_release (releaseCall_report hrec hexec hlive hterm) rfl rfl
  | deadBegin nodeId incarnation order =>
    obtain ⟨-, -, rfl⟩ := step_deadBegin h
    exact .same rfl rfl rfl
  | deadNext =>
    obtain ⟨call, hcall, ⟨hnil, rfl⟩ | ⟨t, rest, hrem, hcase⟩⟩ := step_deadNext h
    · exact .same rfl (givenBack_of_none (by simp [releaseCall, hcall, hnil])) rfl
    obtain ⟨hskip, rfl⟩ | ⟨⟨record, hrec, hf, hno⟩, rfl⟩ | ⟨record, hrec, hf, -, rfl⟩ := hcase
    · refine .same rfl (givenBack_of_none ?_) rfl
      cases hrec : s.record t with
      | none => simp [releaseCall, hcall, hrem, hrec]
      | some record => simp [releaseCall, hcall, hrem, hrec, hskip record hrec]
    · exact .same rfl (givenBack_of_refused (releaseCall_deadNext hcall hrem hrec hf) hno) rfl
    · exact .of_release (releaseCall_deadNext hcall hrem hrec hf) rfl rfl

/-- Every step keeps the registry well formed. -/
theorem step_wellFormed {a : Action} (hwf : s.registry.WellFormed) (h : step s a = some u) :
    u.registry.WellFormed := by
  cases a with
  | registerNode node now => cases h; exact hwf.registerNode node now
  | heartbeat nodeId incarnation reported running now =>
    cases h
    exact hwf.heartbeat nodeId incarnation reported running now
  | updateLiveness now suspectTimeout deadTimeout =>
    cases h
    exact hwf.updateLiveness now suspectTimeout deadTimeout
  | removeNode nodeId incarnation => cases h; exact hwf.removeNode nodeId incarnation
  | submitReserve t e hasOut submission =>
    obtain ⟨-, ⟨status, rfl⟩ | ⟨id, stored, hl, -, -, -, rfl⟩⟩ := step_submitReserve h
    · exact hwf
    · exact hwf.putPool hl _
  | submitPublish t =>
    obtain ⟨call, -, -, rfl⟩ := step_submitPublish h
    exact hwf
  | submitDispatched t status =>
    obtain ⟨call, -, rfl⟩ := step_submitDispatched h
    exact hwf
  | submitErase t =>
    obtain ⟨call, status, -, -, rfl⟩ := step_submitErase h
    exact hwf
  | submitRelease t =>
    obtain ⟨call, status, -, rfl⟩ := step_submitRelease h
    exact hwf.release _ _
  | cancelSnapshot k t =>
    obtain ⟨phase, rfl⟩ := step_cancelSnapshot h
    exact hwf
  | cancelLocate k =>
    obtain ⟨phase, rfl⟩ := step_cancelLocate h
    exact hwf
  | cancelDelivered k status =>
    obtain ⟨phase, rfl⟩ := step_cancelDelivered h
    exact hwf
  | cancelPublish k =>
    obtain ⟨phase, rfl | ⟨t, current, -, -, -, rfl⟩⟩ := step_cancelPublish h
    · exact hwf
    · exact hwf
  | report t e state terminalStatus result media =>
    obtain ⟨-, ⟨rfl, -⟩ | ⟨record, -, -, -, -, -, rfl⟩⟩ := step_report h
    · exact hwf
    · exact hwf.release _ _
  | deadBegin nodeId incarnation order =>
    obtain ⟨-, -, rfl⟩ := step_deadBegin h
    exact hwf
  | deadNext =>
    obtain ⟨call, -, ⟨-, rfl⟩ | ⟨t, rest, -, ⟨-, rfl⟩ | ⟨-, rfl⟩ | ⟨record, -, -, -, rfl⟩⟩⟩ :=
      step_deadNext h
    · exact hwf
    · exact hwf
    · exact hwf
    · exact hwf.release _ _

end ControlSystem

end AgentRuntime
