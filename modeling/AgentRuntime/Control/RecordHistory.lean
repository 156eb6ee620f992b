import AgentRuntime.Control.TaskSteps

/-!
# The history of a task record

The only step that can end a terminal record is the rollback of `SubmitTask`,
which erases whatever it finds.
-/
namespace AgentRuntime

namespace ControlSystem

variable {s u : State}

/-- The rollback of `SubmitTask` is right that the worker never accepted the task, as far as
the table knows: no outcome has been committed to the record it erases. -/
def rollbackFindsLive (s : State) : Action → Bool
  | .submitErase t => (s.record t).all fun record => !isTerminal record.state
  | _ => true

theorem rollbackFindsLive_erase {t : TaskID} (h : rollbackFindsLive s (.submitErase t) = true)
    {record : DistributedTaskRecord} (hr : s.record t = some record) :
    isTerminal record.state = false := by
  simpa [rollbackFindsLive, hr] using h

/-- One step keeps a terminal record, all of it. -/
theorem step_keeps_terminal {a : Action} (h : step s a = some u)
    (hC : rollbackFindsLive s a = true) {t : TaskID} {record : DistributedTaskRecord}
    (hr : s.record t = some record) (hterm : isTerminal record.state = true) :
    u.record t = some record := by
  have hkeep : u.record t = s.record t → u.record t = some record := fun he => he.trans hr
  have hdead : ∀ old : DistributedTaskRecord, s.record t = some old →
      isTerminal old.state = false → u.record t = some record := by
    intro old hold hlive
    rw [hr] at hold
    cases hold
    rw [hlive] at hterm
    cases hterm
  cases step_task h t with
  | other _ hrecord => exact hkeep hrecord
  | refused _ _ _ hrecord => exact hkeep hrecord
  | reserved _ _ _ hrecord => exact hkeep hrecord
  | published call _ _ _ hrecord => exact hkeep (hrecord.trans (if_neg (by simp [hr])))
  | delivered _ _ _ _ _ _ hrecord => exact hkeep hrecord
  | undelivered _ _ _ _ hrecord => exact hkeep hrecord
  | erased _ _ ha =>
    subst ha
    exact hdead record hr (rollbackFindsLive_erase hC hr)
  | rolledBack _ _ _ _ _ hrecord => exact hkeep hrecord
  | requested old _ _ hold hlive => exact hdead old hold hlive
  | ended old _ _ hold hlive => exact hdead old hold hlive

/-- From any state on, a terminal record is what `GetTaskRecord` returns ever after, in every
run whose rollbacks erase no terminal record. -/
theorem terminal_record_permanent {as : List Action}
    (hC : Run.Along step (fun s a => rollbackFindsLive s a = true) as s)
    (hrun : Run.run step as s = some u) {t : TaskID} {record : DistributedTaskRecord}
    (hr : s.plane.getTaskRecord true t = (.OK, some record))
    (hterm : isTerminal record.state = true) :
    u.plane.getTaskRecord true t = (.OK, some record) := by
  have hget : ∀ v : State, v.plane.getTaskRecord true t = (.OK, some record) ↔
      v.record t = some record := by
    intro v
    simp only [ControlPlane.getTaskRecord, State.record]
    cases v.plane.tasks.lookup t <;> simp
  rw [hget] at hr ⊢
  exact Run.invariant (I := fun v => v.record t = some record)
    (fun v a w hv ha hw => step_keeps_terminal hw ha hv hterm) hC hrun hr

/-- The record of a task whose outcome arrived while the launch was still being redelivered. -/
def succeededRecord : DistributedTaskRecord :=
  { ControlPlane.newRecord (Sample.task 1) (Sample.execution 1) (Sample.node 1)
      Sample.submission with state := .succeeded }

/-- The outcome stays when the late reply to the launch arrives after all. -/
theorem terminal_record_permanent_accepted :
    (Run.stateAfter step [.submitDispatched (Sample.task 1) .OK, Sample.reserve 2]
      (Run.stateAfter step [.registerNode (Sample.node 1) 0, Sample.reserve 1,
        .submitPublish (Sample.task 1), Sample.succeed 1] .initial)).plane.getTaskRecord true
        (Sample.task 1) = (.OK, some succeededRecord) :=
  terminal_record_permanent (by decide) (Run.run_stateAfter (by decide)) (by decide) (by decide)

/-- The outcome is erased when every reply to the launch was lost. -/
theorem terminal_record_erased : ¬ ∀ (as bs : List Action) (s u : State) (t : TaskID)
    (record : DistributedTaskRecord), Run.run step as .initial = some s →
    Run.run step bs s = some u → s.plane.getTaskRecord true t = (.OK, some record) →
    isTerminal record.state = true → u.plane.getTaskRecord true t = (.OK, some record) := by
  intro h
  have hlost := h
    [.registerNode (Sample.node 1) 0, Sample.reserve 1, .submitPublish (Sample.task 1),
      Sample.succeed 1]
    [.submitDispatched (Sample.task 1) Sample.lost, .submitErase (Sample.task 1)]
    _ _ (Sample.task 1) succeededRecord (Run.run_stateAfter (by decide))
    (Run.run_stateAfter (by decide)) (by decide) (by decide)
  exact absurd hlost (by decide)

end ControlSystem

end AgentRuntime
