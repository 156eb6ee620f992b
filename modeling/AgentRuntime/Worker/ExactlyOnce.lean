import AgentRuntime.Worker.WorkerThread

/-!
# Every dispatched item is executed once

What the worker has accepted it has taken out, in order, but for the item in
its mailbox; what it has taken out it has carried through the execution step,
but for the item its thread has in hand. When a Shutdown enters its last
section neither is there, and nobody can put one there any more.
-/
namespace AgentRuntime

namespace WorkerSystem

variable {s t : WorkerSystem} {log more : List Event} {thread thread' : Thread} {work : WorkItem}

/-- What the execution step has done with the item that the thread has in hand. -/
inductive UnderWay : Thread → List Event → Prop
  | idle {thread : Thread} (empty : thread.item? = none) : UnderWay thread []
  | taken (work : WorkItem) : UnderWay (.taken work) []
  | marked (work : WorkItem) : UnderWay (.marked work) [.marked work true]
  | executing (work : WorkItem) (handler : work.handler.isSome = true) :
    UnderWay (.executing work) [.marked work true, .entered work]
  | empty (work : WorkItem) (handler : work.handler = none) :
    UnderWay (.finished work Executor.emptyHandler) [.marked work true]
  | finished (work : WorkItem) (handler : work.handler.isSome = true) (exit : HandlerExit) :
    UnderWay (.finished work (Executor.outcome exit))
      [.marked work true, .entered work, .left work exit]

/-- The item the thread has in hand. -/
def inHand (thread : Thread) : List WorkItem := (thread.item?.map Prod.fst).toList

/-- The items taken out have been carried through, in order and one at a time, but for the
one that the thread has in hand. -/
def Carries (log : List Event) (thread : Thread) : Prop :=
  ∃ (done : List Carried) (trace : List Event),
    takenOut log = done.map Carried.work ++ inHand thread ∧
    executions log = done.flatMap Carried.trace ++ trace ∧ UnderWay thread trace

theorem inHand_of_item? (h : thread.item? = none) : inHand thread = [] := by simp [inHand, h]

theorem UnderWay.eq_nil {trace : List Event} (h : UnderWay thread trace)
    (hitem : thread.item? = none) : trace = [] := by
  cases h with
  | idle => rfl
  | taken | marked | executing | empty | finished => cases hitem

/-- Events that are none of the execution step's, while the hands of the thread are empty. -/
theorem Carries.idle (h : Carries log thread) (hitem : thread.item? = none)
    (hitem' : thread'.item? = none) (htook : takenOut more = []) (hruns : executions more = []) :
    Carries (log ++ more) thread' := by
  obtain ⟨done, trace, htaken, hexecutions, hway⟩ := h
  obtain rfl := hway.eq_nil hitem
  refine ⟨done, [], ?_, ?_, .idle hitem'⟩
  · rw [takenOut_append, htaken, htook, inHand_of_item? hitem, inHand_of_item? hitem']
    simp
  · rw [executions_append, hexecutions, hruns, List.append_nil]

/-- The thread moves with empty hands. -/
theorem Carries.move (h : Carries log thread) (hitem : thread.item? = none)
    (hitem' : thread'.item? = none) : Carries log thread' := by
  rw [← List.append_nil log]
  exact h.idle hitem hitem' rfl rfl

/-- Events that are none of the execution step's, whatever the thread is doing. -/
theorem Carries.quiet (h : Carries log thread) (htook : takenOut more = [])
    (hruns : executions more = []) : Carries (log ++ more) thread := by
  obtain ⟨done, trace, htaken, hexecutions, hway⟩ := h
  refine ⟨done, trace, ?_, ?_, hway⟩
  · rw [takenOut_append, htaken, htook, List.append_nil]
  · rw [executions_append, hexecutions, hruns, List.append_nil]

theorem Carries.take (h : Carries log thread) (hitem : thread.item? = none) (work : WorkItem) :
    Carries (log ++ [.took work]) (.taken work) := by
  obtain ⟨done, trace, htaken, hexecutions, hway⟩ := h
  obtain rfl := hway.eq_nil hitem
  refine ⟨done, [], ?_, ?_, .taken work⟩
  · rw [takenOut_append, htaken, inHand_of_item? hitem]
    simp [takenOut, Event.took?, inHand, Thread.item?]
  · rw [executions_append, hexecutions]
    exact List.append_nil _

/-- The events of the execution step are none of the others. -/
theorem quiet_of_run (hruns : executions more = more) :
    accepted more = [] ∧ takenOut more = [] ∧ (∀ e ∈ more, ¬ e.opens) ∧ .returned ∉ more := by
  have hrun : ∀ e ∈ more, e.ofRun = true := List.filter_eq_self.mp hruns
  refine ⟨List.filterMap_eq_nil_iff.mpr ?_, List.filterMap_eq_nil_iff.mpr ?_, ?_, ?_⟩
  · intro e he
    cases e <;> first | rfl | cases hrun _ he
  · intro e he
    cases e <;> first | rfl | cases hrun _ he
  · rintro e he rfl
    cases hrun _ he
  · intro he
    cases hrun _ he

/-- The thread goes on with the item in hand. -/
theorem Carries.go (h : Carries log thread) (hitem : inHand thread' = inHand thread)
    (hruns : executions more = more)
    (hway : ∀ trace, UnderWay thread trace → UnderWay thread' (trace ++ more)) :
    Carries (log ++ more) thread' := by
  obtain ⟨done, trace, htaken, hexecutions, h⟩ := h
  refine ⟨done, trace ++ more, ?_, ?_, hway trace h⟩
  · rw [takenOut_append, htaken, (quiet_of_run hruns).2.1, hitem, List.append_nil]
  · rw [executions_append, hexecutions, hruns, List.append_assoc]

/-- The thread is done with the item in hand. -/
theorem Carries.finish (h : Carries log thread) (hitem : inHand thread = [work])
    (hitem' : thread'.item? = none) (hruns : executions more = more)
    (hdone : ∀ trace, UnderWay thread trace →
      ∃ carried : Carried, carried.work = work ∧ carried.trace = trace ++ more) :
    Carries (log ++ more) thread' := by
  obtain ⟨done, trace, htaken, hexecutions, hway⟩ := h
  obtain ⟨carried, hwork, htrace⟩ := hdone trace hway
  refine ⟨done ++ [carried], [], ?_, ?_, .idle hitem'⟩
  · rw [takenOut_append, htaken, (quiet_of_run hruns).2.1, hitem, inHand_of_item? hitem',
      List.map_append, List.map_singleton, hwork]
  · rw [executions_append, hexecutions, hruns, List.flatMap_append, List.flatMap_singleton, htrace]
    rw [List.append_nil, List.append_assoc]

/-- Events that neither accept an item nor take one out. -/
theorem taken_quiet {mailbox : List WorkItem} (h : accepted log = takenOut log ++ mailbox)
    (haccepted : accepted more = []) (htook : takenOut more = []) :
    accepted (log ++ more) = takenOut (log ++ more) ++ mailbox := by
  rw [accepted_append, takenOut_append, haccepted, htook, List.append_nil, List.append_nil, h]

/-- What has been accepted has been taken out and carried through, in order and once. -/
def Settled (log : List Event) : Prop :=
  ∃ done : List Carried, accepted log = done.map Carried.work ∧
    takenOut log = done.map Carried.work ∧ executions log = done.flatMap Carried.trace

theorem Carries.settled (h : Carries log thread) (hitem : thread.item? = none)
    (htaken : accepted log = takenOut log) : Settled log := by
  obtain ⟨done, trace, htook, hexecutions, hway⟩ := h
  obtain rfl := hway.eq_nil hitem
  rw [inHand_of_item? hitem, List.append_nil] at htook
  rw [List.append_nil] at hexecutions
  exact ⟨done, htaken.trans htook, htook, hexecutions⟩

/-- What was accepted before a Shutdown returned was settled before. -/
def SettledAtReturn (log : List Event) : Prop :=
  ∀ before after, log = before ++ .returned :: after → Settled before

theorem SettledAtReturn.append (h : SettledAtReturn log) (hno : .returned ∉ more) :
    SettledAtReturn (log ++ more) := by
  intro before after he
  obtain ⟨rest, hlog, -⟩ := Brackets.split_first he hno
  exact h before rest hlog

theorem SettledAtReturn.concat (h : SettledAtReturn log) (hsettled : Settled log) :
    SettledAtReturn (log ++ [.returned]) := by
  intro before after he
  cases after using List.reverseRecOn with
  | nil =>
    obtain ⟨rfl, -⟩ := List.append_inj' he rfl
    exact hsettled
  | append_singleton after e =>
    rw [← List.cons_append, ← List.append_assoc] at he
    obtain ⟨rfl, -⟩ := List.append_inj' he rfl
    exact h before after rfl

/-! ## The invariant -/

/-- The places in the loop of `Run`, whose idle callback is one step here. -/
def inLoop : Thread → Bool
  | .waiting | .taken _ | .marked _ | .executing _ | .finished _ _ | .reporting _ | .returning
  | .notifying => true
  | .off | .releasing _ | .waking | .announcing | .exited => false

theorem ne_of_inLoop (h : inLoop thread = true) : thread ≠ .off ∧ thread ≠ .exited := by
  constructor <;>
  · rintro rfl
    cases h

structure Inv (s : WorkerSystem) : Prop where
  worker : s.worker.WellFormed
  alternating : Brackets.Alternating Event.opens Event.closes s.log
  pending : Brackets.Pending Event.opens Event.closes s.log → s.worker.state = .reserved
  taken : accepted s.log = takenOut s.log ++ s.worker.mailbox.toList
  carried : Carries s.log s.worker.thread
  settled : SettledAtReturn s.log
  closing : s.shutdown ≠ .off → s.worker.started = true ∧ s.worker.stopping = true
  joined : s.shutdown = .resetting → s.worker.thread = .exited
  place : s.worker.thread = .off ∨ s.worker.thread = .exited ∨ inLoop s.worker.thread = true

theorem inv_initial (taskManager : TaskManager) : Inv (initial taskManager) where
  worker := Worker.wellFormed_new
  alternating := Brackets.alternating_nil
  pending h := absurd h Brackets.not_pending_nil
  taken := rfl
  carried := ⟨[], [], rfl, rfl, .idle rfl⟩
  settled before after he := by simp [initial] at he
  closing h := absurd rfl h
  joined h := by cases h
  place := .inl rfl

theorem Inv.start (h : Inv s) : Inv { s with worker := s.worker.start } := by
  cases hs : s.worker.started with
  | true => simpa [Worker.start, hs] using h
  | false =>
    obtain ⟨hidle, hoff⟩ := h.worker.down hs
    have hphase : s.shutdown = .off := by
      by_contra hno
      simp [(h.closing hno).1] at hs
    exact {
      worker := h.worker.start
      alternating := h.alternating
      pending := fun hp => by simp [h.pending hp] at hidle
      taken := by simpa [Worker.start, hs] using h.taken
      carried := by
        have : Carries s.log .waiting := h.carried.move (by rw [hoff]; rfl) rfl
        simpa [Worker.start, hs] using this
      settled := h.settled
      closing := fun hno => absurd hphase hno
      joined := fun hr => by simp [hphase] at hr
      place := by simp [Worker.start, hs, inLoop] }

/-- A call that returns OK changes the state and the mailbox of the worker. -/
theorem Inv.called {state : WorkerState} {mailbox : Option WorkItem} {event : Event} (h : Inv s)
    (hworker : Worker.WellFormed { s.worker with state := state, mailbox := mailbox })
    (halternating : Brackets.Alternating Event.opens Event.closes (s.log ++ [event]))
    (hpending : Brackets.Pending Event.opens Event.closes (s.log ++ [event]) → state = .reserved)
    (htaken : accepted (s.log ++ [event]) = takenOut (s.log ++ [event]) ++ mailbox.toList)
    (htook : takenOut [event] = []) (hruns : executions [event] = [])
    (hreturned : .returned ∉ [event]) :
    Inv (s.call (.OK, { s.worker with state := state, mailbox := mailbox }) event) where
  worker := hworker
  alternating := halternating
  pending := hpending
  taken := htaken
  carried := h.carried.quiet htook hruns
  settled := h.settled.append hreturned
  closing := h.closing
  joined := h.joined
  place := h.place

theorem Inv.reserve (h : Inv s) : Inv (s.call s.worker.reserve .reserved) := by
  obtain ⟨status, hno, he, -⟩ | ⟨hs, -, hidle, he⟩ := s.worker.reserve_cases
  · simpa [call, he, hno] using h
  · have hfree : ¬ Brackets.Pending Event.opens Event.closes s.log := by
      intro hp
      simp [h.pending hp] at hidle
    rw [he]
    exact h.called (h.worker.reserved hs hidle) (h.alternating.concat hfree _) (fun _ => rfl)
      (taken_quiet h.taken rfl rfl) rfl rfl (by simp)

theorem Inv.dispatch (h : Inv s) (work : WorkItem) :
    Inv (s.call (s.worker.dispatch work) (.dispatched work)) := by
  obtain ⟨status, hno, he, -⟩ | ⟨hs, hp, hres, hempty, he⟩ := s.worker.dispatch_cases work
  · simpa [call, he, hno] using h
  · have hno : ∀ e ∈ [Event.dispatched work], ¬ e.opens := by simp [Event.opens]
    have hclosed : ¬ Brackets.Pending Event.opens Event.closes (s.log ++ [.dispatched work]) :=
      Brackets.not_pending_append hno List.mem_cons_self trivial
    have htaken : accepted (s.log ++ [.dispatched work]) =
        takenOut (s.log ++ [.dispatched work]) ++ [work] := by
      rw [accepted_append, takenOut_append, h.taken, hempty]
      simp [accepted, takenOut, Event.dispatched?, Event.took?]
    rw [he]
    exact h.called (h.worker.dispatched hs hp hres work) (h.alternating.append hno)
      (fun hpending => absurd hpending hclosed) htaken rfl rfl (by simp)

theorem Inv.releaseReservation (h : Inv s) :
    Inv (s.call s.worker.releaseReservation .released) := by
  obtain ⟨status, hno, he⟩ | ⟨hres, he⟩ := s.worker.releaseReservation_cases
  · simpa [call, he, hno] using h
  · have hno : ∀ e ∈ [Event.released], ¬ e.opens := by simp [Event.opens]
    have hclosed : ¬ Brackets.Pending Event.opens Event.closes (s.log ++ [.released]) :=
      Brackets.not_pending_append hno List.mem_cons_self trivial
    rw [he]
    exact h.called (h.worker.released hres) (h.alternating.append hno)
      (fun hpending => absurd hpending hclosed) (taken_quiet h.taken rfl rfl) rfl rfl (by simp)

theorem Inv.take {worker : Worker} (h : Inv s) (ht : s.worker.take = some worker) :
    Inv { s with worker := worker, log := s.log ++ (s.worker.mailbox.map .took).toList } := by
  have hwf := h.worker.take ht
  obtain ⟨hwaiting, ⟨work, hm, rfl⟩ | ⟨hm, hp, rfl⟩⟩ := Worker.take_cases ht
  · have hno : ∀ e ∈ [Event.took work], ¬ e.opens := by simp [Event.opens]
    rw [hm]
    exact {
      worker := hwf
      alternating := h.alternating.append hno
      pending := fun hpending => h.pending ((Brackets.pending_append hno).mp hpending).1
      taken := by
        have htaken := h.taken
        rw [hm] at htaken
        show accepted (s.log ++ [.took work]) = takenOut (s.log ++ [.took work]) ++ []
        rw [accepted_append, takenOut_append, htaken]
        simp [accepted, takenOut, Event.dispatched?, Event.took?]
      carried := h.carried.take (by rw [hwaiting]; rfl) work
      settled := h.settled.append (by simp)
      closing := h.closing
      joined := fun hr => by simp [h.joined hr] at hwaiting
      place := .inr (.inr rfl) }
  · have hnothing : (s.worker.mailbox.map Event.took).toList = [] := by
      rw [hm]
      rfl
    rw [hnothing, List.append_nil]
    exact {
      worker := hwf
      alternating := h.alternating
      pending := h.pending
      taken := h.taken
      carried := h.carried.move (by rw [hwaiting]; rfl) rfl
      settled := h.settled
      closing := h.closing
      joined := fun _ => rfl
      place := .inr (.inl rfl) }

/-- The thread goes on within the loop, with or without an item in hand. -/
theorem Inv.advance {old : Thread} {events : List Event} (h : Inv s) (ht : s.worker.thread = old)
    (hold : inLoop old = true) (hnew : inLoop thread = true) (he : thread.engaged = old.engaged)
    (hruns : executions events = events)
    (hcarried : Carries s.log old → Carries (s.log ++ events) thread) :
    Inv (s.advance thread events) := by
  subst ht
  obtain ⟨hon, hin⟩ := ne_of_inLoop hold
  obtain ⟨hoff, hexit⟩ := ne_of_inLoop hnew
  obtain ⟨haccepted, htook, hno, hreturned⟩ := quiet_of_run hruns
  exact {
    worker := h.worker.setThread he hon hoff hexit
    alternating := h.alternating.append hno
    pending := fun hpending => h.pending ((Brackets.pending_append hno).mp hpending).1
    taken := taken_quiet h.taken haccepted htook
    carried := hcarried h.carried
    settled := h.settled.append hreturned
    closing := h.closing
    joined := fun hr => absurd (h.joined hr) hin
    place := .inr (.inr hnew) }

theorem Inv.elsewhere (h : Inv s) (taskManager : TaskManager) :
    Inv { s with taskManager := taskManager } :=
  ⟨h.worker, h.alternating, h.pending, h.taken, h.carried, h.settled, h.closing, h.joined,
    h.place⟩

theorem Inv.markRunning (h : Inv s) (ht : s.worker.thread = .taken work) :
    Inv (s.markRunning work) := by
  simp only [WorkerSystem.markRunning]
  cases (s.taskManager.markRunning work.spec.id).1.ok with
  | true =>
    simp only [if_true]
    refine (h.elsewhere _).advance ht rfl rfl rfl rfl fun hc => hc.go rfl rfl ?_
    intro trace hway
    cases hway with
    | idle empty => cases empty
    | taken => exact .marked work
  | false =>
    simp only [Bool.false_eq_true, if_false]
    have hhand : inHand (.taken work) = [work] := rfl
    refine (h.elsewhere _).advance ht rfl rfl rfl rfl fun hc => hc.finish hhand rfl rfl ?_
    intro trace hway
    cases hway with
    | idle empty => cases empty
    | taken => exact ⟨.refused work, rfl, rfl⟩

theorem Inv.invoke (h : Inv s) (ht : s.worker.thread = .marked work) : Inv (s.invoke work) := by
  simp only [WorkerSystem.invoke]
  cases hhandler : work.handler.isSome with
  | true =>
    simp only [if_true]
    refine h.advance ht rfl rfl rfl rfl fun hc => hc.go rfl rfl ?_
    intro trace hway
    cases hway with
    | idle empty => cases empty
    | marked => exact .executing work hhandler
  | false =>
    simp only [Bool.false_eq_true, if_false]
    refine h.advance ht rfl rfl rfl rfl fun hc => hc.go rfl rfl ?_
    have hempty : work.handler = none := by simpa using hhandler
    intro trace hway
    cases hway with
    | idle empty => cases empty
    | marked => exact .empty work hempty

theorem Inv.leaveHandler (h : Inv s) (ht : s.worker.thread = .executing work)
    (exit : HandlerExit) :
    Inv (s.advance (.finished work (Executor.outcome exit)) [.left work exit]) := by
  refine h.advance ht rfl rfl rfl rfl fun hc => hc.go rfl rfl ?_
  intro trace hway
  cases hway with
  | idle empty => cases empty
  | executing _ handler => exact .finished work handler exit

theorem Inv.complete {outcome : ExecutionOutcome} (h : Inv s)
    (ht : s.worker.thread = .finished work outcome) : Inv (s.complete work outcome) := by
  simp only [WorkerSystem.complete]
  have hdone : ∀ trace, UnderWay (.finished work outcome) trace → ∃ carried : Carried,
      carried.work = work ∧ carried.trace = trace ++ [.completed work outcome] := by
    intro trace hway
    cases hway with
    | idle empty => cases empty
    | empty _ handler => exact ⟨.empty work handler, rfl, rfl⟩
    | finished _ handler exit => exact ⟨.executed work handler exit, rfl, rfl⟩
  cases (s.taskManager.complete work.spec.id outcome).2.1 with
  | none =>
    exact (h.elsewhere _).advance ht rfl rfl rfl rfl fun hc => hc.finish rfl rfl rfl hdone
  | some completion =>
    exact (h.elsewhere _).advance ht rfl rfl rfl rfl fun hc => hc.finish rfl rfl rfl hdone

/-- The thread goes on with empty hands. -/
theorem Inv.goOn {old : Thread} (h : Inv s) (ht : s.worker.thread = old)
    (hold : inLoop old = true) (hnew : inLoop thread = true) (he : thread.engaged = old.engaged)
    (hitem : old.item? = none) (hitem' : thread.item? = none) : Inv (s.advance thread []) :=
  h.advance ht hold hnew he rfl fun hc => hc.idle hitem hitem' rfl rfl

theorem Inv.becomeIdle (h : Inv s) (ht : s.worker.thread = .returning) :
    Inv { s with worker := s.worker.becomeIdle } := by
  have hengaged : s.worker.thread.engaged = true := by rw [ht]; rfl
  obtain ⟨hbusy, -⟩ := h.worker.at_work hengaged
  exact {
    worker := h.worker.becomeIdle hengaged
    alternating := h.alternating
    pending := fun hp => by simp [h.pending hp] at hbusy
    taken := h.taken
    carried := h.carried.move (by rw [ht]; rfl) rfl
    settled := h.settled
    closing := h.closing
    joined := fun hr => by simp [h.joined hr] at ht
    place := .inr (.inr rfl) }

theorem Inv.requestStop (h : Inv s) : Inv s.requestStop := by
  simp only [WorkerSystem.requestStop]
  cases hs : s.worker.started with
  | true =>
    simp only [if_true]
    exact {
      worker := h.worker.requestStop
      alternating := h.alternating
      pending := h.pending
      taken := h.taken
      carried := h.carried
      settled := h.settled
      closing := fun _ => ⟨hs, rfl⟩
      joined := fun hr => by cases hr
      place := h.place }
  | false =>
    -- the worker is down: it was never started or its last Shutdown has settled everything
    have hno : ∀ e ∈ [Event.returned], ¬ e.opens := by simp [Event.opens]
    obtain ⟨hidle, hoff⟩ := h.worker.down hs
    have hm : s.worker.mailbox = none := (h.worker.free (by simp [hidle])).1
    have hsettled : Settled s.log :=
      h.carried.settled (by rw [hoff]; rfl) (by simpa [hm] using h.taken)
    simp only [Bool.false_eq_true, if_false]
    exact {
      worker := h.worker
      alternating := h.alternating.append hno
      pending := fun hpending => h.pending ((Brackets.pending_append hno).mp hpending).1
      taken := taken_quiet h.taken rfl rfl
      carried := h.carried.quiet rfl rfl
      settled := h.settled.concat hsettled
      closing := h.closing
      joined := h.joined
      place := h.place }

/-- `join` returns or throws: only the phase of the Shutdown changes. -/
theorem Inv.setPhase {phase : ShutdownPhase} (h : Inv s) (hphase : s.shutdown ≠ .off)
    (hjoined : phase = .resetting → s.worker.thread = .exited) :
    Inv { s with shutdown := phase } where
  worker := h.worker
  alternating := h.alternating
  pending := h.pending
  taken := h.taken
  carried := h.carried
  settled := h.settled
  closing _ := h.closing hphase
  joined := hjoined
  place := h.place

/-- The mailbox that the last section of a Shutdown clears is empty, its thread has no item in
hand, and the state it sets to idle is not busy. -/
theorem Inv.at_reset (h : Inv s) (hphase : s.shutdown = .resetting) :
    s.worker.mailbox = none ∧ s.worker.thread = .exited ∧ s.worker.state ≠ .busy := by
  have ht := h.joined hphase
  obtain ⟨-, hm⟩ := h.worker.left ht
  refine ⟨hm, ht, ?_⟩
  intro hbusy
  have := h.worker.held hbusy
  simp [hm, ht, Thread.engaged] at this

theorem Inv.reset (h : Inv s) (hphase : s.shutdown = .resetting) : Inv s.reset := by
  have hno : ∀ e ∈ [Event.reset, .returned], ¬ e.opens := by simp [Event.opens]
  obtain ⟨hm, ht, -⟩ := h.at_reset hphase
  have hitem : s.worker.thread.item? = none := by
    rw [ht]
    rfl
  have htaken : accepted s.log = takenOut s.log ++ [] := by simpa [hm] using h.taken
  have hsettled : Settled (s.log ++ [.reset]) :=
    (h.carried.quiet rfl rfl).settled hitem (by simpa using taken_quiet htaken rfl rfl)
  exact {
    worker := Worker.WellFormed.reset s.worker
    alternating := h.alternating.append hno
    pending := fun hpending =>
      absurd hpending (Brackets.not_pending_append hno List.mem_cons_self trivial)
    taken := taken_quiet htaken rfl rfl
    carried := h.carried.idle hitem rfl rfl rfl
    settled := by
      have := (h.settled.append (by simp)).concat hsettled
      simpa [WorkerSystem.reset] using this
    closing := fun hno => absurd rfl hno
    joined := fun hr => by cases hr
    place := .inl rfl }

theorem Inv.step {l : Label} (h : Inv s) (hs : step s l = some t) : Inv t := by
  cases l with
  | start =>
    cases hs
    exact h.start
  | reserve =>
    cases hs
    exact h.reserve
  | dispatch work =>
    cases hs
    exact h.dispatch work
  | releaseReservation =>
    cases hs
    exact h.releaseReservation
  | elsewhere taskManager =>
    cases hs
    exact h.elsewhere taskManager
  | take =>
    obtain ⟨worker, ht, rfl⟩ := Option.map_eq_some_iff.mp hs
    exact h.take ht
  | markRunning work =>
    obtain ⟨ht, hs⟩ := Option.ite_none_right_eq_some.mp hs
    cases hs
    exact h.markRunning ht
  | invoke work =>
    obtain ⟨ht, hs⟩ := Option.ite_none_right_eq_some.mp hs
    cases hs
    exact h.invoke ht
  | leaveHandler work exit =>
    obtain ⟨ht, hs⟩ := Option.ite_none_right_eq_some.mp hs
    cases hs
    exact h.leaveHandler ht exit
  | complete work outcome =>
    obtain ⟨ht, hs⟩ := Option.ite_none_right_eq_some.mp hs
    cases hs
    exact h.complete ht
  | reported completion =>
    obtain ⟨ht, hs⟩ := Option.ite_none_right_eq_some.mp hs
    cases hs
    exact h.goOn ht rfl rfl rfl rfl rfl
  | becomeIdle =>
    obtain ⟨ht, hs⟩ := Option.ite_none_right_eq_some.mp hs
    cases hs
    exact h.becomeIdle ht
  | idleCallback =>
    obtain ⟨ht, hs⟩ := Option.ite_none_right_eq_some.mp hs
    cases hs
    exact h.goOn ht rfl rfl rfl rfl rfl
  | requestStop =>
    obtain ⟨-, hs⟩ := Option.ite_none_right_eq_some.mp hs
    cases hs
    exact h.requestStop
  | joinThrows work =>
    obtain ⟨⟨hphase, -⟩, hs⟩ := Option.ite_none_right_eq_some.mp hs
    cases hs
    exact h.setPhase (by simp [hphase]) (by simp)
  | joined =>
    obtain ⟨⟨hphase, ht⟩, hs⟩ := Option.ite_none_right_eq_some.mp hs
    cases hs
    exact h.setPhase (by simp [hphase]) fun _ => ht
  | reset =>
    obtain ⟨hphase, hs⟩ := Option.ite_none_right_eq_some.mp hs
    cases hs
    exact h.reset hphase

/-! ## A Shutdown returns -/

/-- The thread can go on so that the Shutdown under way enters its last section. -/
def Returns (s : WorkerSystem) : Prop :=
  ∃ labels t, Run.run step (labels ++ [.reset]) s = some t

theorem Returns.of_step {l : Label} (hs : step s l = some t) (h : Returns t) : Returns s := by
  obtain ⟨labels, u, hr⟩ := h
  exact ⟨l :: labels, u, by rw [List.cons_append, Run.run_cons, hs]; exact hr⟩

/-- A Shutdown waits for a thread that is at a given place with an empty mailbox. -/
structure Awaits (s : WorkerSystem) (thread : Thread) : Prop where
  joining : s.shutdown = .joining
  stopping : s.worker.stopping = true
  empty : s.worker.mailbox = none
  thread : s.worker.thread = thread

theorem Awaits.advance {old : Thread} (h : Awaits s old) (thread : Thread) (events : List Event) :
    Awaits (s.advance thread events) thread :=
  ⟨h.joining, h.stopping, h.empty, rfl⟩

theorem Awaits.exited (h : Awaits s .exited) : Returns s := by
  refine .of_step (l := .joined) (if_pos ⟨h.joining, h.thread⟩) ?_
  exact ⟨[], _, rfl⟩

theorem Awaits.waiting (h : Awaits s .waiting) : Returns s := by
  have htake : s.worker.take = some { s.worker with thread := .exited } := by
    simp [Worker.take, h.thread, h.empty, h.stopping]
  refine .of_step (l := .take) (by rw [step, htake]; rfl) ?_
  exact Awaits.exited ⟨h.joining, h.stopping, h.empty, rfl⟩

theorem Awaits.notifying (h : Awaits s .notifying) : Returns s :=
  .of_step (l := .idleCallback) (if_pos h.thread) (h.advance .waiting []).waiting

theorem Awaits.returning (h : Awaits s .returning) : Returns s :=
  .of_step (l := .becomeIdle) (if_pos h.thread)
    (Awaits.notifying ⟨h.joining, h.stopping, h.empty, rfl⟩)

theorem Awaits.reporting {completion : TaskCompletion} (h : Awaits s (.reporting completion)) :
    Returns s :=
  .of_step (l := .reported completion) (if_pos h.thread) (h.advance .returning []).returning

theorem Awaits.finished {outcome : ExecutionOutcome} (h : Awaits s (.finished work outcome)) :
    Returns s := by
  refine .of_step (l := .complete work outcome) (if_pos h.thread) ?_
  simp only [WorkerSystem.complete]
  cases (s.taskManager.complete work.spec.id outcome).2.1 with
  | none => exact Awaits.returning ⟨h.joining, h.stopping, h.empty, rfl⟩
  | some completion => exact Awaits.reporting ⟨h.joining, h.stopping, h.empty, rfl⟩

theorem Awaits.executing (h : Awaits s (.executing work)) : Returns s :=
  .of_step (l := .leaveHandler work .threwUnknown) (if_pos h.thread) (h.advance _ _).finished

theorem Awaits.marked (h : Awaits s (.marked work)) : Returns s := by
  refine .of_step (l := .invoke work) (if_pos h.thread) ?_
  simp only [WorkerSystem.invoke]
  split
  · exact (h.advance _ _).executing
  · exact (h.advance _ _).finished

theorem Awaits.taken (h : Awaits s (.taken work)) : Returns s := by
  refine .of_step (l := .markRunning work) (if_pos h.thread) ?_
  simp only [WorkerSystem.markRunning]
  cases (s.taskManager.markRunning work.spec.id).1.ok with
  | true => exact Awaits.marked ⟨h.joining, h.stopping, h.empty, rfl⟩
  | false => exact Awaits.returning ⟨h.joining, h.stopping, h.empty, rfl⟩

/-- A worker that waits with work in its mailbox takes it, stopping or not. -/
theorem returns_of_mailbox (hphase : s.shutdown = .joining) (hstop : s.worker.stopping = true)
    (hm : s.worker.mailbox = some work) (ht : s.worker.thread = .waiting) : Returns s := by
  have htake : s.worker.take = some { s.worker with thread := .taken work, mailbox := none } := by
    simp [Worker.take, ht, hm]
  refine .of_step (l := .take) (by rw [step, htake]; rfl) ?_
  exact Awaits.taken ⟨hphase, hstop, rfl, rfl⟩

/-- The join that a Shutdown waits for is never in vain: wherever the thread is, it can finish
what it has in hand and in its mailbox, and leave. -/
theorem Inv.returns (h : Inv s) (hphase : s.shutdown = .joining) : Returns s := by
  obtain ⟨hstarted, hstop⟩ := h.closing (by simp [hphase])
  have hplace := h.place
  -- a thread that is at work has emptied the mailbox
  have hawaits : s.worker.thread.engaged = true → Awaits s s.worker.thread := fun ht =>
    ⟨hphase, hstop, (h.worker.at_work ht).2, rfl⟩
  cases ht : s.worker.thread with
  | off => exact absurd ht (h.worker.up hstarted)
  | waiting =>
    cases hm : s.worker.mailbox with
    | none => exact Awaits.waiting ⟨hphase, hstop, hm, ht⟩
    | some work => exact returns_of_mailbox hphase hstop hm ht
  | notifying =>
    cases hm : s.worker.mailbox with
    | none => exact Awaits.notifying ⟨hphase, hstop, hm, ht⟩
    | some work =>
      refine .of_step (l := .idleCallback) (if_pos ht) ?_
      exact returns_of_mailbox hphase hstop hm rfl
  | taken work => exact Awaits.taken (ht ▸ hawaits (by rw [ht]; rfl))
  | marked work => exact Awaits.marked (ht ▸ hawaits (by rw [ht]; rfl))
  | executing work => exact Awaits.executing (ht ▸ hawaits (by rw [ht]; rfl))
  | finished work outcome => exact Awaits.finished (ht ▸ hawaits (by rw [ht]; rfl))
  | reporting completion => exact Awaits.reporting (ht ▸ hawaits (by rw [ht]; rfl))
  | returning => exact Awaits.returning (ht ▸ hawaits (by rw [ht]; rfl))
  | exited => exact Awaits.exited ⟨hphase, hstop, (h.worker.left ht).2, ht⟩
  | releasing | waking | announcing =>
    rw [ht] at hplace
    simp [inLoop] at hplace

/-! ## Exactly once -/

/-- What holds of a worker and of what has happened to it. -/
structure ExactlyOnce (s : WorkerSystem) : Prop where
  busy : s.worker.mailbox ≠ none → s.worker.state = .busy
  free : s.worker.state ≠ .busy →
    s.worker.mailbox = none ∧ ∀ work, s.worker.thread ≠ .executing work
  reservations : Brackets.Alternating Event.opens Event.closes s.log
  taken : accepted s.log = takenOut s.log ++ s.worker.mailbox.toList
  carried : Carries s.log s.worker.thread
  returned : SettledAtReturn s.log
  reset : s.shutdown = .resetting →
    s.worker.mailbox = none ∧ s.worker.thread = .exited ∧ s.worker.state ≠ .busy
  returns : s.shutdown = .joining → Returns s

theorem Inv.exactlyOnce (h : Inv s) : ExactlyOnce s where
  busy hm := by
    by_contra hb
    exact hm (h.worker.free hb).1
  free hb := by
    obtain ⟨hm, he⟩ := h.worker.free hb
    refine ⟨hm, ?_⟩
    intro work ht
    rw [ht] at he
    cases he
  reservations := h.alternating
  taken := h.taken
  carried := h.carried
  returned := h.settled
  reset := h.at_reset
  returns := h.returns

/-- One worker executes every dispatched item exactly once, whatever its callers do and in
whatever order the steps come. -/
theorem executes_exactly_once {taskManager : TaskManager} {labels : List Label}
    (hr : Run.run step labels (initial taskManager) = some s) : ExactlyOnce s :=
  Inv.exactlyOnce (Run.invariant_run (fun _ _ _ h hs => h.step hs) hr (inv_initial taskManager))

namespace Sample

def item : WorkItem where
  spec :=
    { tenantId := .ofByte 1
      id := .ofByte 1
      agentId := .ofByte 1
      name := "task"
      resources := ⟨.empty⟩
      inputs := [] }
  executionId := .ofByte 1
  handler := some ⟨"main", [], ""⟩
  cancelToken := .ofByte 1

/-- The task of the item has been scheduled. -/
def taskManager : TaskManager :=
  let registered := ((⟨∅, false⟩ : TaskManager).register item.spec item.handler).2
  let queued := (registered.markQueued item.spec.id).2
  (queued.markScheduled item.spec.id (.ofByte 1) item.executionId).2

/-- A Shutdown comes while the item is still in the mailbox. -/
def drained : List Label :=
  [.start, .reserve, .dispatch item, .requestStop, .take, .markRunning item, .invoke item,
    .leaveHandler item (.returned .OK []), .complete item ⟨.OK, []⟩, .becomeIdle, .idleCallback,
    .take, .joined, .reset]

end Sample

theorem executes_exactly_once_drained :
    accepted (Run.stateAfter step Sample.drained (initial Sample.taskManager)).log =
        [Sample.item] ∧
      ExactlyOnce (Run.stateAfter step Sample.drained (initial Sample.taskManager)) :=
  ⟨by decide, executes_exactly_once (Run.run_stateAfter (by decide))⟩

end WorkerSystem

end AgentRuntime
