import AgentRuntime.Control.Detection
import AgentRuntime.Library.Quiescence

/-!
# The detector stops

`Shutdown` clears `running_` and joins the thread, which may be inside a
callback. Once the flag is down the thread has a bounded number of steps left,
nothing can keep it from taking them, and nothing is scanned in the background
until `Start` is called again.
-/
namespace AgentRuntime

namespace ControlSystem

variable {s u : State}

/-- The loops of `HandleNodeDead` and of the scan keep the tables as long as they are. -/
theorem turn_keeps (h : step s .deadNext = some u) :
    u.plane.tasks.keys = s.plane.tasks.keys ∧
      u.registry.registrationOrder = s.registry.registrationOrder := by
  obtain ⟨call, -, hcase⟩ := step_deadNext h
  obtain ⟨-, rfl⟩ | ⟨t, rest, -, ⟨-, rfl⟩ | ⟨-, rfl⟩ | ⟨record, hrecord, -, -, rfl⟩⟩ := hcase
  · exact ⟨rfl, rfl⟩
  · exact ⟨rfl, rfl⟩
  · exact ⟨rfl, rfl⟩
  · refine ⟨?_, ?_⟩
    · have hmem : t ∈ s.plane.tasks := Finmap.mem_iff.mpr ⟨record, hrecord⟩
      ext t'
      show t' ∈ (s.plane.tasks.insert t _).keys ↔ _
      rw [Finmap.mem_keys, Finmap.mem_keys, Finmap.mem_insert, or_iff_right_of_imp]
      rintro rfl
      exact hmem
    · show (s.registry.release _ _).2.registrationOrder = _
      simp only [NodeRegistry.release]
      split
      · rfl
      · split <;> rfl

end ControlSystem

namespace NodeRegistry

theorem length_scan (now suspectTimeout deadTimeout : Int) (order : List NodeID)
    (nodes : UnorderedMap NodeID StoredNode) :
    (scan now suspectTimeout deadTimeout order nodes).1.length ≤ order.length := by
  induction order generalizing nodes with
  | nil => exact Nat.le_refl _
  | cons id order ih =>
    simp only [scan, List.length_cons]
    split
    · exact Nat.le_succ_of_le (ih _)
    · split
      · exact Nat.le_succ_of_le (ih _)
      · split
        · exact Nat.succ_le_succ (ih _)
        · exact Nat.le_succ_of_le (ih _)

/-- A scan finds no more lifetimes dead than there are registered. -/
theorem length_updateLiveness (reg : NodeRegistry) (now suspectTimeout deadTimeout : Int) :
    (reg.updateLiveness now suspectTimeout deadTimeout).1.length ≤ reg.registrationOrder.length ∧
      (reg.updateLiveness now suspectTimeout deadTimeout).2.registrationOrder =
        reg.registrationOrder := by
  simp only [updateLiveness]
  split
  · exact ⟨Nat.zero_le _, rfl⟩
  · exact ⟨length_scan _ _ _ _ _, rfl⟩

end NodeRegistry

namespace Detection

variable {s u : State} {a : Action}

/-! ## What is left to do -/

/-- The steps that the threads of the detector take by themselves. -/
def Action.isOwn : Action → Bool
  | .startSpawn | .shutdownJoin | .loopCheck | .loopScan _ | .loopReturn | .loopWake
  | .callback _ _ | .callbackNext _ => true
  | .control _ | .startBegin | .shutdownBegin | .scanOnce _ => false

/-- The steps of the background thread in `Run`. -/
def Action.ofLoop : Action → Bool
  | .loopCheck | .loopScan _ | .loopReturn | .loopWake => true
  | _ => false

/-- The sections of a call of `HandleNodeDead`, and one to come back. -/
def callCost (s : State) : Nat := s.control.plane.tasks.keys.card + 2

/-- What is left of the call that holds `tasks_mu_`. -/
def turnsLeft : Option ControlSystem.DeadCall → Nat
  | none => 0
  | some call => call.remaining.length + 1

/-- The way of the thread out of `Run`, once `running_` is false. -/
def loopLeft (scanCost : Nat) : LoopPhase → Nat
  | .off | .exited => 0
  | .atCheck => 1
  | .sleeping => 2
  | .scanning _ => 3
  | .atScan => 4 + scanCost

def ownerLeft : OwnerPhase → Nat
  | .idle => 0
  | .starting | .joining => 1

/-- Each registered lifetime may still be found dead by the scan that the thread is about to
make. -/
def potential (s : State) : Nat :=
  s.held.length * callCost s + turnsLeft s.control.handling +
    loopLeft (s.control.registry.registrationOrder.length * callCost s) s.loop +
    ownerLeft s.owner

theorem potential_moved (s : State) (loop : LoopPhase) (owner : OwnerPhase) :
    potential { s with loop := loop, owner := owner } =
      s.held.length * callCost s + turnsLeft s.control.handling +
        loopLeft (s.control.registry.registrationOrder.length * callCost s) loop +
        ownerLeft owner := rfl

/-- A scan that begins, with what it finds dead. -/
theorem potential_scan {now : Int} {control : ControlSystem.State}
    (hstep : ControlSystem.step s.control (.updateLiveness now s.detector.options.suspectTimeout
      s.detector.options.deadTimeout) = some control) (hloop : s.loop = .atScan) (k : Nat) :
    potential { s with
      control := control
      scans := s.scans ++ [⟨(s.detector.scanOnce s.control.registry now).1, 0, false⟩]
      loop := .scanning k } < potential s := by
  cases hstep
  obtain ⟨hlength, -⟩ := NodeRegistry.length_updateLiveness s.control.registry now
    s.detector.options.suspectTimeout s.detector.options.deadTimeout
  have hcost := Nat.mul_le_mul_right (callCost s) hlength
  rw [potential, potential, hloop, held_new, List.length_append]
  show (s.held.length + List.length (NodeRegistry.updateLiveness _ _ _ _).1) * callCost s +
    turnsLeft s.control.handling + 3 + ownerLeft s.owner < _
  rw [Nat.add_mul, loopLeft]
  omega

/-- A callback begins: its turns are paid for by the lifetime that it takes. -/
theorem potential_callback {k : Nat} {order : List TaskID} {c : Scan} {dead : DeadNodeLifetime}
    {rest : List DeadNodeLifetime} {control : ControlSystem.State} (hc : s.scans[k]? = some c)
    (hremaining : c.remaining = dead :: rest)
    (hstep : ControlSystem.step s.control (.deadBegin dead.nodeId dead.incarnation order) =
      some control) :
    potential { s with
      control := control
      scans := s.scans.set k { c with next := c.next + 1, inCallback := true } } < potential s := by
  obtain ⟨hfree, ⟨hnodup, hkeys⟩, rfl⟩ := ControlSystem.step_deadBegin hstep
  have hheld := (held_callback hc hremaining (Scan.remaining_next hremaining true)).length_eq
  have horder : order.length = s.control.plane.tasks.keys.card := by
    rw [← hkeys, List.toFinset_card_of_nodup hnodup]
  rw [List.length_cons] at hheld
  rw [potential, potential, hheld, hfree]
  show ((s.scans.set k _).flatMap Scan.remaining).length * callCost s + (order.length + 1) +
    loopLeft (s.control.registry.registrationOrder.length * callCost s) s.loop +
    ownerLeft s.owner < _
  rw [Nat.add_mul, horder, turnsLeft, callCost]
  omega

/-- Once `running_` is false each step of the detector uses up some of what is left. -/
theorem spends_stopping : Run.Spends step (fun a => a.isOwn = true)
    (fun s => Sound s ∧ s.detector.running = false) potential := by
  rintro s a u ⟨hs, hdown⟩ hown htaken
  have h := effect htaken
  clear htaken
  refine ⟨⟨hs.step h, ?_⟩, ?_⟩
  · cases h with
    | start => cases hown
    | shutdown => rfl
    | ignored | control | spawn | terminate | join | goOn | leave | scan | sleep | wake | callback
    | next => exact hdown
  cases h with
  | control | start | shutdown => cases hown
  | ignored _ ha => obtain rfl | rfl := ha <;> cases hown
  | spawn howner | terminate howner =>
    have hplaced := hs.placed
    rw [howner] at hplaced
    rw [hplaced.1] at hdown
    cases hdown
  | goOn _ hup =>
    rw [hup] at hdown
    cases hdown
  | join howner hloop =>
    rw [potential_moved, potential, howner]
    simp only [loopLeft, ownerLeft]
    omega
  | leave hloop | sleep hloop | wake hloop =>
    rw [potential, potential, hloop]
    simp only [loopLeft, State.held, callCost]
    omega
  | @scan _ now control loop ha hstep =>
    obtain ⟨rfl, hloop, rfl⟩ | ⟨rfl, -⟩ := ha
    · exact potential_scan hstep hloop _
    · cases hown
  | callback hc _ _ hremaining hstep => exact potential_callback hc hremaining hstep
  | @next k c control hc hin hstep =>
    obtain ⟨hkeys, horder⟩ := ControlSystem.turn_keeps hstep
    obtain ⟨-, call, hcall, hturn⟩ := ControlSystem.step_turn hstep
    have hheld : (s.scans.set k { c with inCallback := control.handling.isSome }).flatMap
        Scan.remaining = s.held := held_same hc rfl
    have hturns : turnsLeft control.handling < turnsLeft s.control.handling := by
      rw [hcall]
      obtain hnone | ⟨call', hsome, -, -, hlength⟩ := hturn
      · rw [hnone]
        exact Nat.succ_pos _
      · rw [hsome]
        simp only [turnsLeft]
        omega
    rw [potential, potential]
    simp only [callCost, hkeys, horder, State.held] at hheld ⊢
    rw [hheld]
    omega

/-! ## Nothing is in the way -/

theorem act_eq_none (hs : Sound s) (h : step s a = none) : act s a = none := by
  rwa [step, if_neg (by simp [hs.going])] at h

/-- A call of `HandleNodeDead` that is going on can go on. -/
theorem handling_of_quiescent (hs : Sound s)
    (hq : Run.Quiescent step (fun a => a.isOwn = true) s) : s.control.handling = none := by
  by_contra hsome
  obtain ⟨dead, hdead⟩ := Option.ne_none_iff_exists'.mp hsome
  have hinside := hs.inside
  rw [OneInside, if_pos (Option.isSome_iff_ne_none.mpr hsome)] at hinside
  obtain ⟨c, hmem, hin⟩ := List.countP_pos_iff.mp (hinside.symm ▸ Nat.one_pos)
  obtain ⟨k, hk⟩ := List.mem_iff_getElem?.mp hmem
  have hnone := act_eq_none hs (hq (.callbackNext k) rfl)
  simp [act, hk, hin, callbackNext, ControlSystem.step, hdead] at hnone

/-- A callback that is to be made can be made. -/
theorem atRest_of_quiescent (hs : Sound s)
    (hq : Run.Quiescent step (fun a => a.isOwn = true) s) : s.atRest := by
  have hfree := handling_of_quiescent hs hq
  intro c hmem
  obtain ⟨k, hk⟩ := List.mem_iff_getElem?.mp hmem
  have hout : c.inCallback = false := by
    have hinside := hs.inside
    rw [OneInside, hfree] at hinside
    have hnot := List.countP_eq_zero.mp hinside c hmem
    simpa using hnot
  rw [State.finished, hout]
  cases hcallback : s.hasCallback with
  | false => rfl
  | true =>
    cases hremaining : c.remaining with
    | nil => rfl
    | cons dead rest =>
      have henumerates : UnorderedMap.Enumerates s.control.plane.tasks.keys.toList
          s.control.plane.tasks := ⟨Finset.nodup_toList _, Finset.toList_toFinset _⟩
      have hnone := act_eq_none hs (hq (.callback k s.control.plane.tasks.keys.toList) rfl)
      simp [act, hk, hcallback, hout, callback, hremaining, ControlSystem.step,
        ControlSystem.State.unlocked, hfree, henumerates] at hnone

/-- A detector that is stopping and cannot take a step has stopped. -/
theorem stopped_of_quiescent (hs : Sound s) (hdown : s.detector.running = false)
    (hq : Run.Quiescent step (fun a => a.isOwn = true) s) :
    s.owner = .idle ∧ s.loop = .off ∧ s.atRest := by
  have hrest := atRest_of_quiescent hs hq
  have hout : s.loop = .exited ∨ s.loop = .off := by
    cases hloop : s.loop with
    | off => exact .inr rfl
    | exited => exact .inl rfl
    | atCheck =>
      have hnone := act_eq_none hs (hq .loopCheck rfl)
      simp [act, hloop] at hnone
    | atScan =>
      have hnone := act_eq_none hs (hq (.loopScan 0) rfl)
      simp [act, hloop, beginScan, ControlSystem.step] at hnone
    | sleeping =>
      have hnone := act_eq_none hs (hq .loopWake rfl)
      simp [act, hloop] at hnone
    | scanning k =>
      have hlt := hs.scanning k hloop
      have hdone := hrest _ (List.getElem_mem hlt)
      have hnone := act_eq_none hs (hq .loopReturn rfl)
      simp [act, hloop, hlt, hdone] at hnone
  have hplaced := hs.placed
  cases howner : s.owner with
  | idle =>
    rw [howner, hdown] at hplaced
    exact ⟨rfl, hplaced, hrest⟩
  | starting =>
    rw [howner, hdown] at hplaced
    cases hplaced.1
  | joining =>
    have hnone := act_eq_none hs (hq .shutdownJoin rfl)
    simp [act, howner, hout] at hnone

/-! ## The result -/

variable {as bs : List Action} {options : FailureDetectorOptions} {hasCallback : Bool}

/-- Without `Start` a detector that is down stays down, and its thread does nothing. -/
theorem silent_run (hs : Sound s) (hdown : s.detector.running = false) (howner : s.owner = .idle)
    (hstart : .startBegin ∉ bs) (h : Run.run step bs s = some u) :
    u.owner = .idle ∧ u.loop = .off ∧ ∀ a ∈ bs, a.ofLoop = false := by
  induction bs generalizing s with
  | nil =>
    cases h
    have hplaced := hs.placed
    rw [howner, hdown] at hplaced
    exact ⟨howner, hplaced, by simp⟩
  | cons a bs ih =>
    obtain ⟨v, hv, h⟩ := Run.run_cons_some h
    have hplaced := hs.placed
    rw [howner, hdown] at hplaced
    have hoff : s.loop = .off := hplaced
    have hne : a ≠ .startBegin := fun he => hstart (he ▸ List.mem_cons_self)
    replace hstart := fun hmem => hstart (List.mem_cons_of_mem a hmem)
    have hnext : v.detector.running = false ∧ v.owner = .idle ∧ a.ofLoop = false := by
      have he := effect hv
      clear hv
      cases he with
      | control | callback | next => exact ⟨hdown, howner, rfl⟩
      | ignored _ ha => obtain rfl | rfl := ha <;> exact ⟨hdown, howner, rfl⟩
      | start => exact absurd rfl hne
      | shutdown _ hup =>
        rw [hdown] at hup
        cases hup
      | spawn hother | terminate hother | join hother =>
        rw [howner] at hother
        cases hother
      | goOn hloop | leave hloop | sleep hloop | wake hloop =>
        rw [hoff] at hloop
        cases hloop
      | scan ha =>
        obtain ⟨-, hloop, -⟩ | ⟨rfl, -⟩ := ha
        · rw [hoff] at hloop
          cases hloop
        · exact ⟨hdown, howner, rfl⟩
    obtain ⟨hdown', howner', hquiet⟩ := hnext
    obtain ⟨hidle, hloop, hall⟩ := ih (hs.step (effect hv)) hdown' howner' hstart h
    refine ⟨hidle, hloop, fun b hb => ?_⟩
    obtain rfl | hb := List.mem_cons.mp hb
    · exact hquiet
    · exact hall b hb

/-- With `Start` and `Shutdown` called one at a time, outside the callback, no `Start` finds a
thread to be joined. Once `Shutdown` has cleared `running_` the
detector has a bounded number of steps left, and when there are none left `Shutdown` has returned;
after that the background is silent until `Start` is called. -/
theorem detector_stops (h : Run.run step as (.initial options hasCallback) = some s) :
    s.terminated = false ∧ (s.detector.running = false →
      (∀ bs u, (∀ a ∈ bs, a.isOwn = true) → Run.run step bs s = some u →
        bs.length + potential u ≤ potential s) ∧
      (Run.Quiescent step (fun a => a.isOwn = true) s →
        s.owner = .idle ∧ s.loop = .off ∧ s.atRest) ∧
      (s.owner = .idle → ∀ bs u, .startBegin ∉ bs → Run.run step bs s = some u →
        u.owner = .idle ∧ u.loop = .off ∧ ∀ a ∈ bs, a.ofLoop = false)) := by
  obtain ⟨hs, -⟩ := sound_run h
  refine ⟨hs.going, fun hdown => ⟨fun bs u hown hrun => ?_, stopped_of_quiescent hs hdown,
    fun howner bs u hstart hrun => silent_run hs hdown howner hstart hrun⟩⟩
  exact spends_stopping.length_le hrun ⟨hs, hdown⟩ hown

namespace Sample

/-- `Shutdown` is called by another thread while the detector is in a callback. -/
def stopping : List Action :=
  running ++ [.startBegin, .startSpawn, .loopCheck, .loopScan 20000000000,
    .callback 0 [ControlSystem.Sample.task 1], .shutdownBegin]

end Sample

theorem detector_stops_in_callback :
    (Run.stateAfter step Sample.stopping Sample.detector).terminated = false ∧
    ∀ u, Run.run step [.callbackNext 0, .callbackNext 0, .loopReturn, .loopWake, .loopCheck,
      .shutdownJoin] (Run.stateAfter step Sample.stopping Sample.detector) = some u →
      6 + potential u ≤ potential (Run.stateAfter step Sample.stopping Sample.detector) := by
  have hrun : Run.run step Sample.stopping Sample.detector =
      some (Run.stateAfter step Sample.stopping Sample.detector) := Run.run_stateAfter (by decide)
  obtain ⟨hgoing, hstops⟩ := detector_stops hrun
  obtain ⟨hbound, -, -⟩ := hstops (by decide)
  exact ⟨hgoing, fun u hu => hbound _ u (by decide) hu⟩

end Detection

end AgentRuntime
