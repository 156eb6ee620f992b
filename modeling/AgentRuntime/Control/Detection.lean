import AgentRuntime.Control.Orphans
import AgentRuntime.Node.Liveness

/-!
# The failure detector at the control plane

The background thread of the detector scans the registry and hands each newly
dead lifetime to `HandleNodeDead`; `ScanOnce` may also be called directly, by
any number of threads at once. `Start` and `Shutdown` are calls of one owner,
one at a time, since both touch `thread_` without a lock.
-/
namespace AgentRuntime

namespace ControlSystem

/-- The sections that only the detector enters. -/
def byDetector : Action → Bool
  | .updateLiveness _ _ _ | .deadBegin _ _ _ | .deadNext => true
  | _ => false

/-- The other calls leave the announcements and `HandleNodeDead` alone. -/
theorem step_elsewhere {s u : State} {a : Action} (h : step s a = some u)
    (ha : byDetector a = false) : u.handling = s.handling ∧ u.announced = s.announced := by
  cases a with
  | registerNode | heartbeat | removeNode =>
    cases h
    exact ⟨rfl, rfl⟩
  | updateLiveness | deadBegin | deadNext => cases ha
  | submitReserve =>
    obtain ⟨-, ⟨_, rfl⟩ | ⟨_, _, -, -, -, -, rfl⟩⟩ := step_submitReserve h <;> exact ⟨rfl, rfl⟩
  | submitPublish =>
    obtain ⟨_, -, -, rfl⟩ := step_submitPublish h
    exact ⟨rfl, rfl⟩
  | submitDispatched =>
    obtain ⟨_, -, rfl⟩ := step_submitDispatched h
    exact ⟨rfl, rfl⟩
  | submitErase =>
    obtain ⟨_, _, -, -, rfl⟩ := step_submitErase h
    exact ⟨rfl, rfl⟩
  | submitRelease =>
    obtain ⟨_, _, -, rfl⟩ := step_submitRelease h
    exact ⟨rfl, rfl⟩
  | cancelSnapshot =>
    obtain ⟨_, rfl⟩ := step_cancelSnapshot h
    exact ⟨rfl, rfl⟩
  | cancelLocate =>
    obtain ⟨_, rfl⟩ := step_cancelLocate h
    exact ⟨rfl, rfl⟩
  | cancelDelivered =>
    obtain ⟨_, rfl⟩ := step_cancelDelivered h
    exact ⟨rfl, rfl⟩
  | cancelPublish =>
    obtain ⟨_, rfl | ⟨_, _, -, -, -, rfl⟩⟩ := step_cancelPublish h <;> exact ⟨rfl, rfl⟩
  | report =>
    obtain ⟨-, ⟨rfl, -⟩ | ⟨_, -, -, -, -, -, rfl⟩⟩ := step_report h <;> exact ⟨rfl, rfl⟩

/-- One turn of `HandleNodeDead`, or its end. -/
theorem step_turn {s u : State} (h : step s .deadNext = some u) :
    u.announced = s.announced ∧ ∃ call, s.handling = some call ∧ (u.handling = none ∨
      ∃ call', u.handling = some call' ∧ call'.nodeId = call.nodeId ∧
        call'.incarnation = call.incarnation ∧
        call'.remaining.length + 1 = call.remaining.length) := by
  obtain ⟨call, hcall, hcase⟩ := step_deadNext h
  obtain ⟨-, rfl⟩ | ⟨t, rest, hrem, ⟨-, rfl⟩ | ⟨-, rfl⟩ | ⟨_, -, -, -, rfl⟩⟩ := hcase
  · exact ⟨rfl, call, hcall, .inl rfl⟩
  · exact ⟨rfl, call, hcall, .inr ⟨_, rfl, rfl, rfl, by simp [hrem]⟩⟩
  · exact ⟨rfl, call, hcall, .inl rfl⟩
  · exact ⟨rfl, call, hcall, .inr ⟨_, rfl, rfl, rfl, by simp [hrem]⟩⟩

end ControlSystem

namespace Detection

open ControlSystem (byDetector)

/-! ## The system -/

/-- Where the background thread is in `Run`; `off` when `thread_` is not joinable. -/
inductive LoopPhase where
  | off | atCheck | atScan
  /-- Inside `ScanOnce`, which is the `k`-th call of it. -/
  | scanning (k : Nat)
  | sleeping | exited
  deriving DecidableEq

inductive OwnerPhase where
  | idle
  /-- `Start` has set `running_` and has not made the thread. -/
  | starting
  /-- `Shutdown` has cleared `running_` and joins the thread. -/
  | joining
  deriving DecidableEq

/-- A call of `ScanOnce` after `UpdateLiveness`, with how many callbacks it has begun. -/
structure Scan where
  newlyDead : List DeadNodeLifetime
  next : Nat
  inCallback : Bool

def Scan.remaining (c : Scan) : List DeadNodeLifetime := c.newlyDead.drop c.next

structure State where
  control : ControlSystem.State
  detector : FailureDetector
  /-- `node_dead_callback_` is set, and calls `HandleNodeDead`. -/
  hasCallback : Bool
  loop : LoopPhase
  owner : OwnerPhase
  scans : List Scan
  /-- A joinable thread was assigned to, and `std::terminate` was called. -/
  terminated : Bool

def State.initial (options : FailureDetectorOptions) (hasCallback : Bool) : State where
  control := .initial
  detector := ⟨options, false⟩
  hasCallback := hasCallback
  loop := .off
  owner := .idle
  scans := []
  terminated := false

inductive Action where
  /-- A section of another call at the control plane. -/
  | control (a : ControlSystem.Action)
  | startBegin | startSpawn | shutdownBegin | shutdownJoin
  | loopCheck
  | loopScan (now : Int)
  | loopReturn | loopWake
  /-- `ScanOnce` is called directly. -/
  | scanOnce (now : Int)
  /-- The `k`-th call of `ScanOnce` calls the callback, which enters `tasks_mu_`; `order` is how
  the hash table is iterated. -/
  | callback (k : Nat) (order : List TaskID)
  | callbackNext (k : Nat)

def startBegin (s : State) : State :=
  let done := s.detector.start
  if done.1.ok then { s with detector := done.2, owner := .starting } else s

def startSpawn (s : State) : State :=
  if s.loop = .off then { s with loop := .atCheck, owner := .idle } else { s with terminated := true }

def shutdownBegin (s : State) : State :=
  if s.detector.running then
    { s with detector := { s.detector with running := false }, owner := .joining }
  else s

/-- `UpdateLiveness` on behalf of a new call of `ScanOnce`. -/
def beginScan (s : State) (now : Int) : Option State :=
  (ControlSystem.step s.control (.updateLiveness now s.detector.options.suspectTimeout
    s.detector.options.deadTimeout)).map fun control =>
    { s with
      control := control
      scans := s.scans ++ [⟨(s.detector.scanOnce s.control.registry now).1, 0, false⟩] }

/-- The call has returned, or does so without another callback. -/
def State.finished (s : State) (c : Scan) : Bool :=
  !c.inCallback && (!s.hasCallback || c.remaining.isEmpty)

def callback (s : State) (k : Nat) (c : Scan) (order : List TaskID) : Option State :=
  match c.remaining with
  | [] => none
  | dead :: _ =>
    (ControlSystem.step s.control (.deadBegin dead.nodeId dead.incarnation order)).map
      fun control => { s with
        control := control
        scans := s.scans.set k { c with next := c.next + 1, inCallback := true } }

def callbackNext (s : State) (k : Nat) (c : Scan) : Option State :=
  (ControlSystem.step s.control .deadNext).map fun control =>
    { s with
      control := control
      scans := s.scans.set k { c with inCallback := control.handling.isSome } }

def act (s : State) : Action → Option State
  | .control a =>
    if byDetector a then none
    else (ControlSystem.step s.control a).map fun control => { s with control := control }
  | .startBegin => if s.owner = .idle then some (startBegin s) else none
  | .startSpawn => if s.owner = .starting then some (startSpawn s) else none
  | .shutdownBegin => if s.owner = .idle then some (shutdownBegin s) else none
  | .shutdownJoin =>
    if s.owner = .joining ∧ (s.loop = .exited ∨ s.loop = .off) then
      some { s with loop := .off, owner := .idle }
    else none
  | .loopCheck =>
    if s.loop = .atCheck then
      some { s with loop := if s.detector.running then .atScan else .exited }
    else none
  | .loopScan now =>
    if s.loop = .atScan then
      (beginScan s now).map fun t => { t with loop := .scanning s.scans.length }
    else none
  | .loopReturn =>
    match s.loop with
    | .scanning k =>
      if (s.scans[k]?).any s.finished then some { s with loop := .sleeping } else none
    | _ => none
  | .loopWake => if s.loop = .sleeping then some { s with loop := .atCheck } else none
  | .scanOnce now => beginScan s now
  | .callback k order =>
    match s.scans[k]? with
    | some c => if s.hasCallback ∧ c.inCallback = false then callback s k c order else none
    | none => none
  | .callbackNext k =>
    match s.scans[k]? with
    | some c => if c.inCallback then callbackNext s k c else none
    | none => none

def step (s : State) (a : Action) : Option State := if s.terminated then none else act s a

/-- What the `k`-th call of `ScanOnce` finds dead, or hands to `HandleNodeDead`. -/
inductive Event where
  | found (k : Nat) (dead : DeadNodeLifetime)
  | handled (k : Nat) (dead : DeadNodeLifetime)
  deriving DecidableEq

def Event.found? : Event → Option (Nat × DeadNodeLifetime)
  | .found k dead => some (k, dead)
  | .handled _ _ => none

def Event.handled? : Event → Option (Nat × DeadNodeLifetime)
  | .handled k dead => some (k, dead)
  | .found _ _ => none

def events (s : State) : Action → List Event
  | .loopScan now | .scanOnce now =>
    (s.detector.scanOnce s.control.registry now).1.map (.found s.scans.length)
  | .callback k _ =>
    match s.scans[k]? with
    | some c => c.remaining.head?.toList.map (.handled k)
    | none => []
  | _ => []

/-- Which lifetimes the calls have found dead, and which they have handed over. -/
def found (seen : List Event) : List (Nat × DeadNodeLifetime) := seen.filterMap Event.found?
def handled (seen : List Event) : List (Nat × DeadNodeLifetime) := seen.filterMap Event.handled?

/-! ## What each step does -/

/-- The sections of `tasks_mu_` and of the registry that a step consists of. -/
inductive Effect (s : State) : Action → State → Prop where
  | control {a control} (ha : byDetector a = false)
      (hstep : ControlSystem.step s.control a = some control) :
      Effect s (.control a) { s with control := control }
  | ignored (a) (ha : a = .startBegin ∨ a = .shutdownBegin) : Effect s a s
  | start (howner : s.owner = .idle) (hdown : s.detector.running = false) :
      Effect s .startBegin
        { s with detector := { s.detector with running := true }, owner := .starting }
  | spawn (howner : s.owner = .starting) (hoff : s.loop = .off) :
      Effect s .startSpawn { s with loop := .atCheck, owner := .idle }
  | terminate (howner : s.owner = .starting) (hon : s.loop ≠ .off) :
      Effect s .startSpawn { s with terminated := true }
  | shutdown (howner : s.owner = .idle) (hup : s.detector.running = true) :
      Effect s .shutdownBegin
        { s with detector := { s.detector with running := false }, owner := .joining }
  | join (howner : s.owner = .joining) (hloop : s.loop = .exited ∨ s.loop = .off) :
      Effect s .shutdownJoin { s with loop := .off, owner := .idle }
  | goOn (hloop : s.loop = .atCheck) (hup : s.detector.running = true) :
      Effect s .loopCheck { s with loop := .atScan }
  | leave (hloop : s.loop = .atCheck) (hdown : s.detector.running = false) :
      Effect s .loopCheck { s with loop := .exited }
  | scan {a now control loop}
      (ha : a = .loopScan now ∧ s.loop = .atScan ∧ loop = .scanning s.scans.length ∨
        a = .scanOnce now ∧ loop = s.loop)
      (hstep : ControlSystem.step s.control (.updateLiveness now s.detector.options.suspectTimeout
        s.detector.options.deadTimeout) = some control) :
      Effect s a { s with
        control := control
        scans := s.scans ++ [⟨(s.detector.scanOnce s.control.registry now).1, 0, false⟩]
        loop := loop }
  | sleep {k c} (hloop : s.loop = .scanning k) (hc : s.scans[k]? = some c)
      (hdone : s.finished c = true) : Effect s .loopReturn { s with loop := .sleeping }
  | wake (hloop : s.loop = .sleeping) : Effect s .loopWake { s with loop := .atCheck }
  | callback {k order c dead rest control} (hc : s.scans[k]? = some c)
      (hcallback : s.hasCallback = true) (hout : c.inCallback = false)
      (hremaining : c.remaining = dead :: rest)
      (hstep : ControlSystem.step s.control (.deadBegin dead.nodeId dead.incarnation order) =
        some control) :
      Effect s (.callback k order) { s with
        control := control
        scans := s.scans.set k { c with next := c.next + 1, inCallback := true } }
  | next {k c control} (hc : s.scans[k]? = some c) (hin : c.inCallback = true)
      (hstep : ControlSystem.step s.control .deadNext = some control) :
      Effect s (.callbackNext k) { s with
        control := control
        scans := s.scans.set k { c with inCallback := control.handling.isSome } }

variable {s u : State} {a : Action}

theorem start_cases (detector : FailureDetector) : detector.start.1.ok = false ∨
    detector.running = false ∧ detector.start = (.OK, { detector with running := true }) := by
  simp only [FailureDetector.start]
  split_ifs with hscan hsuspect hdead hrunning
  · exact .inl rfl
  · exact .inl rfl
  · exact .inl rfl
  · exact .inl rfl
  · exact .inr ⟨by simpa using hrunning, rfl⟩

theorem act_of_step (h : step s a = some u) : s.terminated = false ∧ act s a = some u := by
  simp only [step] at h
  split at h
  · cases h
  · rename_i hgoes
    exact ⟨by simpa using hgoes, h⟩

theorem effect (h : step s a = some u) : Effect s a u := by
  replace h := (act_of_step h).2
  cases a with
  | control a =>
    simp only [act, Option.ite_none_left_eq_some] at h
    obtain ⟨ha, h⟩ := h
    obtain ⟨control, hstep, rfl⟩ := Option.map_eq_some_iff.mp h
    exact .control (by simpa using ha) hstep
  | startBegin =>
    simp only [act, Option.ite_none_right_eq_some] at h
    obtain ⟨howner, h⟩ := h
    cases h
    obtain hno | ⟨hdown, hstart⟩ := start_cases s.detector
    · rw [startBegin, if_neg (by rw [hno]; decide)]
      exact .ignored _ (.inl rfl)
    · rw [startBegin, hstart]
      exact .start howner hdown
  | startSpawn =>
    simp only [act, Option.ite_none_right_eq_some] at h
    obtain ⟨howner, h⟩ := h
    cases h
    simp only [startSpawn]
    split
    · rename_i hoff
      exact .spawn howner hoff
    · rename_i hon
      exact .terminate howner hon
  | shutdownBegin =>
    simp only [act, Option.ite_none_right_eq_some] at h
    obtain ⟨howner, h⟩ := h
    cases h
    simp only [shutdownBegin]
    split
    · rename_i hup
      exact .shutdown howner hup
    · exact .ignored _ (.inr rfl)
  | shutdownJoin =>
    simp only [act, Option.ite_none_right_eq_some] at h
    obtain ⟨⟨howner, hloop⟩, h⟩ := h
    cases h
    exact .join howner hloop
  | loopCheck =>
    simp only [act, Option.ite_none_right_eq_some] at h
    obtain ⟨hloop, h⟩ := h
    cases h
    split
    · rename_i hup
      exact .goOn hloop hup
    · rename_i hdown
      exact .leave hloop (by simpa using hdown)
  | loopScan now =>
    simp only [act, Option.ite_none_right_eq_some] at h
    obtain ⟨hloop, h⟩ := h
    obtain ⟨t, ht, rfl⟩ := Option.map_eq_some_iff.mp h
    obtain ⟨control, hstep, rfl⟩ := Option.map_eq_some_iff.mp ht
    exact .scan (.inl ⟨rfl, hloop, rfl⟩) hstep
  | loopReturn =>
    simp only [act] at h
    split at h
    · rename_i k hloop
      simp only [Option.ite_none_right_eq_some] at h
      obtain ⟨hany, h⟩ := h
      cases h
      obtain ⟨c, hc, hdone⟩ := (Option.any_eq_true _ _).mp hany
      exact .sleep hloop hc hdone
    · cases h
  | loopWake =>
    simp only [act, Option.ite_none_right_eq_some] at h
    obtain ⟨hloop, h⟩ := h
    cases h
    exact .wake hloop
  | scanOnce now =>
    simp only [act, beginScan] at h
    obtain ⟨control, hstep, rfl⟩ := Option.map_eq_some_iff.mp h
    exact .scan (.inr ⟨rfl, rfl⟩) hstep
  | callback k order =>
    simp only [act] at h
    split at h
    · rename_i c hc
      simp only [Option.ite_none_right_eq_some] at h
      obtain ⟨⟨hcallback, hout⟩, h⟩ := h
      simp only [callback] at h
      split at h
      · cases h
      · rename_i dead rest hremaining
        obtain ⟨control, hstep, rfl⟩ := Option.map_eq_some_iff.mp h
        exact .callback hc hcallback hout hremaining hstep
    · cases h
  | callbackNext k =>
    simp only [act] at h
    split at h
    · rename_i c hc
      simp only [Option.ite_none_right_eq_some] at h
      obtain ⟨hin, h⟩ := h
      obtain ⟨control, hstep, rfl⟩ := Option.map_eq_some_iff.mp h
      exact .next hc hin hstep
    · cases h

/-! ## The calls of ScanOnce -/

/-- A call and the others. -/
theorem split_scan {scans : List Scan} {k : Nat} {c : Scan} (h : scans[k]? = some c) :
    ∃ before after, scans = before ++ c :: after ∧
      ∀ c', scans.set k c' = before ++ c' :: after := by
  induction scans generalizing k with
  | nil => cases h
  | cons d scans ih =>
    cases k with
    | zero =>
      cases h
      exact ⟨[], scans, rfl, fun _ => rfl⟩
    | succ k =>
      obtain ⟨before, after, hscans, hset⟩ := ih h
      refine ⟨d :: before, after, by rw [hscans]; rfl, fun c' => ?_⟩
      rw [List.set_cons_succ, hset]
      rfl

/-- The lifetimes that have been found dead and not been handed over. -/
def State.held (s : State) : List DeadNodeLifetime := s.scans.flatMap Scan.remaining

theorem Scan.remaining_next {c : Scan} {dead : DeadNodeLifetime} {rest : List DeadNodeLifetime}
    (h : c.remaining = dead :: rest) (inCallback : Bool) :
    Scan.remaining { c with next := c.next + 1, inCallback := inCallback } = rest := by
  have hdrop : c.newlyDead.drop (c.next + 1) = (c.newlyDead.drop c.next).tail := by
    rw [List.tail_drop]
  rw [Scan.remaining, hdrop, show c.newlyDead.drop c.next = dead :: rest from h]
  rfl

theorem held_new (s : State) (control : ControlSystem.State) (loop : LoopPhase)
    (newlyDead : List DeadNodeLifetime) : State.held { s with
      control := control, scans := s.scans ++ [⟨newlyDead, 0, false⟩], loop := loop } =
        s.held ++ newlyDead := by
  simp [State.held, Scan.remaining]

/-- A callback takes its lifetime off what is held. -/
theorem held_callback {k : Nat} {c c' : Scan} {dead : DeadNodeLifetime}
    {rest : List DeadNodeLifetime} (hc : s.scans[k]? = some c) (h : c.remaining = dead :: rest)
    (h' : c'.remaining = rest) :
    s.held.Perm (dead :: (s.scans.set k c').flatMap Scan.remaining) := by
  obtain ⟨before, after, hscans, hset⟩ := split_scan hc
  rw [State.held, hset, hscans, List.flatMap_append, List.flatMap_cons, h, List.flatMap_append,
    List.flatMap_cons, h']
  exact List.perm_middle

theorem held_same {k : Nat} {c c' : Scan} (hc : s.scans[k]? = some c)
    (h : c'.remaining = c.remaining) : (s.scans.set k c').flatMap Scan.remaining = s.held := by
  obtain ⟨before, after, hscans, hset⟩ := split_scan hc
  rw [State.held, hset, hscans, List.flatMap_append, List.flatMap_cons, List.flatMap_append,
    List.flatMap_cons, h]

/-- One of the calls is in `HandleNodeDead` whenever somebody is. -/
def OneInside (scans : List Scan) (handling : Option ControlSystem.DeadCall) : Prop :=
  scans.countP Scan.inCallback = if handling.isSome then 1 else 0

theorem countP_set {k : Nat} {c : Scan} {scans : List Scan} (hc : scans[k]? = some c) (c' : Scan) :
    (scans.set k c').countP Scan.inCallback + (if c.inCallback then 1 else 0) =
      scans.countP Scan.inCallback + (if c'.inCallback then 1 else 0) := by
  obtain ⟨before, after, hscans, hset⟩ := split_scan hc
  rw [hset, hscans, List.countP_append, List.countP_append, List.countP_cons, List.countP_cons]
  omega

/-! ## The invariant -/

def LoopPhase.atWork : LoopPhase → Bool
  | .off | .exited => false
  | _ => true

/-- There is a thread when `running_` says so, up to the calls that are changing it. -/
def Placed (running : Bool) (loop : LoopPhase) : OwnerPhase → Prop
  | .idle => if running then loop.atWork = true else loop = .off
  | .starting => running = true ∧ loop = .off
  | .joining => running = false

/-- The thread goes on. -/
theorem Placed.move {running : Bool} {loop loop' : LoopPhase} {owner : OwnerPhase}
    (h : Placed running loop owner) (hwork : loop.atWork = true) (hwork' : loop'.atWork = true) :
    Placed running loop' owner := by
  cases owner with
  | idle =>
    cases running with
    | true => exact hwork'
    | false =>
      rw [show loop = .off from h] at hwork
      cases hwork
  | starting =>
    rw [h.2] at hwork
    cases hwork
  | joining => exact h

structure Sound (s : State) : Prop where
  going : s.terminated = false
  placed : Placed s.detector.running s.loop s.owner
  scanning : ∀ k, s.loop = .scanning k → k < s.scans.length
  inside : OneInside s.scans s.control.handling
  announced : s.control.announced.Perm s.held

theorem sound_initial (options : FailureDetectorOptions) (hasCallback : Bool) :
    Sound (.initial options hasCallback) where
  going := rfl
  placed := rfl
  scanning k h := by cases h
  inside := rfl
  announced := List.Perm.refl _

theorem Sound.step (hs : Sound s) (h : Effect s a u) : Sound u := by
  have hplaced := hs.placed
  cases h with
  | control ha hstep =>
    obtain ⟨hhandling, hannounced⟩ := ControlSystem.step_elsewhere hstep ha
    refine ⟨hs.going, hplaced, hs.scanning, ?_, ?_⟩
    · rw [hhandling]
      exact hs.inside
    · rw [hannounced]
      exact hs.announced
  | ignored => exact hs
  | start howner hdown =>
    rw [howner, hdown] at hplaced
    exact ⟨hs.going, ⟨rfl, hplaced⟩, hs.scanning, hs.inside, hs.announced⟩
  | spawn howner hoff =>
    rw [howner] at hplaced
    refine ⟨hs.going, ?_, nofun, hs.inside, hs.announced⟩
    simp only [Placed, hplaced.1, if_true]
    rfl
  | terminate howner hon =>
    rw [howner] at hplaced
    exact absurd hplaced.2 hon
  | shutdown => exact ⟨hs.going, rfl, hs.scanning, hs.inside, hs.announced⟩
  | join howner hloop =>
    have hdown : s.detector.running = false := by rwa [howner] at hplaced
    exact ⟨hs.going, by simp [Placed, hdown], nofun, hs.inside, hs.announced⟩
  | goOn hloop | sleep hloop | wake hloop =>
    exact ⟨hs.going, hplaced.move (by rw [hloop]; rfl) rfl, nofun, hs.inside,
      hs.announced⟩
  | leave hloop hdown =>
    refine ⟨hs.going, ?_, nofun, hs.inside, hs.announced⟩
    cases howner : s.owner with
    | joining => exact hdown
    | idle | starting =>
      -- no thread is left to leave
      rw [howner, hdown, hloop] at hplaced
      simp [Placed] at hplaced
  | @scan _ now control loop ha hstep =>
    cases hstep
    refine ⟨hs.going, ?_, fun k h => ?_, ?_, ?_⟩
    · obtain ⟨-, hloop, rfl⟩ | ⟨-, rfl⟩ := ha
      · exact hplaced.move (by rw [hloop]; rfl) rfl
      · exact hplaced
    · simp only [List.length_append, List.length_singleton]
      obtain ⟨-, -, rfl⟩ | ⟨-, rfl⟩ := ha
      · cases h
        exact Nat.lt_succ_self _
      · exact Nat.lt_succ_of_lt (hs.scanning k h)
    · rw [OneInside, List.countP_append]
      exact hs.inside
    · rw [held_new]
      exact hs.announced.append_right _
  | @callback k order c dead rest control hc hcallback hout hremaining hstep =>
    obtain ⟨hfree, -, rfl⟩ := ControlSystem.step_deadBegin hstep
    refine ⟨hs.going, hplaced, fun j hj => ?_, ?_, ?_⟩
    · rw [List.length_set]
      exact hs.scanning j hj
    · have hcount := countP_set hc { c with next := c.next + 1, inCallback := true }
      have hinside := hs.inside
      simp only [OneInside, hfree, hout, Option.isSome_none, Bool.false_eq_true, if_false,
        if_true, add_zero] at hinside hcount
      simp only [OneInside, Option.isSome_some, if_true]
      omega
    · have hheld := hs.announced.trans (held_callback hc hremaining
        (Scan.remaining_next hremaining true))
      have := hheld.erase dead
      rwa [List.erase_cons_head] at this
  | @next k c control hc hin hstep =>
    obtain ⟨hannounced, call, hcall, -⟩ := ControlSystem.step_turn hstep
    refine ⟨hs.going, hplaced, fun j hj => ?_, ?_, ?_⟩
    · rw [List.length_set]
      exact hs.scanning j hj
    · have hcount := countP_set hc { c with inCallback := control.handling.isSome }
      have hinside := hs.inside
      simp only [OneInside, hcall, hin, Option.isSome_some, if_true] at hinside hcount
      simp only [OneInside]
      omega
    · have hheld : (s.scans.set k { c with inCallback := control.handling.isSome }).flatMap
          Scan.remaining = s.held := held_same hc rfl
      rw [State.held, hheld, hannounced]
      exact hs.announced

/-! ## What is handed over -/

/-- The lifetimes of one call. -/
def ofCall (k : Nat) (events : List (Nat × DeadNodeLifetime)) : List DeadNodeLifetime :=
  events.filterMap fun e => if e.1 = k then some e.2 else none

/-- What has been found is what has been handed over and what is held, and each call hands over
what it has found from the front. -/
structure HandedOver (seen : List Event) (s : State) : Prop where
  all : ((found seen).map Prod.snd).Perm ((handled seen).map Prod.snd ++ s.held)
  call : ∀ k c, s.scans[k]? = some c → ofCall k (found seen) = c.newlyDead ∧
    ofCall k (handled seen) = c.newlyDead.take c.next
  noCall : ∀ k, s.scans.length ≤ k → ofCall k (found seen) = [] ∧ ofCall k (handled seen) = []

variable {seen : List Event}

theorem found_append (seen evs : List Event) : found (seen ++ evs) = found seen ++ found evs :=
  List.filterMap_append
theorem handled_append (seen evs : List Event) :
    handled (seen ++ evs) = handled seen ++ handled evs := List.filterMap_append
theorem ofCall_append (k : Nat) (es es' : List (Nat × DeadNodeLifetime)) :
    ofCall k (es ++ es') = ofCall k es ++ ofCall k es' := List.filterMap_append

theorem ofCall_map (k j : Nat) (lifetimes : List DeadNodeLifetime) :
    ofCall k (lifetimes.map (Prod.mk j)) = if j = k then lifetimes else [] := by
  by_cases hj : j = k <;> simp [ofCall, hj]

theorem found_map (k : Nat) (lifetimes : List DeadNodeLifetime) :
    found (lifetimes.map (Event.found k)) = lifetimes.map (Prod.mk k) ∧
      handled (lifetimes.map (Event.found k)) = [] := by
  constructor
  · simp [found, List.filterMap_map, Function.comp_def, Event.found?]
  · simp [handled, List.filterMap_map, Function.comp_def, Event.handled?]

theorem handedOver_initial (options : FailureDetectorOptions) (hasCallback : Bool) :
    HandedOver [] (.initial options hasCallback) where
  all := List.Perm.refl _
  call k c h := by simp [State.initial] at h
  noCall _ _ := ⟨rfl, rfl⟩

/-- A step that finds nothing and hands nothing over. -/
theorem HandedOver.quiet (h : HandedOver seen s) (hevents : events s a = [])
    (hscans : u.scans = s.scans) : HandedOver (seen ++ events s a) u where
  all := by
    rw [hevents, List.append_nil, State.held, hscans]
    exact h.all
  call k c hc := by
    rw [hevents, List.append_nil]
    exact h.call k c (hscans ▸ hc)
  noCall k hk := by
    rw [hevents, List.append_nil]
    exact h.noCall k (hscans ▸ hk)

theorem getElem?_set_scan {scans : List Scan} {k j : Nat} {c' d : Scan}
    (h : (scans.set k c')[j]? = some d) :
    j = k ∧ d = c' ∨ j ≠ k ∧ scans[j]? = some d := by
  rw [List.getElem?_set] at h
  split at h
  · rename_i hk
    subst hk
    split at h
    · cases h
      exact .inl ⟨rfl, rfl⟩
    · cases h
  · rename_i hk
    exact .inr ⟨Ne.symm hk, h⟩

theorem HandedOver.step (ho : HandedOver seen s) (h : Effect s a u) :
    HandedOver (seen ++ events s a) u := by
  cases h with
  | @scan _ now control loop ha hstep =>
    have hevents : events s a =
        (s.detector.scanOnce s.control.registry now).1.map (.found s.scans.length) := by
      obtain ⟨rfl, -⟩ | ⟨rfl, -⟩ := ha <;> rfl
    generalize (s.detector.scanOnce s.control.registry now).1 = newlyDead at hevents
    obtain ⟨hfound, hhandled⟩ := found_map s.scans.length newlyDead
    obtain ⟨hnone, hnone'⟩ := ho.noCall s.scans.length (Nat.le_refl _)
    rw [hevents]
    refine ⟨?_, fun k c hc => ?_, fun k hk => ?_⟩
    · rw [held_new, found_append, handled_append, hfound, hhandled, List.append_nil, List.map_append,
        ← List.append_assoc]
      have hsnd : (newlyDead.map (Prod.mk s.scans.length)).map Prod.snd = newlyDead := by simp
      rw [hsnd]
      exact ho.all.append_right _
    · rw [found_append, handled_append, hfound, hhandled, List.append_nil, ofCall_append,
        ofCall_map]
      obtain hlt | rfl | hgt := Nat.lt_trichotomy k s.scans.length
      · rw [List.getElem?_append_left hlt] at hc
        rw [if_neg (Nat.ne_of_gt hlt), List.append_nil]
        exact ho.call k c hc
      · rw [List.getElem?_concat_length] at hc
        cases hc
        rw [if_pos rfl, hnone, hnone']
        exact ⟨rfl, rfl⟩
      · rw [List.getElem?_eq_none (by simpa using Nat.succ_le_of_lt hgt)] at hc
        cases hc
    · have hlt : s.scans.length < k := Nat.lt_of_succ_le (by simpa using hk)
      rw [found_append, handled_append, hfound, hhandled, List.append_nil, ofCall_append,
        ofCall_map, if_neg (Nat.ne_of_lt hlt), List.append_nil]
      exact ho.noCall k hlt.le
  | @callback k order c dead rest control hc hcallback hout hremaining hstep =>
    have hevents : events s (.callback k order) = [.handled k dead] := by
      simp only [events, hc, hremaining]
      rfl
    obtain ⟨hcfound, hchandled⟩ := ho.call k c hc
    rw [hevents]
    refine ⟨?_, fun j d hd => ?_, fun j hj => ?_⟩
    · have hheld := held_callback hc hremaining (Scan.remaining_next hremaining true)
      rw [found_append, handled_append]
      simp only [found, handled, List.filterMap_cons, List.filterMap_nil, Event.found?,
        Event.handled?, List.append_nil, List.map_append, List.map_cons, List.map_nil,
        List.append_assoc]
      exact ho.all.trans (hheld.append_left _)
    · rw [found_append, handled_append, ofCall_append, ofCall_append]
      simp only [found, handled, List.filterMap_cons, List.filterMap_nil, Event.found?,
        Event.handled?, ofCall, List.append_nil]
      obtain ⟨rfl, rfl⟩ | ⟨hne, hd⟩ := getElem?_set_scan hd
      · have htake : c.newlyDead.take (c.next + 1) = c.newlyDead.take c.next ++ [dead] := by
          rw [List.take_add, show c.newlyDead.drop c.next = dead :: rest from hremaining]
          rfl
        rw [if_pos rfl]
        exact ⟨hcfound, by rw [htake, ← hchandled]; rfl⟩
      · rw [if_neg (Ne.symm hne), List.append_nil]
        exact ho.call j d hd
    · have hlt : k < s.scans.length := (List.getElem?_eq_some_iff.mp hc).1
      have hle : s.scans.length ≤ j := by simpa using hj
      rw [found_append, handled_append, ofCall_append, ofCall_append]
      simp only [found, handled, List.filterMap_cons, List.filterMap_nil, Event.found?,
        Event.handled?, ofCall, List.append_nil]
      rw [if_neg (by omega), List.append_nil]
      exact ho.noCall j hle
  | @next k c control hc hin hstep =>
    rw [show events s (.callbackNext k) = [] from rfl, List.append_nil]
    refine ⟨?_, fun j d hd => ?_, fun j hj => ho.noCall j (by simpa using hj)⟩
    · have hheld : (s.scans.set k { c with inCallback := control.handling.isSome }).flatMap
          Scan.remaining = s.held := held_same hc rfl
      rw [State.held, hheld]
      exact ho.all
    · obtain ⟨rfl, rfl⟩ | ⟨-, hd⟩ := getElem?_set_scan hd
      · exact ho.call j c hc
      · exact ho.call j d hd
  | ignored _ ha =>
    obtain rfl | rfl := ha <;> exact ho.quiet rfl rfl
  | control | start | spawn | terminate | shutdown | join | goOn | leave | sleep | wake =>
    exact ho.quiet rfl rfl

/-- No call of `ScanOnce` has a callback to make or is in one. -/
def State.atRest (s : State) : Prop := ∀ c ∈ s.scans, s.finished c = true

instance (s : State) : Decidable s.atRest := inferInstanceAs (Decidable (∀ _ ∈ _, _))

theorem held_atRest (hcallback : s.hasCallback = true) (hrest : s.atRest) : s.held = [] := by
  rw [State.held, List.flatMap_eq_nil_iff]
  intro c hc
  have hdone := hrest c hc
  simp only [State.finished, hcallback, Bool.and_eq_true, Bool.or_eq_true] at hdone
  simpa using hdone.2

theorem free_atRest (hs : Sound s) (hrest : s.atRest) : s.control.handling = none := by
  have hzero : s.scans.countP Scan.inCallback = 0 := by
    rw [List.countP_eq_zero]
    intro c hc hin
    have hdone := hrest c hc
    simp [State.finished, hin] at hdone
  have hinside := hs.inside
  rw [OneInside, hzero] at hinside
  by_contra hsome
  rw [if_pos (Option.isSome_iff_ne_none.mpr hsome)] at hinside
  cases hinside

/-! ## The runs -/

variable {as : List Action} {options : FailureDetectorOptions} {hasCallback : Bool}

theorem sound_run (h : Run.run step as (.initial options hasCallback) = some s) :
    Sound s ∧ s.hasCallback = hasCallback := by
  have hkept : ∀ (s : State) a u, Sound s ∧ s.hasCallback = hasCallback → step s a = some u →
      Sound u ∧ u.hasCallback = hasCallback := by
    rintro s a u ⟨hs, hsame⟩ hstep
    refine ⟨hs.step (effect hstep), ?_⟩
    cases effect hstep <;> exact hsame
  exact Run.invariant_run hkept h ⟨sound_initial options hasCallback, rfl⟩

/-- What the control plane learns of the lifetimes that the scans find dead. -/
structure Conveyed (seen : List Event) (s : State) : Prop where
  /-- Each call hands over what it has found, in order, from the front. -/
  inOrder : ∀ k c, s.scans[k]? = some c → ofCall k (found seen) = c.newlyDead ∧
    ofCall k (handled seen) = c.newlyDead.take c.next
  once : ((found seen).map Prod.snd).Perm ((handled seen).map Prod.snd ++ s.held)
  /-- What is announced is still to be handed over. -/
  announced : s.control.announced.Perm s.held
  complete : s.hasCallback = true → s.atRest →
    (∀ k, ofCall k (handled seen) = ofCall k (found seen)) ∧ s.control.announced = [] ∧
      s.control.handling = none

/-- Every lifetime that a scan finds dead is handed to `HandleNodeDead` once, whatever the scans
that go on at the same time. -/
theorem deaths_conveyed (h : Run.run step as (.initial options hasCallback) = some s) :
    Conveyed (Run.observed step events as (.initial options hasCallback)) s := by
  have hkept : ∀ seen (s : State) a u, HandedOver seen s → True → step s a = some u →
      HandedOver (seen ++ events s a) u := fun _ _ _ _ ho _ hstep => ho.step (effect hstep)
  have ho := Run.invariant_observed hkept (Run.along_true as _) h
    (handedOver_initial options hasCallback)
  rw [List.nil_append] at ho
  obtain ⟨hs, -⟩ := sound_run h
  refine ⟨ho.call, ho.all, hs.announced, fun hcallback hrest => ⟨fun k => ?_, ?_, free_atRest hs hrest⟩⟩
  · cases hc : s.scans[k]? with
    | none =>
      obtain ⟨hfound, hhandled⟩ := ho.noCall k (List.getElem?_eq_none_iff.mp hc)
      rw [hfound, hhandled]
    | some c =>
      obtain ⟨hfound, hhandled⟩ := ho.call k c hc
      have hdone := hrest c (List.mem_of_getElem? hc)
      simp only [State.finished, hcallback, Scan.remaining, Bool.and_eq_true, Bool.or_eq_true,
        List.isEmpty_iff, List.drop_eq_nil_iff] at hdone
      rw [hfound, hhandled, List.take_of_length_le]
      simpa using hdone.2
  · have hempty := hs.announced
    rwa [held_atRest hcallback hrest, List.perm_nil] at hempty

namespace Sample

def detector : State := .initial NodeRegistry.Sample.patient.options true

/-- A task is accepted by the node that registers at time 0. -/
def running : List Action :=
  [.registerNode (ControlSystem.Sample.node 1) 0, ControlSystem.Sample.reserve 1,
    .submitPublish (ControlSystem.Sample.task 1),
    .submitDispatched (ControlSystem.Sample.task 1) .OK].map .control

/-- The detector finds the node dead after twenty seconds, while somebody else scans too. -/
def nodeDies : List Action :=
  running ++ [.startBegin, .startSpawn, .loopCheck, .loopScan 20000000000,
    .scanOnce 20000000000, .callback 0 [ControlSystem.Sample.task 1], .callbackNext 0,
    .callbackNext 0, .loopReturn]

end Sample

theorem deaths_conveyed_node_dies :
    found (Run.observed step events Sample.nodeDies Sample.detector) =
      [(0, ⟨ControlSystem.Sample.nodeId, 1⟩)] ∧
    ofCall 0 (handled (Run.observed step events Sample.nodeDies Sample.detector)) =
      ofCall 0 (found (Run.observed step events Sample.nodeDies Sample.detector)) := by
  have hrun : Run.run step Sample.nodeDies Sample.detector =
      some (Run.stateAfter step Sample.nodeDies Sample.detector) :=
    Run.run_stateAfter (by decide)
  refine ⟨by decide, ?_⟩
  exact ((deaths_conveyed hrun).complete (by decide) (by decide)).1 0

/-! ## The tasks of dead nodes -/

/-- The step of the control plane that a step of the system takes, if it can leave an orphan. -/
def leavesNoOrphan (s : State) : Action → Bool
  | .control a => ControlSystem.leavesNoOrphan s.control a
  | .callbackNext _ => ControlSystem.leavesNoOrphan s.control .deadNext
  | _ => true

/-- The calls of the clients have returned. -/
def State.settled (s : State) : Prop :=
  (∀ t ∈ s.control.submits.keys, (s.control.phase t).settled = true) ∧
    ∀ k ∈ s.control.cancels.keys, (s.control.cancelPhase k).settled = true

instance (s : State) : Decidable s.settled := inferInstanceAs (Decidable (_ ∧ _))

theorem settled_phase (h : s.settled) (t : TaskID) : (s.control.phase t).settled = true := by
  by_cases ht : t ∈ s.control.submits.keys
  · exact h.1 t ht
  · have hnone : s.control.submits.lookup t = none :=
      Finmap.lookup_eq_none.mpr fun hmem => ht (Finmap.mem_keys.mpr hmem)
    simp [ControlSystem.State.phase, hnone, ControlSystem.SubmitPhase.settled]

/-- A step takes at most one step at the control plane. -/
theorem step_control (h : Effect s a u) : u.control = s.control ∨
    ∃ b, ControlSystem.step s.control b = some u.control ∧
      (leavesNoOrphan s a = true → ControlSystem.leavesNoOrphan s.control b = true) := by
  cases h with
  | control _ hstep => exact .inr ⟨_, hstep, id⟩
  | scan _ hstep | callback _ _ _ _ hstep => exact .inr ⟨_, hstep, fun _ => rfl⟩
  | next _ _ hstep => exact .inr ⟨_, hstep, id⟩
  | ignored | start | spawn | terminate | shutdown | join | goOn | leave | sleep | wake =>
    exact .inl rfl

/-- When the detector has nothing left to hand over, no live task is left on a dead node: what
the detector announces is all that the control plane has to be told. -/
theorem no_task_on_dead_node
    (h : Run.run step as (.initial options true) = some s)
    (hC : Run.Along step (fun s a => leavesNoOrphan s a = true) as (.initial options true))
    (hrest : s.atRest) (hsettled : s.settled) {t : TaskID} {record : DistributedTaskRecord}
    (hl : s.control.record t = some record) (hlive : isTerminal record.state = false) :
    ∃ state, s.control.registry.stateOf record.nodeId = some (record.nodeIncarnation, state) ∧
      state ≠ .dead := by
  have hkept : ∀ (s : State) a u, (s.control.registry.WellFormed ∧
      ControlSystem.Recorded s.control ∧ ControlSystem.Tended s.control) →
      leavesNoOrphan s a = true → step s a = some u → u.control.registry.WellFormed ∧
        ControlSystem.Recorded u.control ∧ ControlSystem.Tended u.control := by
    rintro s a u ⟨hwf, hrecorded, htended⟩ hno hstep
    obtain hsame | ⟨b, hb, hleaves⟩ := step_control (effect hstep)
    · rw [hsame]
      exact ⟨hwf, hrecorded, htended⟩
    · exact ⟨ControlSystem.step_wellFormed hwf hb, hrecorded.step hb,
        htended.step hwf hrecorded (hleaves hno) hb⟩
  obtain ⟨-, -, htended⟩ := Run.invariant hkept hC h
    ⟨NodeRegistry.wellFormed_empty, ControlSystem.recorded_initial, ControlSystem.tended_initial⟩
  obtain ⟨hs, hcallback⟩ := sound_run h
  have hempty : s.control.announced = [] := by
    have hperm := hs.announced
    rwa [held_atRest hcallback hrest, List.perm_nil] at hperm
  obtain hlives | hpromises :=
    ControlSystem.tends_iff.mp (htended t record ⟨hl, hlive, settled_phase hsettled t⟩)
  · exact ControlSystem.lives_iff.mp hlives
  obtain hannounced | ⟨call, hcall, -⟩ := ControlSystem.promises_iff.mp hpromises
  · rw [hempty] at hannounced
    cases hannounced
  · rw [free_atRest hs hrest] at hcall
    cases hcall

/-- After five seconds the node is only suspected. -/
theorem no_task_on_dead_node_suspect : ∃ state,
    (Run.stateAfter step (Sample.running ++ [.scanOnce 5000000000])
      Sample.detector).control.registry.stateOf ControlSystem.Sample.nodeId = some (1, state) ∧
    state ≠ .dead := by
  have hrun : Run.run step (Sample.running ++ [.scanOnce 5000000000]) Sample.detector =
      some (Run.stateAfter step (Sample.running ++ [.scanOnce 5000000000]) Sample.detector) :=
    Run.run_stateAfter (by decide)
  have hl : (Run.stateAfter step (Sample.running ++ [.scanOnce 5000000000])
      Sample.detector).control.record (ControlSystem.Sample.task 1) =
        some (ControlPlane.newRecord (ControlSystem.Sample.task 1)
          (ControlSystem.Sample.execution 1) (ControlSystem.Sample.node 1)
          ControlSystem.Sample.submission) := by decide
  exact no_task_on_dead_node hrun (by decide) (by decide) (by decide) hl (by decide)

end Detection

end AgentRuntime
