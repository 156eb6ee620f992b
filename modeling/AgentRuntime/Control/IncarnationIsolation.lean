import AgentRuntime.Control.TaskSteps

/-!
# The pools of different incarnations

A record names the lifetime it was reserved from, and `NodeRegistry::Release`
receives only the NodeID. Here it is worked out exactly which releases reach
the pool of a lifetime that is not theirs.
-/
namespace AgentRuntime

namespace ControlSystem

variable {s u : State}

/-- The lifetime for which a step may change a pool: the one it reserves from, or the one its
task was reserved from. -/
def actsFor (s : State) (a : Action) : Option (NodeID × Nat) :=
  match releaseCall s a with
  | some r => some (r.nodeId, r.incarnation)
  | none => (reservedNode s a).map fun node => (node.nodeId, node.incarnation)

/-- The step changes the pool of a lifetime that stays registered only on behalf of exactly
that lifetime. -/
def Isolated (s : State) (a : Action) : Prop :=
  ∀ u, step s a = some u → ∀ id i pool pool', s.registry.poolOf id = some (i, pool) →
    u.registry.poolOf id = some (i, pool') → pool' ≠ pool → actsFor s a = some (id, i)

/-- A release finds its own lifetime registered, or none, or a pool with less in use than it
would give back, or it gives nothing back. -/
def releasesOwnLifetime (s : State) (a : Action) : Bool :=
  (releaseCall s a).all fun r =>
    (s.registry.poolOf r.nodeId).all fun registered =>
      registered.1 = r.incarnation || !registered.2.canRelease r.resources ||
        r.resources.resources.values.entries = []

theorem amount_of_no_entries {request : ResourceRequest}
    (h : request.resources.values.entries = []) (name : String) : request.amount name = 0 :=
  ResourcePool.amount_of_unlisted (by rw [h]; rfl)

/-- Releasing changes a pool exactly when something is given back. -/
theorem release_eq_self_iff {pool : ResourcePool} {request : ResourceRequest}
    (hfit : pool.canRelease request = true) :
    (pool.release request).2 = pool ↔ request.resources.values.entries = [] := by
  obtain ⟨-, htotal, hamount⟩ := ResourcePool.release_fits hfit
  constructor
  · intro he
    rw [List.eq_nil_iff_forall_not_mem]
    rintro ⟨name, quantity⟩ hmem
    have hpos := (request.resources.canonical name quantity
      (OrderedMap.lookup_eq_some_iff.mpr hmem)).2
    have hname := hamount name
    rw [he, ResourcePool.amount_of_mem hmem] at hname
    simp only at hname
    omega
  · intro hnil
    have havail : (pool.release request).2.available = pool.available := by
      apply ResourceSet.ext_amount
      intro name
      rw [hamount name, amount_of_no_entries hnil]
      omega
    cases hrel : (pool.release request).2
    cases pool
    simp_all

theorem isolated_def {a : Action} (h : step s a = some u) :
    Isolated s a ↔ ∀ id i pool pool', s.registry.poolOf id = some (i, pool) →
      u.registry.poolOf id = some (i, pool') → pool' ≠ pool → actsFor s a = some (id, i) := by
  constructor
  · intro hi
    exact hi u h
  · intro hi u' hu'
    rw [h] at hu'
    cases hu'
    exact hi

/-- A release that gave nothing back was refused, so its condition holds. -/
theorem releasesOwnLifetime_of_refused {a : Action} (hgiven : givenBack s a = []) :
    releasesOwnLifetime s a = true := by
  simp only [releasesOwnLifetime]
  cases hr : releaseCall s a with
  | none => rfl
  | some r =>
    cases hp : s.registry.poolOf r.nodeId with
    | none => simp [hp]
    | some registered =>
      have hno : (s.registry.release r.nodeId r.resources).1.ok = false := by
        cases hok : (s.registry.release r.nodeId r.resources).1.ok with
        | false => rfl
        | true =>
          rw [givenBack_of_ok hr hok] at hgiven
          cases hgiven
      obtain ⟨i, pool⟩ := registered
      obtain ⟨stored, hl, -, hpool⟩ := NodeRegistry.lookup_of_poolOf hp
      obtain ⟨-, -, hrefused⟩ | ⟨stored', -, -, he⟩ := s.registry.release_cases r.nodeId r.resources
      · have hfit := hrefused stored hl
        rw [hpool] at hfit
        simp [hp, hfit]
      · rw [he] at hno
        cases hno

/-- For one step of a well-formed state the law holds exactly under the condition. -/
theorem isolated_iff {a : Action} (hwf : s.registry.WellFormed) (h : step s a = some u) :
    Isolated s a ↔ releasesOwnLifetime s a = true := by
  rw [isolated_def h]
  cases step_pools hwf h with
  | same hcalls hgiven hpools =>
    refine iff_of_true ?_ (releasesOwnLifetime_of_refused hgiven)
    intro id i pool pool' hp hp' hne
    rw [hpools, hp] at hp'
    cases hp'
    exact absurd rfl hne
  | registered node now ha hcalls hgiven hstarts hpools =>
    refine iff_of_true ?_ (releasesOwnLifetime_of_refused hgiven)
    intro id i pool pool' hp hp' hne
    rw [hpools] at hp'
    split at hp'
    · rename_i hid
      rw [hid] at hp
      cases hp'
      exact absurd (hstarts.2 _ (NodeRegistry.lifetimeOf_of_poolOf hp)) (lt_irrefl _)
    · rw [hp] at hp'
      cases hp'
      exact absurd rfl hne
  | removed nodeId incarnation ha hcalls hgiven hold hpools =>
    refine iff_of_true ?_ (releasesOwnLifetime_of_refused hgiven)
    intro id i pool pool' hp hp' hne
    rw [hpools] at hp'
    split at hp'
    · cases hp'
    · rw [hp] at hp'
      cases hp'
      exact absurd rfl hne
  | reserved t call pool ha hres hnone hcalls hpool hfit hpools =>
    refine iff_of_true ?_ (releasesOwnLifetime_of_refused (givenBack_of_none ha))
    intro id i pool₁ pool' hp hp' hne
    rw [hpools] at hp'
    split at hp'
    · rename_i hid
      cases hp'
      simp [actsFor, ha, hres, hid]
    · rw [hp] at hp'
      cases hp'
      exact absurd rfl hne
  | released r i pool ha hcalls hgiven hpool hfit hpools =>
    have hcond : releasesOwnLifetime s a = true ↔
        i = r.incarnation ∨ r.resources.resources.values.entries = [] := by
      simp [releasesOwnLifetime, ha, hpool, hfit]
    rw [hcond]
    constructor
    · intro hiso
      by_cases hself : (pool.release r.resources).2 = pool
      · exact .inr ((release_eq_self_iff hfit).mp hself)
      · have hacts := hiso r.nodeId i pool _ hpool (by rw [hpools, if_pos rfl]) hself
        simp only [actsFor, ha, Option.some.injEq, Prod.mk.injEq, true_and] at hacts
        exact .inl hacts.symm
    · intro hown id i' pool₁ pool' hp hp' hne
      rw [hpools] at hp'
      split at hp'
      · rename_i hid
        rw [hid, hpool] at hp
        cases hp
        cases hp'
        obtain hi | hnil := hown
        · simp [actsFor, ha, hid, hi]
        · exact absurd ((release_eq_self_iff hfit).mpr hnil) hne
      · rw [hp] at hp'
        cases hp'
        exact absurd rfl hne

/-- In a run from the empty control plane every step is isolated exactly when every release
finds its own lifetime registered, or does not reach a pool, or gives nothing back. -/
theorem run_isolated_iff {as : List Action} (hrun : Run.run step as .initial = some s) :
    Run.Along step Isolated as .initial ↔
      Run.Along step (fun s a => releasesOwnLifetime s a = true) as .initial :=
  Run.along_congr (I := fun v => v.registry.WellFormed)
    (fun _ _ _ hv hw => step_wellFormed hv hw) (fun _ _ _ hv hw => isolated_iff hv hw) hrun
    NodeRegistry.wellFormed_empty

/-- A task of the first incarnation is reported after the second one is registered, while
nothing is in use there. -/
theorem run_isolated_iff_idle : Run.Along step Isolated [.registerNode (Sample.node 1) 0,
      Sample.reserve 1, .submitPublish (Sample.task 1), .registerNode (Sample.node 2) 1,
      Sample.succeed 1] .initial :=
  (run_isolated_iff (Run.run_stateAfter (by decide))).mpr (by decide)

/-- The second incarnation is in use when the report of the first one arrives. -/
def beforeLateReport : List Action :=
  [.registerNode (Sample.node 1) 0, Sample.reserve 1, .submitPublish (Sample.task 1),
    .registerNode (Sample.node 2) 1, Sample.reserve 2]

/-- The late report gives the first incarnation's reservation back to the second one. -/
theorem late_report_reaches_new_incarnation : ¬ ∀ (as : List Action) (s : State),
    Run.run step as .initial = some s → Run.Along step Isolated as .initial := by
  intro h
  have hiso := Run.along_iff.mp (h (beforeLateReport ++ [Sample.succeed 1]) _
    (Run.run_stateAfter (by decide))) beforeLateReport (Sample.succeed 1) []
    (Run.stateAfter step beforeLateReport .initial) rfl (Run.run_stateAfter (by decide))
  have hwf : (Run.stateAfter step beforeLateReport .initial).registry.WellFormed :=
    Run.invariant_run (I := fun v => v.registry.WellFormed)
      (fun _ _ _ hv hw => step_wellFormed hv hw) (Run.run_stateAfter (by decide))
      NodeRegistry.wellFormed_empty
  obtain ⟨u, hu⟩ := Option.isSome_iff_exists.mp (show (step (Run.stateAfter step
    beforeLateReport .initial) (Sample.succeed 1)).isSome = true by decide)
  exact absurd ((isolated_iff hwf hu).mp hiso) (by decide)

end ControlSystem

end AgentRuntime
