import AgentRuntime.Node.RegistryHistory

/-!
# Death of a lifetime

`UpdateLiveness` sets a lifetime dead and announces it. Its death lives in one
field of the entry: it is forgotten with the entry, and a registration under
the same incarnation after a removal makes the lifetime alive again.
-/
namespace AgentRuntime

namespace NodeRegistry

namespace History

variable {s t : History} {c : Call}

/-- Registrations reach the registry through the service, which builds alive records. -/
def throughService : Call → Prop
  | .registerNode node _ => node.state = .alive
  | _ => True

/-- What is said of the lifetimes that have been dead in the course of a history. -/
structure DeathFinal (calls : List Call) : Prop where
  final : ∀ before between after s t, calls = before ++ between ++ after →
    Run.run step before initial = some s → Run.run step between s = some t →
    ∀ id i, s.registry.stateOf id = some (i, .dead) →
      ∀ state, t.registry.stateOf id = some (i, state) → state = .dead
  unselected : ∀ before between c after s t, calls = before ++ between ++ c :: after →
    Run.run step before initial = some s → Run.run step between s = some t →
    ∀ id i, s.registry.stateOf id = some (i, .dead) →
      ∀ node, c.selects t.registry = some node → ¬ (node.nodeId = id ∧ node.incarnation = i)
  once : ∀ u, Run.run step calls initial = some u → u.announced.Nodup

/-- No registration starts a lifetime that has been announced dead before. -/
def startsUndead (s : History) : Call → Prop
  | .registerNode node _ => startsLifetime s.registry node →
    ⟨node.nodeId, node.incarnation⟩ ∉ s.announced
  | _ => True

instance (s : History) : (c : Call) → Decidable (startsUndead s c)
  | .registerNode _ _ => inferInstanceAs (Decidable (_ → _))
  | .heartbeat .. => .isTrue trivial
  | .updateLiveness .. => .isTrue trivial
  | .removeNode .. => .isTrue trivial
  | .reserveFirstFit .. => .isTrue trivial
  | .release .. => .isTrue trivial

/-- The announced lifetimes are those that died, each once, and the registry knows which of its
own are among them. -/
structure Deaths (s : History) : Prop where
  wellFormed : WellFormed s.registry
  known : ∀ id i state, s.registry.stateOf id = some (i, state) →
    (state = .dead ↔ ⟨id, i⟩ ∈ s.announced)
  once : s.announced.Nodup

theorem deaths_initial : Deaths initial where
  wellFormed := wellFormed_empty
  known := by
    intro id i state h
    simp [initial, stateOf, empty] at h
  once := .nil

theorem announces_spec {reg : NodeRegistry} (h : WellFormed reg) (c : Call) :
    (c.announces reg).Nodup ∧ ∀ id i, ⟨id, i⟩ ∈ c.announces reg →
      (∃ state, reg.stateOf id = some (i, state) ∧ state ≠ .dead) ∧
      (c.reply reg).2.stateOf id = some (i, .dead) := by
  cases c with
  | updateLiveness now suspect dead => exact updateLiveness_announces h now suspect dead
  | registerNode | heartbeat | removeNode | reserveFirstFit | release =>
    exact ⟨.nil, by simp [Call.announces]⟩

theorem deaths_step (hd : Deaths s) (hc : startsUndead s c ∧ throughService c)
    (h : step s c = some t) : Deaths t := by
  obtain ⟨hundead, hservice⟩ := hc
  cases h
  obtain ⟨hnodup, hannounced⟩ := announces_spec hd.wellFormed c
  refine ⟨c.wellFormed hd.wellFormed, ?_, ?_⟩
  · intro id i state hs
    rw [List.mem_append]
    have hnew : ⟨id, i⟩ ∈ c.announces s.registry → state = .dead := by
      intro hmem
      have hafter := (hannounced id i hmem).2
      rw [hafter] at hs
      cases hs
      rfl
    cases c.lifetimeMove hd.wellFormed id with
    | kept same =>
      rw [same] at hs
      have := hd.known id i state hs
      tauto
    | started node now call key starts after =>
      rw [after] at hs
      cases hs
      subst call
      subst key
      have halive : node.state = .alive := hservice
      have hnot := hundead starts
      simp [halive, hnot, Call.announces]
    | removed _ _ _ after =>
      rw [after] at hs
      cases hs
    | judged _ old new before after final dies =>
      rw [after] at hs
      cases hs
      have := hd.known id i old before
      tauto
  · apply hd.once.append hnodup
    rintro ⟨id, i⟩ hold hmem
    obtain ⟨state, hs, hlive⟩ := (hannounced id i hmem).1
    exact hlive ((hd.known id i state hs).mpr hold)

theorem wellFormed_step (hw : WellFormed s.registry) (h : step s c = some t) :
    WellFormed t.registry := by
  cases h
  exact c.wellFormed hw

theorem announced_mono {calls : List Call} (h : Run.run step calls s = some t) :
    s.announced ⊆ t.announced :=
  Run.monotone_run (R := fun s t => s.announced ⊆ t.announced) (fun _ _ h => h)
    (fun _ _ _ h h' => List.Subset.trans h h')
    (fun _ _ _ _ h => by
      cases h
      exact List.subset_append_left _ _)
    (Run.along_true calls s) h

/-- What has been announced was dead in the registry at some point of the history. -/
theorem announced_was_dead {calls : List Call} (h : Run.run step calls initial = some t)
    {id : NodeID} {i : Nat} (hmem : ⟨id, i⟩ ∈ t.announced) :
    ∃ before between s, calls = before ++ between ∧ Run.run step before initial = some s ∧
      Run.run step between s = some t ∧ s.registry.stateOf id = some (i, .dead) := by
  induction calls using List.reverseRecOn generalizing t with
  | nil =>
    cases h
    cases hmem
  | append_singleton calls c ih =>
    obtain ⟨u, hu, hstep⟩ := Run.run_split h
    have hwf : WellFormed u.registry :=
      Run.invariant_run (fun _ _ _ hw h => wellFormed_step hw h) hu wellFormed_empty
    rw [Run.run_cons, Option.bind_eq_some_iff] at hstep
    obtain ⟨t', ht', he⟩ := hstep
    cases he
    by_cases hold : ⟨id, i⟩ ∈ u.announced
    · obtain ⟨before, between, s, rfl, hs, hbetween, hdead⟩ := ih hu hold
      exact ⟨before, between ++ [c], s, List.append_assoc _ _ _, hs,
        Run.run_append_some hbetween (by rw [Run.run_cons, ht']; rfl), hdead⟩
    · refine ⟨calls ++ [c], [], t, (List.append_nil _).symm, h, rfl, ?_⟩
      cases ht'
      obtain hmem | hmem := List.mem_append.mp hmem
      · exact absurd hmem hold
      · exact ((announces_spec hwf c).2 id i hmem).2

/-- A registration that starts a lifetime again that has been dead brings it back. -/
theorem DeathFinal.undead {calls : List Call} (h : DeathFinal calls)
    (hservice : ∀ c ∈ calls, throughService c) : Run.Along step startsUndead calls initial := by
  apply Run.along_iff.mpr
  intro pre c post t he ht
  subst he
  cases c with
  | registerNode node now =>
    intro hstarts hmem
    obtain ⟨before, between, s, rfl, hs, hbetween, hdead⟩ := announced_was_dead ht hmem
    have hafter : ((Call.registerNode node now).reply t.registry).2.stateOf node.nodeId =
        some (node.incarnation, node.state) := by
      obtain ⟨hno, -, -⟩ | ⟨-, -, hstates⟩ := registerNode_reply t.registry node now
      · exact absurd hstarts hno
      · simp [Call.reply, hstates]
    have hrevived := h.final before (between ++ [.registerNode node now]) post s _ (by simp) hs
      (Run.run_append_some hbetween rfl) _ _ hdead _ hafter
    have halive : node.state = .alive := hservice (.registerNode node now) (by simp)
    rw [halive] at hrevived
    cases hrevived
  | heartbeat | updateLiveness | removeNode | reserveFirstFit | release => exact trivial

theorem deaths_run {calls : List Call} (h : Run.run step calls s = some t)
    (hc : Run.Along step (fun s c => startsUndead s c ∧ throughService c) calls s)
    (hd : Deaths s) : Deaths t :=
  Run.invariant (fun _ _ _ => deaths_step) hc h hd

/-- What is dead has been announced, and what has been announced is dead if it is there. -/
theorem Deaths.stays_dead {calls : List Call} (hs : Deaths s) (ht : Deaths t)
    (h : Run.run step calls s = some t) {id : NodeID} {i : Nat} {state : NodeState}
    (hdead : s.registry.stateOf id = some (i, .dead))
    (hstate : t.registry.stateOf id = some (i, state)) : state = .dead :=
  (ht.known id i state hstate).mpr (announced_mono h ((hs.known id i .dead hdead).mp rfl))

theorem deathFinal_of_undead {calls : List Call}
    (hc : Run.Along step (fun s c => startsUndead s c ∧ throughService c) calls initial) :
    DeathFinal calls := by
  have hdeaths : ∀ before between after s t, calls = before ++ between ++ after →
      Run.run step before initial = some s → Run.run step between s = some t →
      Deaths s ∧ Deaths t := by
    rintro before between after s t rfl hs ht
    rw [List.append_assoc, Run.along_append hs, Run.along_append ht] at hc
    have hds := deaths_run hs hc.1 deaths_initial
    exact ⟨hds, deaths_run ht hc.2.1 hds⟩
  refine ⟨?_, ?_, ?_⟩
  · intro before between after s t he hs ht id i hdead state hstate
    obtain ⟨hds, hdt⟩ := hdeaths before between after s t he hs ht
    exact hds.stays_dead hdt ht hdead hstate
  · rintro before between c after s t he hs ht id i hdead node hnode ⟨rfl, rfl⟩
    obtain ⟨hds, hdt⟩ := hdeaths before between (c :: after) s t he hs ht
    cases c with
    | reserveFirstFit request =>
      have halive := reserveFirstFit_selects hdt.wellFormed hnode
      cases hds.stays_dead hdt ht hdead halive
    | registerNode | heartbeat | updateLiveness | removeNode | release => cases hnode
  · intro u hu
    exact (deaths_run hu hc deaths_initial).once

/-- Death is final and announced once exactly when no registration starts a lifetime again that
has been announced dead. -/
theorem death_final_iff (calls : List Call) (hservice : ∀ c ∈ calls, throughService c) :
    DeathFinal calls ↔ Run.Along step startsUndead calls initial := by
  have hservice' : Run.Along step (fun _ c => throughService c) calls initial :=
    Run.along_iff.mpr fun _ c _ _ he _ => hservice c (by simp [he])
  exact ⟨fun h => h.undead hservice, fun h => deathFinal_of_undead (h.and hservice')⟩

namespace Sample

/-- The worker dies, restarts under the next incarnation, dies again and is removed. -/
def diedTwice : List Call :=
  [NodeRegistry.Sample.register 1, .updateLiveness 5000000000 1000 3000,
    NodeRegistry.Sample.register 2, .updateLiveness 9000000000 1000 3000,
    .removeNode NodeRegistry.Sample.nodeId 2]

end Sample

theorem death_final_iff_died_twice :
    DeathFinal (Sample.diedTwice ++ [NodeRegistry.Sample.register 3]) :=
  (death_final_iff _
    (by simp [Sample.diedTwice, NodeRegistry.Sample.register, throughService])).mpr (by decide)

/-- A late duplicate of the dead lifetime's registration makes it alive again, and the next scan
announces it once more. -/
theorem dead_lifetime_revived : ∃ s t u,
    Run.run step Sample.diedTwice initial = some s ∧
    Run.run step [NodeRegistry.Sample.register 2] s = some t ∧
    Run.run step [.updateLiveness 20000000000 1000 3000] t = some u ∧
    ⟨NodeRegistry.Sample.nodeId, 2⟩ ∈ s.announced ∧
    t.registry.stateOf NodeRegistry.Sample.nodeId = some (2, .alive) ∧
    u.announced.count ⟨NodeRegistry.Sample.nodeId, 2⟩ = 2 ∧
    ¬ DeathFinal (Sample.diedTwice ++ [NodeRegistry.Sample.register 2,
      .updateLiveness 20000000000 1000 3000]) := by
  refine ⟨_, _, _, Run.run_stateAfter (by decide), Run.run_stateAfter (by decide),
    Run.run_stateAfter (by decide), by decide, by decide, by decide, fun h => ?_⟩
  exact absurd (h.once _ (Run.run_stateAfter (by decide))) (by decide)

end History

end NodeRegistry

end AgentRuntime
