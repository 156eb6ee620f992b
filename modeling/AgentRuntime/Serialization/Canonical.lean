import AgentRuntime.Library.Run
import AgentRuntime.Serialization.Resources

/-!
# Histories of resource sets

Any sequence of calls of both overloads of `Set` and of decodings into the
set. Next to the set the state keeps the quantity that was accepted last for
each name.
-/
namespace AgentRuntime

namespace ResourceSet

/-- `operator==`, which compares the maps entry by entry. -/
def equals (lhs rhs : ResourceSet) : Bool := lhs.values.entries = rhs.values.entries

inductive Call where
  | setDouble (name : String) (quantity : Double)
  | set (name : String) (quantity : ResourceQuantity)
  /-- `FromProto` into the set; `order` is how the map is iterated. -/
  | fromProto (wire : WireResources) (order : List String)
      (enumerates : UnorderedMap.Enumerates order wire)

namespace Call

/-- The status the call returns and the set it leaves. -/
def reply (unspecified : Double → ResourceQuantity) (rs : ResourceSet) :
    Call → Status × ResourceSet
  | setDouble name quantity => rs.setDouble unspecified name quantity
  | set name quantity => rs.set name quantity
  | fromProto wire order _ =>
    let done := ResourceSet.fromProto unspecified wire order (some rs)
    (done.1, done.2.getD rs)

/-- The quantities accepted last, when the call is accepted. -/
def accepts (unspecified : Double → ResourceQuantity) (last : String → ResourceQuantity) :
    Call → String → ResourceQuantity
  | setDouble name quantity, name' =>
    if name' = name then (ResourceQuantity.fromDouble unspecified quantity).getD .zero
    else last name'
  | set name quantity, name' => if name' = name then quantity else last name'
  | fromProto wire _ _, name' =>
    ((wire.lookup name').bind (ResourceQuantity.fromDouble unspecified)).getD .zero

end Call

structure History where
  current : ResourceSet
  last : String → ResourceQuantity

namespace History

def initial : History := ⟨.empty, fun _ => .zero⟩

def step (unspecified : Double → ResourceQuantity) (h : History) (c : Call) : Option History :=
  some
    { current := (c.reply unspecified h.current).2
      last := if (c.reply unspecified h.current).1.ok then c.accepts unspecified h.last
        else h.last }

theorem run_total (unspecified : Double → ResourceQuantity) (calls : List Call) (h : History) :
    ∃ h', Run.run (step unspecified) calls h = some h' :=
  Run.run_total (fun _ _ => ⟨_, rfl⟩) calls h

end History

variable {unspecified : Double → ResourceQuantity}

theorem equals_iff (rs rs' : ResourceSet) :
    rs.equals rs' = true ↔ ∀ name, rs.get name = rs'.get name := by
  constructor
  · intro h name
    have he : rs.values.entries = rs'.values.entries := by simpa [equals] using h
    simp only [get, OrderedMap.lookup, he]
  · intro h
    simp [equals, ext_get h]

/-- A quantity that `Set` stores is the one that `FromDouble` makes of the entry. -/
theorem fromDouble_of_parsed {name : String} {quantity : Double} {q : ResourceQuantity}
    (h : parsed unspecified name quantity = some q) :
    ResourceQuantity.fromDouble unspecified quantity = some q := by
  simp only [parsed] at h
  split at h
  · exact (Option.filter_eq_some_iff.mp h).1
  · cases h

theorem accepted_of_ok {rs : ResourceSet} {name : String} {quantity : ResourceQuantity}
    (h : (rs.set name quantity).1.ok = true) :
    isValidResourceName name = true ∧ 0 ≤ quantity.value := by
  simp only [set] at h
  split at h
  · rename_i hvalid
    split at h
    · cases h
    · rename_i hneg
      rw [ResourceQuantity.lt_iff, ResourceQuantity.value_zero] at hneg
      exact ⟨hvalid, by omega⟩
  · cases h

/-- A call is refused and changes nothing, or the quantities accepted last are stored. -/
theorem Call.reply_cases (unspecified : Double → ResourceQuantity) (rs : ResourceSet) (c : Call) :
    ((c.reply unspecified rs).1.ok = false ∧ (c.reply unspecified rs).2 = rs) ∨
    (c.reply unspecified rs).1.ok = true ∧ ∀ last, (∀ name, rs.get name = last name) →
      ∀ name, (c.reply unspecified rs).2.get name = c.accepts unspecified last name := by
  cases c with
  | setDouble name quantity =>
    obtain ⟨-, status, hno, hset⟩ | ⟨q, hq, hset⟩ := setDouble_cases unspecified name quantity
    · left
      simp only [reply, hset]
      exact ⟨hno, trivial⟩
    · right
      obtain ⟨hok, hget⟩ := hset rs
      refine ⟨by simp [reply, hok], fun last hlast name' => ?_⟩
      simp only [reply, accepts, hget, fromDouble_of_parsed hq, Option.getD_some, hlast]
  | set name quantity =>
    cases hok : (rs.set name quantity).1.ok with
    | false => exact .inl ⟨hok, rs.set_rejected hok⟩
    | true =>
      obtain ⟨hvalid, hpos⟩ := accepted_of_ok hok
      refine .inr ⟨hok, fun last hlast name' => ?_⟩
      apply ResourceQuantity.ext
      have := (rs.set_spec hvalid hpos).2 name'
      simp only [amount] at this
      simp only [reply, accepts, this]
      split
      · rfl
      · rw [hlast]
  | fromProto wire order enumerates =>
    obtain ⟨haccepts, rs', hdone, hget⟩ | ⟨-, status, ⟨_, _, -, -, hstatus⟩, hdone⟩ :=
      fromProto_cases unspecified enumerates rs
    · right
      refine ⟨by simp [reply, hdone], fun last hlast name => ?_⟩
      simp only [reply, accepts, hdone, Option.getD_some, hget, wireQuantity]
      cases hl : wire.lookup name with
      | none => rfl
      | some quantity =>
        obtain ⟨q, hq⟩ := haccepts name (by rw [hl]; rfl)
        rw [wireQuantity, hl, Option.bind_some] at hq
        simp only [Option.bind_some, hq, fromDouble_of_parsed hq]
    · left
      simp only [reply, hdone, hstatus]
      exact ⟨rfl, rfl⟩

/-! ## The result -/

theorem History.step_last {h h' : History} {c : Call}
    (hlast : ∀ name, h.current.get name = h.last name) (hs : step unspecified h c = some h') :
    ∀ name, h'.current.get name = h'.last name := by
  cases hs
  intro name
  obtain ⟨hno, hsame⟩ | ⟨hok, hget⟩ := c.reply_cases unspecified h.current
  · simp only [hno, hsame, Bool.false_eq_true, if_false, hlast]
  · simp only [hok, if_true, hget h.last hlast]

/-- What decodings of one message into one set have in common, whatever the iteration order. -/
theorem fromProto_order {wire : WireResources} {order order' : List String}
    (ho : UnorderedMap.Enumerates order wire) (ho' : UnorderedMap.Enumerates order' wire)
    (old : ResourceSet) :
    (fromProto unspecified wire order (some old)).1.code =
      (fromProto unspecified wire order' (some old)).1.code ∧
    (fromProto unspecified wire order (some old)).2 =
      (fromProto unspecified wire order' (some old)).2 := by
  obtain ⟨haccepts, rs, hdone, hget⟩ | ⟨hrejects, status, ⟨_, _, -, -, hstatus⟩, hdone⟩ :=
    fromProto_cases unspecified ho old
  · obtain ⟨-, rs', hdone', hget'⟩ | ⟨hrejects, -⟩ := fromProto_cases unspecified ho' old
    · rw [hdone, hdone', ext_get fun name => (hget name).trans (hget' name).symm]
      exact ⟨rfl, rfl⟩
    · exact absurd haccepts hrejects
  · obtain ⟨haccepts, -⟩ | ⟨-, status', ⟨_, _, -, -, hstatus'⟩, hdone'⟩ :=
      fromProto_cases unspecified ho' old
    · exact absurd haccepts hrejects
    · rw [hdone, hdone', hstatus, hstatus']
      exact ⟨rfl, rfl⟩

/-- A set reached by any calls is canonical: it holds the quantities accepted last and nothing
else, refused calls leave it as it is, and it equals another such set exactly when `Get` does not
tell them apart. A message decodes in the same way in every iteration order. -/
theorem reachable_canonical (unspecified : Double → ResourceQuantity) (calls : List Call) :
    ∃ h, Run.run (History.step unspecified) calls .initial = some h ∧
    (∀ name quantity, h.current.values.lookup name = some quantity →
      isValidResourceName name = true ∧ 0 < quantity.value) ∧
    (∀ c : Call, (c.reply unspecified h.current).1.ok = false →
      (c.reply unspecified h.current).2 = h.current) ∧
    (∀ name, h.current.get name = h.last name) ∧
    (∀ calls' h', Run.run (History.step unspecified) calls' .initial = some h' →
      (h.current.equals h'.current = true ↔
        ∀ name, h.current.get name = h'.current.get name)) ∧
    ∀ wire order order', UnorderedMap.Enumerates order wire →
      UnorderedMap.Enumerates order' wire →
      (fromProto unspecified wire order (some h.current)).1.code =
        (fromProto unspecified wire order' (some h.current)).1.code ∧
      (fromProto unspecified wire order (some h.current)).2 =
        (fromProto unspecified wire order' (some h.current)).2 ∧
      ((fromProto unspecified wire order (some h.current)).1.ok = false →
        (fromProto unspecified wire order (some h.current)).2 = some h.current) := by
  obtain ⟨h, hr⟩ := History.run_total unspecified calls .initial
  refine ⟨h, hr, h.current.canonical, ?refused, ?last, ?equal, ?order⟩
  case refused =>
    intro c hno
    obtain ⟨-, hsame⟩ | ⟨hok, -⟩ := c.reply_cases unspecified h.current
    · exact hsame
    · rw [hno] at hok
      cases hok
  case last =>
    exact Run.invariant_run (I := fun u : History => ∀ name, u.current.get name = u.last name)
      (fun _ _ _ hlast hs => History.step_last hlast hs) hr fun _ => rfl
  case equal => exact fun _ h' _ => equals_iff h.current h'.current
  case order =>
    intro wire order order' ho ho'
    obtain ⟨hcode, hsame⟩ := fromProto_order ho ho' h.current
    refine ⟨hcode, hsame, fun hno => ?_⟩
    obtain ⟨-, rs, hdone, -⟩ | ⟨-, status, -, hdone⟩ :=
      fromProto_cases unspecified ho h.current
    · rw [hdone] at hno
      cases hno
    · rw [hdone]

end ResourceSet

end AgentRuntime
