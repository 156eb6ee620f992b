import AgentRuntime.Core.Rescaling
import AgentRuntime.Library.UnorderedMap
import Mathlib.Data.String.Basic

/-!
# Resource sets on the wire

`ToProto` and `FromProto` for resource sets. The message is an unordered map
from names to floating point quantities. `FromProto` visits its entries in an
order that the map does not promise, and stops at the first one that `Set`
rejects.
-/
namespace AgentRuntime

/-- The field `quantities` of the message. -/
abbrev WireResources := UnorderedMap String Double

namespace ResourceSet

def toProto (rs : ResourceSet) : WireResources :=
  rs.values.entries.foldl (fun quantities e => quantities.insert e.1 e.2.toDouble) ∅

/-- The loop of `FromProto`, over the names in the order of the iteration. -/
def decodeFrom (unspecified : Double → ResourceQuantity) (wire : WireResources) :
    List String → ResourceSet → Status × ResourceSet
  | [], decoded => (.OK, decoded)
  | name :: rest, decoded =>
    match wire.lookup name with
    | none => decodeFrom unspecified wire rest decoded
    | some quantity =>
      let next := decoded.setDouble unspecified name quantity
      if next.1.ok then decodeFrom unspecified wire rest next.2
      else (.InvalidArgument
        ("invalid wire resource '" ++ name ++ "': " ++ next.1.toString), next.2)

/-- `FromProto` with the set that `out` points to; there is none when `out` is null. -/
def fromProto (unspecified : Double → ResourceQuantity) (wire : WireResources)
    (order : List String) (out : Option ResourceSet) : Status × Option ResourceSet :=
  match out with
  | none => (.InvalidArgument "output ResourceSet pointer must not be null", none)
  | some old =>
    let done := decodeFrom unspecified wire order .empty
    if done.1.ok then (.OK, some done.2) else (done.1, some old)

variable {unspecified : Double → ResourceQuantity} {wire : WireResources}

/-! ## One entry -/

/-- The quantity that `Set` stores for an entry, when it accepts it. -/
def parsed (unspecified : Double → ResourceQuantity) (name : String) (quantity : Double) :
    Option ResourceQuantity :=
  if isValidResourceName name then
    (ResourceQuantity.fromDouble unspecified quantity).filter fun q => !decide (q < .zero)
  else none

/-- What `Set` accepts does not depend on the set. -/
theorem setDouble_cases (unspecified : Double → ResourceQuantity) (name : String)
    (quantity : Double) :
    (parsed unspecified name quantity = none ∧ ∃ status : Status, status.ok = false ∧
      ∀ rs : ResourceSet, rs.setDouble unspecified name quantity = (status, rs)) ∨
    ∃ q, parsed unspecified name quantity = some q ∧ ∀ rs : ResourceSet,
      (rs.setDouble unspecified name quantity).1 = .OK ∧
      ∀ name', (rs.setDouble unspecified name quantity).2.get name' =
        if name' = name then q else rs.get name' := by
  simp only [setDouble, parsed]
  by_cases hn : isValidResourceName name = true
  · simp only [hn, if_true]
    cases hq : ResourceQuantity.fromDouble unspecified quantity with
    | none => exact .inl ⟨rfl, _, rfl, fun _ => rfl⟩
    | some q =>
      by_cases hneg : q < .zero
      · refine .inl ⟨by simp [hneg], .InvalidArgument "resource quantity cannot be negative", rfl, ?_⟩
        intro rs
        simp [set, hn, hneg]
      · refine .inr ⟨q, by simp [hneg], ?_⟩
        intro rs
        have hpos : 0 ≤ q.value := by
          rw [ResourceQuantity.lt_iff] at hneg
          simpa using hneg
        obtain ⟨hok, hset⟩ := rs.set_spec hn hpos
        refine ⟨hok, fun name' => ?_⟩
        apply ResourceQuantity.ext
        have := hset name'
        simp only [amount] at this
        rw [this]
        split <;> rfl
  · exact .inl ⟨by simp [hn], .InvalidArgument "invalid resource name", rfl, fun rs => by simp [hn]⟩

/-- A canonical set is determined by what `Get` returns. -/
theorem ext_get {rs rs' : ResourceSet} (h : ∀ name, rs.get name = rs'.get name) : rs = rs' :=
  ext_amount fun name => congrArg ResourceQuantity.value (h name)

theorem get_of_lookup {rs : ResourceSet} {name : String} {q : ResourceQuantity}
    (h : rs.values.lookup name = some q) : rs.get name = q := by
  simp only [get, h]

/-! ## The loop -/

/-- The quantity that an entry of the message stands for. -/
def wireQuantity (unspecified : Double → ResourceQuantity) (wire : WireResources)
    (name : String) : Option ResourceQuantity :=
  (wire.lookup name).bind (parsed unspecified name)

/-- Some entry of the message is rejected; the status names one. -/
def Rejection (unspecified : Double → ResourceQuantity) (wire : WireResources)
    (status : Status) : Prop :=
  ∃ name reason, (wire.lookup name).isSome = true ∧ wireQuantity unspecified wire name = none ∧
    status = .InvalidArgument ("invalid wire resource '" ++ name ++ "': " ++ reason)

theorem decodeFrom_cons {name : String} {quantity : Double} (h : wire.lookup name = some quantity)
    (rest : List String) (decoded : ResourceSet) :
    decodeFrom unspecified wire (name :: rest) decoded =
      if (decoded.setDouble unspecified name quantity).1.ok then
        decodeFrom unspecified wire rest (decoded.setDouble unspecified name quantity).2
      else (.InvalidArgument ("invalid wire resource '" ++ name ++ "': " ++
          (decoded.setDouble unspecified name quantity).1.toString),
        (decoded.setDouble unspecified name quantity).2) := by
  simp only [decodeFrom, h]

/-- When every entry is accepted the loop stores each of them. -/
theorem decodeFrom_accepts {order : List String} (hnodup : order.Nodup)
    (h : ∀ name ∈ order, ∃ q, wireQuantity unspecified wire name = some q)
    (decoded : ResourceSet) :
    (decodeFrom unspecified wire order decoded).1 = .OK ∧
    ∀ name, (name ∈ order → some ((decodeFrom unspecified wire order decoded).2.get name) =
        wireQuantity unspecified wire name) ∧
      (name ∉ order → (decodeFrom unspecified wire order decoded).2.get name =
        decoded.get name) := by
  induction order generalizing decoded with
  | nil => exact ⟨rfl, fun name => ⟨fun hm => absurd hm (by simp), fun _ => rfl⟩⟩
  | cons head rest ih =>
    obtain ⟨hhead, hrest⟩ := List.nodup_cons.mp hnodup
    obtain ⟨q, hq⟩ := h head (by simp)
    obtain ⟨quantity, hl, hparsed⟩ := Option.bind_eq_some_iff.mp hq
    obtain ⟨hnone, -⟩ | ⟨q', hsome, hset⟩ := setDouble_cases unspecified head quantity
    · rw [hparsed] at hnone
      cases hnone
    rw [hparsed] at hsome
    cases hsome
    obtain ⟨hok, hget⟩ := hset decoded
    rw [decodeFrom_cons hl, hok, Status.ok_OK, if_pos rfl]
    obtain ⟨hdone, hnames⟩ := ih hrest (fun name hm => h name (List.mem_cons_of_mem _ hm))
      (decoded.setDouble unspecified head quantity).2
    refine ⟨hdone, fun name => ⟨?_, ?_⟩⟩
    · intro hm
      obtain rfl | hm := List.mem_cons.mp hm
      · rw [(hnames name).2 hhead, hget, if_pos rfl, hq]
      · exact (hnames name).1 hm
    · intro hm
      rw [List.mem_cons, not_or] at hm
      obtain ⟨hne, hm⟩ := hm
      rw [(hnames name).2 hm, hget, if_neg hne]

/-- When some entry is rejected the loop stops, at an entry that is rejected. -/
theorem decodeFrom_rejects {order : List String}
    (hlisted : ∀ name ∈ order, (wire.lookup name).isSome = true)
    (h : ∃ name ∈ order, wireQuantity unspecified wire name = none) (decoded : ResourceSet) :
    Rejection unspecified wire (decodeFrom unspecified wire order decoded).1 := by
  induction order generalizing decoded with
  | nil =>
    obtain ⟨name, hm, -⟩ := h
    cases hm
  | cons head rest ih =>
    have hhead := hlisted head (by simp)
    obtain ⟨quantity, hl⟩ := Option.isSome_iff_exists.mp hhead
    rw [decodeFrom_cons hl]
    obtain ⟨hnone, status, hno, hset⟩ | ⟨q, hsome, hset⟩ :=
      setDouble_cases unspecified head quantity
    · rw [hset decoded, hno]
      exact ⟨head, _, hhead, by simp [wireQuantity, hl, hnone], rfl⟩
    · rw [(hset decoded).1, Status.ok_OK, if_pos rfl]
      apply ih fun name hm => hlisted name (List.mem_cons_of_mem _ hm)
      obtain ⟨name, hm, hreject⟩ := h
      obtain rfl | hm := List.mem_cons.mp hm
      · simp [wireQuantity, hl, hsome] at hreject
      · exact ⟨name, hm, hreject⟩

/-- A message is accepted when each of its entries is. -/
def Accepts (unspecified : Double → ResourceQuantity) (wire : WireResources) : Prop :=
  ∀ name, (wire.lookup name).isSome = true → ∃ q, wireQuantity unspecified wire name = some q

/-- What `FromProto` does, in terms of the message alone: the order of the iteration decides only
which of several rejected entries the status names. -/
theorem fromProto_cases (unspecified : Double → ResourceQuantity) {order : List String}
    (ho : UnorderedMap.Enumerates order wire) (old : ResourceSet) :
    (Accepts unspecified wire ∧ ∃ rs : ResourceSet,
      fromProto unspecified wire order (some old) = (.OK, some rs) ∧
      ∀ name, rs.get name = (wireQuantity unspecified wire name).getD .zero) ∨
    ¬ Accepts unspecified wire ∧ ∃ status, Rejection unspecified wire status ∧
      fromProto unspecified wire order (some old) = (status, some old) := by
  have hlisted : ∀ name ∈ order, (wire.lookup name).isSome = true := by
    intro name hm
    obtain ⟨quantity, hl⟩ := (ho.mem_iff name).mp hm
    rw [hl]
    rfl
  by_cases haccepts : Accepts unspecified wire
  · left
    obtain ⟨hok, hnames⟩ := decodeFrom_accepts ho.1
      (fun name hm => haccepts name (hlisted name hm)) .empty
    refine ⟨haccepts, _, by simp [fromProto, hok]; rfl, fun name => ?_⟩
    by_cases hm : name ∈ order
    · rw [← (hnames name).1 hm]
      rfl
    · have hnone : wire.lookup name = none := by
        cases hl : wire.lookup name with
        | none => rfl
        | some quantity => exact absurd ((ho.mem_iff name).mpr ⟨quantity, hl⟩) hm
      rw [(hnames name).2 hm, wireQuantity, hnone]
      rfl
  · right
    refine ⟨haccepts, ?_⟩
    have hreject : ∃ name ∈ order, wireQuantity unspecified wire name = none := by
      simp only [Accepts, not_forall, not_exists] at haccepts
      obtain ⟨name, hsome, hnone⟩ := haccepts
      obtain ⟨quantity, hl⟩ := Option.isSome_iff_exists.mp hsome
      exact ⟨name, (ho.mem_iff name).mpr ⟨quantity, hl⟩, Option.eq_none_iff_forall_ne_some.mpr hnone⟩
    have hstop := decodeFrom_rejects hlisted hreject .empty
    refine ⟨_, hstop, ?_⟩
    obtain ⟨name, reason, -, -, hstatus⟩ := hstop
    simp [fromProto, hstatus]

/-! ## The round trip -/

theorem lookup_foldl_insert {es : List (String × ResourceQuantity)}
    (hs : es.Pairwise (fun e f => e.1 < f.1)) (quantities : WireResources) (name : String) :
    (es.foldl (fun quantities e => quantities.insert e.1 e.2.toDouble) quantities).lookup name =
      ((OrderedMap.lookupEntries name es).map ResourceQuantity.toDouble).or
        (quantities.lookup name) := by
  induction es generalizing quantities with
  | nil => rfl
  | cons e rest ih =>
    obtain ⟨key, quantity⟩ := e
    obtain ⟨hlt, hrest⟩ := List.pairwise_cons.mp hs
    rw [List.foldl_cons, ih hrest, OrderedMap.lookupEntries_cons, UnorderedMap.lookup_insert_eq]
    by_cases hk : name = key
    · subst hk
      have hnone : OrderedMap.lookupEntries name rest = none :=
        OrderedMap.lookupEntries_eq_none fun e he => (hlt e he).ne'
      simp [hnone]
    · simp [hk]

@[simp] theorem lookup_toProto (rs : ResourceSet) (name : String) :
    rs.toProto.lookup name = (rs.values.lookup name).map ResourceQuantity.toDouble := by
  rw [toProto, lookup_foldl_insert rs.values.sorted]
  simp [OrderedMap.lookup]

/-- The message can be iterated, for example in the order of the names. -/
theorem enumerates_toProto (rs : ResourceSet) :
    ∃ order, UnorderedMap.Enumerates order rs.toProto := by
  refine ⟨rs.toProto.keys.toList, Finset.nodup_toList _, Finset.toList_toFinset _⟩

theorem parsed_toDouble {rs : ResourceSet} {name : String} {q : ResourceQuantity}
    (h : rs.values.lookup name = some q) :
    wireQuantity unspecified rs.toProto name = some q ↔
      ResourceQuantity.fromDouble unspecified q.toDouble = some q := by
  obtain ⟨hvalid, hpos⟩ := rs.canonical name q h
  have hneg : ¬ q < .zero := by
    rw [ResourceQuantity.lt_iff, ResourceQuantity.value_zero]
    omega
  simp only [wireQuantity, lookup_toProto, h, Option.map_some, Option.bind_some, parsed, hvalid,
    if_true, Option.filter_eq_some_iff]
  simp [hneg]

/-- A resource set survives the wire, whatever the order in which the message is iterated and
whatever `llround` gives out of range. -/
def SurvivesWire (rs : ResourceSet) : Prop :=
  ∀ unspecified order old, UnorderedMap.Enumerates order rs.toProto →
    fromProto unspecified rs.toProto order (some old) = (.OK, some rs)

theorem SurvivesWire.exact {rs : ResourceSet} (h : rs.SurvivesWire) (name : String)
    (q : ResourceQuantity) (hl : rs.values.lookup name = some q) :
    ResourceQuantity.ExactOnWire q.value := by
  obtain ⟨order, ho⟩ := enumerates_toProto rs
  rw [← ResourceQuantity.fromDouble_toDouble_iff (rs.canonical name q hl).2]
  intro unspecified
  rw [← parsed_toDouble hl]
  have hdone := h unspecified order .empty ho
  obtain ⟨haccepts, rs', hok, hget⟩ | ⟨-, status, ⟨_, _, -, -, hstatus⟩, hno⟩ :=
    fromProto_cases unspecified ho .empty
  · rw [hdone] at hok
    cases hok
    obtain ⟨q', hq'⟩ := haccepts name (by simp [hl])
    have := hget name
    rw [hq', Option.getD_some, get_of_lookup hl] at this
    rw [hq', this]
  · rw [hdone, hstatus] at hno
    cases hno

theorem survives_of_exact {rs : ResourceSet} (h : ∀ name q, rs.values.lookup name = some q →
    ResourceQuantity.ExactOnWire q.value) : rs.SurvivesWire := by
  intro unspecified order old ho
  have hquantity : ∀ name q, rs.values.lookup name = some q →
      wireQuantity unspecified rs.toProto name = some q := by
    intro name q hl
    rw [parsed_toDouble hl]
    exact (ResourceQuantity.fromDouble_toDouble_iff (rs.canonical name q hl).2).mpr
      (h name q hl) unspecified
  obtain ⟨-, rs', hok, hget⟩ | ⟨hnot, -⟩ := fromProto_cases unspecified ho old
  · rw [hok]
    have : rs' = rs := by
      apply ext_get
      intro name
      rw [hget]
      cases hl : rs.values.lookup name with
      | none => simp [wireQuantity, get, hl]
      | some q => rw [hquantity name q hl, Option.getD_some, get_of_lookup hl]
    rw [this]
  · exfalso
    apply hnot
    intro name hsome
    rw [lookup_toProto, Option.isSome_map, Option.isSome_iff_exists] at hsome
    obtain ⟨q, hl⟩ := hsome
    exact ⟨q, hquantity name q hl⟩

/-- Exactly the sets survive whose quantities are all among the exact ones. -/
theorem survives_wire_iff (rs : ResourceSet) : rs.SurvivesWire ↔
    ∀ name q, rs.values.lookup name = some q → ResourceQuantity.ExactOnWire q.value :=
  ⟨fun h => h.exact, survives_of_exact⟩

end ResourceSet

namespace Sample

/-- The input 274877906944.0003662109375. -/
def memory : FloatingPoint.Finite binary64 where
  value := 4503599627370502 / 16384
  form := ⟨4503599627370502, -14, by decide, by decide, by norm_num⟩
  bounded := by
    calc |(4503599627370502 / 16384 : ℚ)| < 2 ^ (39 : ℤ) := by norm_num [abs_lt]
      _ ≤ 2 ^ (1024 : ℤ) := zpow_le_zpow_right₀ (by norm_num) (by norm_num)

def memoryQuantity : ResourceQuantity := ⟨2748779069440004, by decide⟩

end Sample

open Sample in
theorem ResourceQuantity.fromDouble_memory (unspecified : Double → ResourceQuantity) :
    fromDouble unspecified (.finite memory) = some memoryQuantity := by
  have h0 : (0 : ℚ) ≤ memory.value := by norm_num [memory]
  have hscale : kScaleDouble.value = 10000 := by norm_num [kScaleDouble, kScale]
  obtain ⟨y, hy, hvalue⟩ := FloatingPoint.Value.ofRational_of_le (f := binary64) (k := 52)
    (scaled_nonneg h0) (by norm_num [hscale, memory]) (by decide) (by decide)
  have hproduct : FloatingPoint.nearest binary64 (4503599627370502 / 16384 * 10000) =
      5497558138880007 / 2 := by decide +kernel
  rw [hscale, show memory.value = 4503599627370502 / 16384 from rfl, hproduct] at hvalue
  have hround : FloatingPoint.roundAway y.value = 2748779069440004 := by
    rw [FloatingPoint.roundAway_eq_iff (by rw [hvalue]; norm_num), hvalue]
    norm_num
  rw [fromDouble_scaled unspecified h0 hy, if_pos (by rw [hvalue]; norm_num)]
  exact congrArg some (ext ((llround_fits unspecified (by rw [hround]; decide)).trans hround))

theorem ResourceQuantity.memory_not_exact : ¬ ExactOnWire Sample.memoryQuantity.value := by
  rintro (hsmall | ⟨-, hbmod⟩ | ⟨m, k, hvalue, hlo, -, -⟩)
  · simp [Sample.memoryQuantity] at hsmall
  · revert hbmod
    decide
  · have hpower : (1 : ℤ) ≤ 2 ^ k := one_le_pow₀ (by norm_num)
    have hlarge : (2 : ℤ) ^ 52 * 1 ≤ m * 2 ^ k := by gcongr
    rw [← hvalue] at hlarge
    simp [Sample.memoryQuantity] at hlarge

open Sample in
/-- `Set` accepts this quantity, and it does not come back. -/
theorem ResourceSet.memory_not_survives :
    (∀ unspecified, empty.setDouble unspecified "memory" (.finite memory) =
      (.OK, (empty.set "memory" memoryQuantity).2)) ∧
    ¬ (empty.set "memory" memoryQuantity).2.SurvivesWire := by
  have hvalid : isValidResourceName "memory" = true := by decide
  refine ⟨?_, ?_⟩
  · intro unspecified
    simp only [setDouble, hvalid, if_true, ResourceQuantity.fromDouble_memory]
    rfl
  · intro h
    exact ResourceQuantity.memory_not_exact (h.exact "memory" memoryQuantity (by decide))

end AgentRuntime
