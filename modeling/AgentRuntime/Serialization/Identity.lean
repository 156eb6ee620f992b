import AgentRuntime.Serialization.Wire
import Mathlib.Data.List.GetD

/-!
# Identities as text and as wire bytes

The hexadecimal form of an identity and the two conversions of the wire. The
decoder of the wire has an encoder of its own and hands the digits to the text
parser. Characters are signed, so a byte above 127 is a negative character.
-/
namespace AgentRuntime

/-- A `std::string`. -/
abbrev CharString := List Int8

/-- The value of a character literal. -/
def charLiteral (c : Char) : Int8 := Int8.ofInt c.toNat

def kHexDigits : CharString := "0123456789abcdef".toList.map charLiteral

def hexDigitValue (c : Int8) : Int :=
  if charLiteral '0' ≤ c ∧ c ≤ charLiteral '9' then c.toInt - (charLiteral '0').toInt
  else if charLiteral 'a' ≤ c ∧ c ≤ charLiteral 'f' then c.toInt - (charLiteral 'a').toInt + 10
  else if charLiteral 'A' ≤ c ∧ c ≤ charLiteral 'F' then c.toInt - (charLiteral 'A').toInt + 10
  else -1

/-- The digit of the high and of the low half of a byte. -/
def highDigit (byte : UInt8) : Int8 := kHexDigits.getD ((byte >>> 4) &&& 0x0f).toNat 0
def lowDigit (byte : UInt8) : Int8 := kHexDigits.getD (byte &&& 0x0f).toNat 0

/-- The loop that writes the digits of `size` bytes, two for each byte. -/
def writeDigits (byteAt : Nat → UInt8) (size : Nat) : CharString :=
  (List.range size).foldl
    (fun hex i => (hex.set (i * 2) (highDigit (byteAt i))).set (i * 2 + 1) (lowDigit (byteAt i)))
    (List.replicate (size * 2) 0)

def hexID (bytes : List UInt8) : CharString := writeDigits (fun i => bytes.getD i 0) bytes.length

/-- The two halves put together: the expression that `ParseHexID` casts to a byte. -/
def joinDigits (high low : Int) : UInt8 :=
  ((UInt32.ofNat high.toNat <<< 4) ||| UInt32.ofNat low.toNat).toUInt8

/-- The loop of `ParseHexID`, which stops at the first character that is no digit. -/
def parseDigits (hex : CharString) : List Nat → List UInt8 → Option (List UInt8)
  | [], bytes => some bytes
  | i :: rest, bytes =>
    let high := hexDigitValue (hex.getD (i * 2) 0)
    let low := hexDigitValue (hex.getD (i * 2 + 1) 0)
    if high < 0 ∨ low < 0 then none
    else parseDigits hex rest (bytes.set i (joinDigits high low))

def parseHexID (hex : CharString) : Option (List UInt8) :=
  if hex.length ≠ 16 * 2 then none
  else parseDigits hex (List.range 16) (List.replicate 16 0)

theorem length_parseDigits {hex : CharString} {order : List Nat} {bytes parsed : List UInt8}
    (h : parseDigits hex order bytes = some parsed) : parsed.length = bytes.length := by
  induction order generalizing bytes with
  | nil =>
    cases h
    rfl
  | cons i rest ih =>
    simp only [parseDigits] at h
    split at h
    · cases h
    · rw [ih h, List.length_set]

theorem length_parseHexID {hex : CharString} {parsed : List UInt8}
    (h : parseHexID hex = some parsed) : parsed.length = 16 := by
  simp only [parseHexID] at h
  split at h
  · cases h
  · rw [length_parseDigits h, List.length_replicate]

namespace StrongID

variable {tag : IdTag}

def hex (id : StrongID tag) : CharString := hexID id.bytes

def fromHex (hex : CharString) : Option (StrongID tag) :=
  match h : parseHexID hex with
  | none => none
  | some bytes => some ⟨bytes, length_parseHexID h⟩

/-- `IDToProto`: the bytes read as characters. -/
def idToProto (id : StrongID tag) : CharString := id.bytes.map UInt8.toInt8

/-- `IDFromProto` with the identity that `out` points to; there is none when `out` is null. -/
def idFromProto (wire : CharString) (out : Option (StrongID tag)) :
    Status × Option (StrongID tag) :=
  match out with
  | none => (.InvalidArgument "output ID pointer must not be null", none)
  | some old =>
    if wire.length ≠ 16 then (.InvalidArgument "wire ID must contain exactly 16 bytes", some old)
    else
      match fromHex (writeDigits (fun i => (wire.getD i 0).toUInt8) 16) with
      | none => (.InvalidArgument "wire ID could not be decoded", some old)
      | some parsed => (.OK, some parsed)

end StrongID

/-! ## Digits -/

theorem hexDigitValue_getD : ∀ n < 16, hexDigitValue (kHexDigits.getD n 0) = n := by decide

theorem joinDigits_halves (byte : UInt8) :
    joinDigits (((byte >>> 4) &&& 0x0f).toNat : ℕ) ((byte &&& 0x0f).toNat : ℕ) = byte := by
  have : ∀ n < 256, joinDigits ((((UInt8.ofNat n) >>> 4) &&& 0x0f).toNat : ℕ)
      (((UInt8.ofNat n) &&& 0x0f).toNat : ℕ) = UInt8.ofNat n := by decide +kernel
  simpa using this byte.toNat byte.toNat_lt

theorem high_joinDigits : ∀ high < 16, ∀ low < 16,
    ((joinDigits (high : ℕ) (low : ℕ) >>> 4) &&& 0x0f).toNat = high := by decide +kernel

theorem low_joinDigits : ∀ high < 16, ∀ low < 16,
    (joinDigits (high : ℕ) (low : ℕ) &&& 0x0f).toNat = low := by decide +kernel

/-- The characters of the grammar `[0-9a-fA-F]`. -/
def IsHexDigit (c : Int8) : Prop :=
  charLiteral '0' ≤ c ∧ c ≤ charLiteral '9' ∨ charLiteral 'a' ≤ c ∧ c ≤ charLiteral 'f' ∨
    charLiteral 'A' ≤ c ∧ c ≤ charLiteral 'F'

instance (c : Int8) : Decidable (IsHexDigit c) := inferInstanceAs (Decidable (_ ∨ _ ∨ _))

/-- `std::tolower` of a character. -/
def toLower (c : Int8) : Int8 :=
  if charLiteral 'A' ≤ c ∧ c ≤ charLiteral 'Z' then c - charLiteral 'A' + charLiteral 'a' else c

/-- What holds of all 256 characters. -/
theorem forall_char {P : Int8 → Prop} (h : ∀ n < 256, P (UInt8.ofNat n).toInt8) (c : Int8) :
    P c := by
  have := h c.toUInt8.toNat c.toUInt8.toNat_lt
  simpa using this

theorem isHexDigit_iff (c : Int8) : IsHexDigit c ↔ 0 ≤ hexDigitValue c :=
  forall_char (P := fun c => IsHexDigit c ↔ 0 ≤ hexDigitValue c) (by decide +kernel) c

/-- The value of a digit is below 16, and the digit of that value is the lower-case one. -/
theorem digit_of_value (c : Int8) (h : 0 ≤ hexDigitValue c) :
    hexDigitValue c = ((hexDigitValue c).toNat : ℕ) ∧ (hexDigitValue c).toNat < 16 ∧
      kHexDigits.getD (hexDigitValue c).toNat 0 = toLower c := by
  refine ⟨(Int.toNat_of_nonneg h).symm, ?_⟩
  exact forall_char (P := fun c => 0 ≤ hexDigitValue c → (hexDigitValue c).toNat < 16 ∧
    kHexDigits.getD (hexDigitValue c).toNat 0 = toLower c) (by decide +kernel) c h

theorem hexDigitValue_highDigit (byte : UInt8) :
    hexDigitValue (highDigit byte) = (((byte >>> 4) &&& 0x0f).toNat : ℕ) := by
  apply hexDigitValue_getD
  have : ∀ n < 256, (((UInt8.ofNat n) >>> 4) &&& 0x0f).toNat < 16 := by decide +kernel
  simpa using this byte.toNat byte.toNat_lt

theorem hexDigitValue_lowDigit (byte : UInt8) :
    hexDigitValue (lowDigit byte) = ((byte &&& 0x0f).toNat : ℕ) := by
  apply hexDigitValue_getD
  have : ∀ n < 256, ((UInt8.ofNat n) &&& 0x0f).toNat < 16 := by decide +kernel
  simpa using this byte.toNat byte.toNat_lt

/-! ## The loops -/

/-- A loop that writes each position once gives the list of what is written. -/
theorem foldl_set {α : Type} (f : Nat → α) (bytes : List α) :
    (List.range bytes.length).foldl (fun written i => written.set i (f i)) bytes =
      (List.range bytes.length).map f := by
  have hloop : ∀ n ≤ bytes.length,
      (List.range n).foldl (fun written i => written.set i (f i)) bytes =
        (List.range n).map f ++ bytes.drop n := by
    intro n hn
    induction n with
    | zero => simp
    | succ n ih =>
      rw [List.range_succ, List.foldl_append, ih (by omega), List.map_append]
      obtain ⟨x, rest, hx⟩ : ∃ x rest, bytes.drop n = x :: rest :=
        ⟨_, _, List.drop_eq_getElem_cons (by omega)⟩
      have hrest : bytes.drop (n + 1) = rest := by
        rw [← List.drop_drop, hx]
        rfl
      rw [hx, hrest]
      simp
  have := hloop bytes.length le_rfl
  simpa using this

theorem length_pairs {α β : Type} (f g : α → β) (l : List α) :
    (l.flatMap fun x => [f x, g x]).length = l.length * 2 := by
  induction l with
  | nil => rfl
  | cons x rest ih =>
    simp only [List.flatMap_cons, List.length_append, List.length_cons, List.length_nil, ih]
    omega

theorem getD_pairs {α β : Type} (f g : α → β) (l : List α) {i : Nat} (h : i < l.length) (b : β) :
    (l.flatMap fun x => [f x, g x]).getD (i * 2) b = f l[i] ∧
    (l.flatMap fun x => [f x, g x]).getD (i * 2 + 1) b = g l[i] := by
  induction l generalizing i with
  | nil => simp at h
  | cons x rest ih =>
    cases i with
    | zero => exact ⟨rfl, rfl⟩
    | succ i =>
      obtain ⟨hhigh, hlow⟩ := ih (i := i) (by simpa using h)
      have htwo : (i + 1) * 2 = i * 2 + 1 + 1 := by omega
      rw [htwo, List.flatMap_cons]
      exact ⟨hhigh, hlow⟩

/-- The encoder writes the two digits of each byte next to each other. -/
theorem writeDigits_eq (byteAt : Nat → UInt8) (size : Nat) :
    writeDigits byteAt size =
      (List.range size).flatMap fun i => [highDigit (byteAt i), lowDigit (byteAt i)] := by
  have hloop : ∀ n ≤ size, (List.range n).foldl
      (fun hex i => (hex.set (i * 2) (highDigit (byteAt i))).set (i * 2 + 1) (lowDigit (byteAt i)))
      (List.replicate (size * 2) 0) =
      ((List.range n).flatMap fun i => [highDigit (byteAt i), lowDigit (byteAt i)]) ++
        List.replicate ((size - n) * 2) 0 := by
    intro n hn
    induction n with
    | zero => rfl
    | succ n ih =>
      have hlength := length_pairs (fun i => highDigit (byteAt i)) (fun i => lowDigit (byteAt i))
        (List.range n)
      rw [List.length_range] at hlength
      have hrest : List.replicate ((size - n) * 2) (0 : Int8) =
          0 :: 0 :: List.replicate ((size - (n + 1)) * 2) 0 := by
        rw [← List.replicate_succ, ← List.replicate_succ]
        congr 1
        omega
      rw [List.range_succ, List.foldl_append, ih (by omega), List.flatMap_append, hrest]
      simp [hlength]
  have := hloop size le_rfl
  simpa [writeDigits] using this

/-- The byte that the parser makes of two characters of the text. -/
def joinAt (hex : CharString) (i : Nat) : UInt8 :=
  joinDigits (hexDigitValue (hex.getD (i * 2) 0)) (hexDigitValue (hex.getD (i * 2 + 1) 0))

theorem parseDigits_eq_some {hex : CharString} {order : List Nat} {bytes parsed : List UInt8} :
    parseDigits hex order bytes = some parsed ↔
      (∀ i ∈ order, 0 ≤ hexDigitValue (hex.getD (i * 2) 0) ∧
        0 ≤ hexDigitValue (hex.getD (i * 2 + 1) 0)) ∧
      parsed = order.foldl (fun written i => written.set i (joinAt hex i)) bytes := by
  induction order generalizing bytes with
  | nil => simp [parseDigits, eq_comm]
  | cons i rest ih =>
    simp only [parseDigits]
    split
    · rename_i hneg
      constructor
      · intro h
        cases h
      · rintro ⟨h, -⟩
        have := h i (by simp)
        omega
    · rename_i hdigits
      rw [ih, List.foldl_cons]
      constructor
      · rintro ⟨h, hparsed⟩
        refine ⟨?_, hparsed⟩
        intro j hj
        obtain rfl | hj := List.mem_cons.mp hj
        · omega
        · exact h j hj
      · rintro ⟨h, hparsed⟩
        exact ⟨fun j hj => h j (List.mem_cons_of_mem _ hj), hparsed⟩

/-- The parser accepts 32 digits and joins them two by two. -/
theorem parseHexID_eq_some {hex : CharString} {parsed : List UInt8} :
    parseHexID hex = some parsed ↔ hex.length = 32 ∧
      (∀ i < 16, 0 ≤ hexDigitValue (hex.getD (i * 2) 0) ∧
        0 ≤ hexDigitValue (hex.getD (i * 2 + 1) 0)) ∧
      parsed = (List.range 16).map (joinAt hex) := by
  have hwritten := foldl_set (joinAt hex) (List.replicate 16 0)
  rw [List.length_replicate] at hwritten
  simp only [parseHexID]
  split
  · rename_i hlength
    constructor
    · intro h
      cases h
    · rintro ⟨h, -⟩
      exact absurd h hlength
  · rename_i hlength
    rw [parseDigits_eq_some, hwritten]
    simp only [List.mem_range]
    constructor
    · rintro ⟨hdigits, hparsed⟩
      exact ⟨by omega, hdigits, hparsed⟩
    · rintro ⟨-, hdigits, hparsed⟩
      exact ⟨hdigits, hparsed⟩

theorem length_writeDigits (byteAt : Nat → UInt8) (size : Nat) :
    (writeDigits byteAt size).length = size * 2 := by
  rw [writeDigits_eq, length_pairs, List.length_range]

theorem getD_writeDigits (byteAt : Nat → UInt8) {size i : Nat} (h : i < size) :
    (writeDigits byteAt size).getD (i * 2) 0 = highDigit (byteAt i) ∧
    (writeDigits byteAt size).getD (i * 2 + 1) 0 = lowDigit (byteAt i) := by
  have hpairs := getD_pairs (fun i => highDigit (byteAt i)) (fun i => lowDigit (byteAt i))
    (List.range size) (i := i) (by simpa using h) 0
  rw [List.getElem_range] at hpairs
  rw [writeDigits_eq]
  exact hpairs

/-- The parser gives back what the encoder has written. -/
theorem parse_writeDigits (byteAt : Nat → UInt8) :
    parseHexID (writeDigits byteAt 16) = some ((List.range 16).map byteAt) := by
  have hvalues : ∀ i < 16,
      hexDigitValue ((writeDigits byteAt 16).getD (i * 2) 0) =
        (((byteAt i >>> 4) &&& 0x0f).toNat : ℕ) ∧
      hexDigitValue ((writeDigits byteAt 16).getD (i * 2 + 1) 0) =
        ((byteAt i &&& 0x0f).toNat : ℕ) := by
    intro i hi
    obtain ⟨hhigh, hlow⟩ := getD_writeDigits byteAt hi
    rw [hhigh, hlow]
    exact ⟨hexDigitValue_highDigit _, hexDigitValue_lowDigit _⟩
  rw [parseHexID_eq_some]
  refine ⟨length_writeDigits byteAt 16, ?_, ?_⟩
  · intro i hi
    obtain ⟨hhigh, hlow⟩ := hvalues i hi
    rw [hhigh, hlow]
    exact ⟨Int.natCast_nonneg _, Int.natCast_nonneg _⟩
  · apply List.map_congr_left
    intro i hi
    obtain ⟨hhigh, hlow⟩ := hvalues i (List.mem_range.mp hi)
    rw [joinAt, hhigh, hlow, joinDigits_halves]

theorem map_getD_range {α : Type} (l : List α) (d : α) :
    (List.range l.length).map (fun i => l.getD i d) = l := by
  apply List.ext_getElem (by simp)
  intro i h₁ h₂
  simp [h₂]

/-- Two texts of 32 characters agree when they agree pair by pair. -/
theorem ext_pairs {s t : CharString} (hs : s.length = 32) (ht : t.length = 32)
    (h : ∀ i < 16, s.getD (i * 2) 0 = t.getD (i * 2) 0 ∧
      s.getD (i * 2 + 1) 0 = t.getD (i * 2 + 1) 0) : s = t := by
  apply List.ext_getElem (hs.trans ht.symm)
  intro j h₁ h₂
  obtain ⟨heven, hodd⟩ := h (j / 2) (by omega)
  rw [← List.getD_eq_getElem s 0 h₁, ← List.getD_eq_getElem t 0 h₂]
  obtain hj | hj : j = j / 2 * 2 ∨ j = j / 2 * 2 + 1 := by omega
  · rw [hj]
    exact heven
  · rw [hj]
    exact hodd

/-- All 32 characters are digits when the characters of each pair are. -/
theorem forall_digits_iff {s : CharString} (hs : s.length = 32) :
    (∀ i < 16, 0 ≤ hexDigitValue (s.getD (i * 2) 0) ∧ 0 ≤ hexDigitValue (s.getD (i * 2 + 1) 0)) ↔
      ∀ c ∈ s, IsHexDigit c := by
  simp only [isHexDigit_iff]
  constructor
  · intro h c hc
    obtain ⟨j, hj, rfl⟩ := List.mem_iff_getElem.mp hc
    obtain ⟨heven, hodd⟩ := h (j / 2) (by omega)
    rw [← List.getD_eq_getElem s 0 hj]
    obtain he | he : j = j / 2 * 2 ∨ j = j / 2 * 2 + 1 := by omega
    · rw [he]
      exact heven
    · rw [he]
      exact hodd
  · intro h i hi
    have hmem : ∀ j < 32, 0 ≤ hexDigitValue (s.getD j 0) := by
      intro j hj
      rw [List.getD_eq_getElem s 0 (by omega)]
      exact h _ (List.getElem_mem _)
    exact ⟨hmem _ (by omega), hmem _ (by omega)⟩

namespace StrongID

variable {tag : IdTag}

theorem ext {id id' : StrongID tag} (h : id.bytes = id'.bytes) : id = id' := by
  cases id
  cases id'
  cases h
  rfl

theorem fromHex_eq_some {s : CharString} {id : StrongID tag} :
    fromHex s = some id ↔ parseHexID s = some id.bytes := by
  simp only [fromHex]
  split
  · rename_i h
    simp [h]
  · rename_i bytes h
    constructor
    · intro he
      cases he
      exact h
    · intro he
      exact congrArg some (ext (Option.some.inj (h.symm.trans he)))

theorem fromHex_hex (id : StrongID tag) : fromHex id.hex = some id := by
  rw [fromHex_eq_some, hex, hexID, id.size, parse_writeDigits]
  have := map_getD_range id.bytes 0
  rw [id.size] at this
  rw [this]

/-- What the text parser accepts. -/
theorem isSome_fromHex (s : CharString) : (fromHex s : Option (StrongID tag)).isSome = true ↔
    s.length = 32 ∧ ∀ c ∈ s, IsHexDigit c := by
  rw [Option.isSome_iff_exists]
  constructor
  · rintro ⟨id, h⟩
    obtain ⟨hlength, hdigits, -⟩ := parseHexID_eq_some.mp (fromHex_eq_some.mp h)
    exact ⟨hlength, (forall_digits_iff hlength).mp hdigits⟩
  · rintro ⟨hlength, hdigits⟩
    refine ⟨⟨(List.range 16).map (joinAt s), by simp⟩, ?_⟩
    rw [fromHex_eq_some, parseHexID_eq_some]
    exact ⟨hlength, (forall_digits_iff hlength).mpr hdigits, rfl⟩

/-- The text of a parsed identity is the parsed text in lower case. -/
theorem hex_fromHex {s : CharString} {id : StrongID tag} (h : fromHex s = some id) :
    id.hex = s.map toLower := by
  obtain ⟨hlength, hdigits, hbytes⟩ := parseHexID_eq_some.mp (fromHex_eq_some.mp h)
  have hsize : id.bytes.length = 16 := id.size
  apply ext_pairs
  · rw [hex, hexID, length_writeDigits, hsize]
  · rw [List.length_map, hlength]
  intro i hi
  obtain ⟨hhigh, hlow⟩ := getD_writeDigits (fun i => id.bytes.getD i 0) (show i < 16 from hi)
  have hbyte : id.bytes.getD i 0 = joinAt s i := by
    rw [hbytes, List.getD_eq_getElem _ _ (by simpa using hi), List.getElem_map, List.getElem_range]
  have hmap : ∀ j < 32, (s.map toLower).getD j 0 = toLower (s.getD j 0) := by
    intro j hj
    rw [List.getD_eq_getElem _ _ (by simpa [hlength] using hj), List.getElem_map,
      List.getD_eq_getElem _ _ (by omega)]
  rw [hex, hexID, hsize, hhigh, hlow, hmap _ (by omega), hmap _ (by omega), hbyte]
  obtain ⟨hhighValue, hlowValue⟩ := hdigits i hi
  obtain ⟨hhigh', hhighLt, hhighDigit⟩ := digit_of_value _ hhighValue
  obtain ⟨hlow', hlowLt, hlowDigit⟩ := digit_of_value _ hlowValue
  rw [joinAt, hhigh', hlow', highDigit, lowDigit, high_joinDigits _ hhighLt _ hlowLt,
    low_joinDigits _ hhighLt _ hlowLt]
  exact ⟨hhighDigit, hlowDigit⟩

/-! ## The wire -/

/-- The decoder's own digits are parsed into the bytes of the message. -/
theorem fromHex_wire {wire : CharString} (h : wire.length = 16) :
    (fromHex (writeDigits (fun i => (wire.getD i 0).toUInt8) 16) : Option (StrongID tag)) =
      some ⟨wire.map Int8.toUInt8, by rw [List.length_map, h]⟩ := by
  have hbytes := map_getD_range wire 0
  rw [h] at hbytes
  rw [fromHex_eq_some, parse_writeDigits]
  calc some ((List.range 16).map fun i => (wire.getD i 0).toUInt8)
      = some (((List.range 16).map fun i => wire.getD i 0).map Int8.toUInt8) := by
        rw [List.map_map]
        rfl
    _ = some (wire.map Int8.toUInt8) := by rw [hbytes]

theorem idFromProto_of_length {wire : CharString} (h : wire.length = 16) (old : StrongID tag) :
    idFromProto wire (some old) =
      (.OK, some ⟨wire.map Int8.toUInt8, by rw [List.length_map, h]⟩) := by
  simp only [idFromProto, h, ne_eq, not_true_eq_false, if_false, fromHex_wire h]

theorem idFromProto_of_ne {wire : CharString} (h : wire.length ≠ 16) (old : StrongID tag) :
    idFromProto wire (some old) =
      (.InvalidArgument "wire ID must contain exactly 16 bytes", some old) := by
  simp only [idFromProto, h, ne_eq, not_false_eq_true, if_true]

/-- The decoding of the messages of the system, in terms of bytes. -/
theorem idFromProto_eq (wire : CharString) (old : StrongID tag) :
    idFromProto wire (some old) = match fromProto (wire.map Int8.toUInt8) with
      | .ok id => (.OK, some id)
      | .error status => (status, some old) := by
  by_cases h : wire.length = 16
  · rw [idFromProto_of_length h]
    simp [fromProto, h]
  · rw [idFromProto_of_ne h]
    simp [fromProto, h]

theorem idToProto_map (id : StrongID tag) : id.idToProto.map Int8.toUInt8 = id.toProto := by
  simp [idToProto, toProto, List.map_map, Function.comp_def]

/-- Text and wire bytes are exact codes of the identities: what is accepted, that decoding inverts
encoding and encoding inverts decoding, and that a rejected input leaves the output as it is. -/
theorem codecs_exact (tag : IdTag) :
    (∀ id : StrongID tag, fromHex id.hex = some id) ∧
    (∀ id old : StrongID tag, idFromProto id.idToProto (some old) = (.OK, some id)) ∧
    (∀ s : CharString, (fromHex s : Option (StrongID tag)).isSome = true ↔
      s.length = 32 ∧ ∀ c ∈ s, IsHexDigit c) ∧
    (∀ (s : CharString) (id : StrongID tag), fromHex s = some id → id.hex = s.map toLower) ∧
    (∀ (wire : CharString) (old : StrongID tag),
      (idFromProto wire (some old)).1.ok = true ↔ wire.length = 16) ∧
    (∀ (wire : CharString) (old : StrongID tag), wire.length = 16 →
      ∃ id, idFromProto wire (some old) = (.OK, some id) ∧ id.idToProto = wire) ∧
    ∀ (wire : CharString) (out : Option (StrongID tag)),
      (idFromProto wire out).1.ok = false → (idFromProto wire out).2 = out := by
  refine ⟨fromHex_hex, ?encoded, isSome_fromHex, fun _ _ => hex_fromHex, ?accepted, ?decoded,
    ?rejected⟩
  case encoded =>
    intro id old
    have hlength : id.idToProto.length = 16 := by rw [idToProto, List.length_map, id.size]
    rw [idFromProto_of_length hlength]
    exact congrArg (fun id => (Status.OK, some id)) (ext (idToProto_map id))
  case accepted =>
    intro wire old
    by_cases h : wire.length = 16
    · simp [idFromProto_of_length h, h]
    · simp [idFromProto_of_ne h, h]
  case decoded =>
    intro wire old hlength
    refine ⟨_, idFromProto_of_length hlength old, ?_⟩
    simp [idToProto, List.map_map, Function.comp_def]
  case rejected =>
    intro wire out h
    cases out with
    | none => rfl
    | some old =>
      by_cases hlength : wire.length = 16
      · rw [idFromProto_of_length hlength] at h
        cases h
      · rw [idFromProto_of_ne hlength]

end StrongID

end AgentRuntime
