import AgentRuntime.Common.Id
import AgentRuntime.Common.Int64
import AgentRuntime.Library.Numeral

/-!
# Integers as text

`std::stoll` takes an integer from the front of a string, after white space and
a sign, and says how many characters it has used. `std::to_string` writes one.
The locale is that of a C program which has set none.
-/
namespace AgentRuntime

namespace Decimal

open Numeral (valueFrom)

/-- `std::isspace` -/
def isSpace (c : UInt8) : Bool := c = 32 || (9 ≤ c && c ≤ 13)

def digits : Numeral.Alphabet UInt8 10 where
  symbol d := (48 + d).toUInt8
  digit? c := if 48 ≤ c ∧ c ≤ 57 then some (c.toNat - 48) else none
  digit?_symbol := by decide
  lt_base c d h := by
    split at h
    · rename_i hc
      obtain rfl := Option.some.inj h
      have hle : c.toNat ≤ 57 := UInt8.le_iff_toNat_le.mp hc.2
      omega
    · cases h
  symbol_digit? c d h := by
    split at h
    · rename_i hc
      obtain rfl := Option.some.inj h
      have hle : 48 ≤ c.toNat := UInt8.le_iff_toNat_le.mp hc.1
      show (48 + (c.toNat - 48)).toUInt8 = c
      rw [Nat.add_sub_cancel' hle]
      exact UInt8.ofNat_toNat
    · cases h

inductive Sign where
  | missing | plus | minus
  deriving DecidableEq

def Sign.text : Sign → ByteString
  | .missing => []
  | .plus => [43]
  | .minus => [45]

def Sign.apply : Sign → Nat → Int
  | .missing, n | .plus, n => n
  | .minus, n => -n

def takeSign : ByteString → Sign × ByteString
  | 43 :: cs => (.plus, cs)
  | 45 :: cs => (.minus, cs)
  | cs => (.missing, cs)

inductive StdException where
  | invalidArgument | outOfRange
  deriving DecidableEq

/-- The integer and the number of characters that were used. -/
def stoll (input : ByteString) : Except StdException (Int × Nat) :=
  let signed := takeSign (input.dropWhile isSpace)
  let read := digits.read 0 signed.2
  if read.2.length = signed.2.length then .error .invalidArgument
  else if FitsInt64 (signed.1.apply read.1) then
    .ok (signed.1.apply read.1, input.length - read.2.length)
  else .error .outOfRange

def toString (value : Int) : ByteString :=
  (if value < 0 then Sign.minus else Sign.missing).text ++ digits.write value.natAbs

/-- The whole text is an integer. -/
inductive Reads (input : ByteString) : Int → Prop where
  | mk (spaces : ByteString) (sign : Sign) (ds : List Nat) (hspaces : ∀ c ∈ spaces, isSpace c = true)
      (hne : ds ≠ []) (hlt : ∀ d ∈ ds, d < 10)
      (htext : input = spaces ++ (sign.text ++ digits.text ds)) :
      Reads input (sign.apply (valueFrom 10 0 ds))

variable {input : ByteString} {value : Int}

/-! ## What `stoll` accepts -/

theorem takeSign_split (cs : ByteString) : cs = (takeSign cs).1.text ++ (takeSign cs).2 := by
  unfold takeSign
  split <;> rfl

/-- The first digit of a text is neither white space nor a sign. -/
theorem text_cons {ds : List Nat} (hne : ds ≠ []) (hlt : ∀ d ∈ ds, d < 10) : ∃ c cs,
    digits.text ds = c :: cs ∧ isSpace c = false ∧ c ≠ 43 ∧ c ≠ 45 := by
  obtain ⟨d, rest, rfl⟩ := List.exists_cons_of_ne_nil hne
  have hsymbol : ∀ d, d < 10 → isSpace (digits.symbol d) = false ∧ digits.symbol d ≠ 43 ∧
      digits.symbol d ≠ 45 := by decide
  exact ⟨digits.symbol d, digits.text rest, rfl, hsymbol d (hlt d List.mem_cons_self)⟩

theorem takeSign_text {sign : Sign} {ds : List Nat} (hne : ds ≠ []) (hlt : ∀ d ∈ ds, d < 10) :
    takeSign (sign.text ++ digits.text ds) = (sign, digits.text ds) := by
  obtain ⟨c, cs, htext, -, hplus, hminus⟩ := text_cons hne hlt
  cases sign with
  | missing =>
    rw [htext]
    simp only [Sign.text, List.nil_append, takeSign]
    split
    · rename_i heq
      exact absurd (List.cons.inj heq).1 hplus
    · rename_i heq
      exact absurd (List.cons.inj heq).1 hminus
    · rfl
  | plus => rfl
  | minus => rfl

theorem dropWhile_spaces {spaces cs : ByteString} (hspaces : ∀ c ∈ spaces, isSpace c = true)
    (hcs : ∀ c ∈ cs.head?, isSpace c = false) : (spaces ++ cs).dropWhile isSpace = cs := by
  induction spaces with
  | nil =>
    cases cs with
    | nil => rfl
    | cons c cs => simp [hcs c rfl]
  | cons c spaces ih =>
    rw [List.cons_append, List.dropWhile_cons_of_pos (hspaces c List.mem_cons_self)]
    exact ih fun c' hc' => hspaces c' (List.mem_cons_of_mem _ hc')

theorem head_signed {sign : Sign} {ds : List Nat} (hne : ds ≠ []) (hlt : ∀ d ∈ ds, d < 10) :
    ∀ c ∈ (sign.text ++ digits.text ds).head?, isSpace c = false := by
  obtain ⟨c, cs, htext, hspace, -, -⟩ := text_cons hne hlt
  intro c' hc'
  cases sign with
  | missing =>
    rw [htext] at hc'
    obtain rfl := Option.some.inj hc'
    exact hspace
  | plus => exact (Option.some.inj hc') ▸ rfl
  | minus => exact (Option.some.inj hc') ▸ rfl

/-- An integer that has the whole text is read to its end. -/
theorem stoll_of_reads (h : Reads input value) :
    stoll input = if FitsInt64 value then .ok (value, input.length) else .error .outOfRange := by
  obtain ⟨spaces, sign, ds, hspaces, hne, hlt, htext⟩ := h
  have hread : digits.read 0 (digits.text ds) = (valueFrom 10 0 ds, []) := by
    have hall := digits.read_text hlt 0 []
    rwa [List.append_nil, digits.read_stops digits.stops_nil] at hall
  have hlength : (digits.text ds).length ≠ 0 := by
    rw [digits.length_text]
    exact fun hzero => hne (List.length_eq_zero_iff.mp hzero)
  have hdrop : input.dropWhile isSpace = sign.text ++ digits.text ds := by
    rw [htext]
    exact dropWhile_spaces hspaces (head_signed hne hlt)
  simp only [stoll, hdrop, takeSign_text hne hlt, hread, List.length_nil, Nat.sub_zero]
  rw [if_neg (Ne.symm hlength)]

/-- What is taken from a text that is used up is the integer that the text is. -/
theorem reads_of_stoll (h : stoll input = .ok (value, input.length)) : Reads input value := by
  have hsplit := takeSign_split (input.dropWhile isSpace)
  have hinput := (List.takeWhile_append_dropWhile (p := isSpace) (l := input)).symm
  simp only [stoll] at h
  generalize takeSign (input.dropWhile isSpace) = signed at h hsplit
  obtain ⟨sign, cs⟩ := signed
  replace hsplit : input.dropWhile isSpace = sign.text ++ cs := hsplit
  dsimp only at h
  obtain ⟨ds, hlt, htext, -, hvalue⟩ := digits.read_split 0 cs
  split at h
  · cases h
  · rename_i hused
    split at h
    · obtain ⟨rfl, hlength⟩ := Prod.mk.inj (Except.ok.inj h)
      have hle : cs.length ≤ input.length := by
        rw [hinput, hsplit, List.length_append, List.length_append]
        omega
      have hrest : (digits.read 0 cs).2 = [] := by
        have hcs := digits.length_read 0 cs
        apply List.length_eq_zero_iff.mp
        omega
      rw [hrest] at hused htext
      rw [List.append_nil] at htext
      have hne : ds ≠ [] := by
        rintro rfl
        exact hused (by rw [htext]; rfl)
      rw [hvalue]
      refine .mk (input.takeWhile isSpace) sign ds (fun c hc => ?_) hne hlt ?_
      · exact List.all_eq_true.mp List.all_takeWhile c hc
      · rw [← htext, ← hsplit, ← hinput]
    · cases h

theorem stoll_exact : stoll input = .ok (value, input.length) ↔
    Reads input value ∧ FitsInt64 value := by
  refine ⟨fun h => ?_, fun ⟨hreads, hfits⟩ => by rw [stoll_of_reads hreads, if_pos hfits]⟩
  have hreads := reads_of_stoll h
  refine ⟨hreads, ?_⟩
  rw [stoll_of_reads hreads] at h
  split at h
  · assumption
  · cases h

/-! ## What `toString` writes -/

theorem reads_toString (value : Int) : Reads (toString value) value := by
  have hlt : ∀ d ∈ Numeral.Alphabet.digitsOf 10 value.natAbs, d < 10 :=
    fun d hd => Numeral.Alphabet.digitsOf_lt (by omega) value.natAbs d hd
  have hread : Reads (toString value) ((if value < 0 then Sign.minus else Sign.missing).apply
      (valueFrom 10 0 (Numeral.Alphabet.digitsOf 10 value.natAbs))) :=
    .mk [] _ _ (by simp) (Numeral.Alphabet.digitsOf_ne_nil value.natAbs) hlt rfl
  rw [Numeral.Alphabet.valueFrom_digitsOf] at hread
  have hvalue : (if value < 0 then Sign.minus else Sign.missing).apply value.natAbs = value := by
    split <;> simp only [Sign.apply] <;> omega
  rwa [hvalue] at hread

end Decimal

end AgentRuntime
