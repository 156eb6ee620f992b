import Mathlib.Data.Nat.Digits.Defs

/-!
# Positional numerals

The numerals of a base over any alphabet of symbols, the most significant digit
first. A reader takes as many digits as there are from the front of a text; a
writer makes the numeral without leading zeros. Nothing here depends on the base or on
what the symbols are.
-/
namespace Numeral

structure Alphabet (α : Type) (b : Nat) where
  symbol : Nat → α
  digit? : α → Option Nat
  digit?_symbol : ∀ d, d < b → digit? (symbol d) = some d
  lt_base : ∀ c d, digit? c = some d → d < b
  symbol_digit? : ∀ c d, digit? c = some d → symbol d = c

variable {α : Type} {b : Nat}

/-- The number that digits denote after a number that was read before them. -/
def valueFrom (b : Nat) (n : Nat) (digits : List Nat) : Nat :=
  digits.foldl (fun n d => n * b + d) n

theorem valueFrom_cons (n d : Nat) (digits : List Nat) :
    valueFrom b n (d :: digits) = valueFrom b (n * b + d) digits := rfl

theorem valueFrom_reverse (digits : List Nat) :
    valueFrom b 0 digits.reverse = Nat.ofDigits b digits := by
  rw [valueFrom, List.foldl_reverse, Nat.ofDigits_eq_foldr]
  induction digits with
  | nil => rfl
  | cons d digits ih =>
    rw [List.foldr_cons, List.foldr_cons, ih, Nat.cast_id, Nat.mul_comm, Nat.add_comm]

namespace Alphabet

variable (A : Alphabet α b)

def text (digits : List Nat) : List α := digits.map A.symbol

/-- The number so far and what is left of the text. -/
def read (n : Nat) : List α → Nat × List α
  | [] => (n, [])
  | c :: cs =>
    match A.digit? c with
    | some d => read (n * b + d) cs
    | none => (n, c :: cs)

/-- The digits of a number; zero has one. -/
def digitsOf (b n : Nat) : List Nat := if n = 0 then [0] else (Nat.digits b n).reverse

def write (n : Nat) : List α := A.text (digitsOf b n)

/-- No digit is at the front. -/
def Stops (cs : List α) : Prop := ∀ c ∈ cs.head?, A.digit? c = none

theorem stops_nil : A.Stops [] := by simp [Stops]

theorem stops_cons {c : α} {cs : List α} (h : A.digit? c = none) : A.Stops (c :: cs) := by
  simpa [Stops] using h

theorem read_stops {cs : List α} (h : A.Stops cs) (n : Nat) : A.read n cs = (n, cs) := by
  cases cs with
  | nil => rfl
  | cons c cs => simp [read, h c rfl]

/-- Digits are read to their end. -/
theorem read_text {digits : List Nat} (hlt : ∀ d ∈ digits, d < b) (n : Nat) (cs : List α) :
    A.read n (A.text digits ++ cs) = A.read (valueFrom b n digits) cs := by
  induction digits generalizing n with
  | nil => rfl
  | cons d digits ih =>
    have hd := A.digit?_symbol d (hlt d List.mem_cons_self)
    rw [text, List.map_cons, List.cons_append, read, hd, valueFrom_cons]
    exact ih (fun d' hd' => hlt d' (List.mem_cons_of_mem _ hd')) _

/-- What is read is all that there is of digits at the front. -/
theorem read_split (n : Nat) (cs : List α) : ∃ digits, (∀ d ∈ digits, d < b) ∧
    cs = A.text digits ++ (A.read n cs).2 ∧ A.Stops (A.read n cs).2 ∧
      (A.read n cs).1 = valueFrom b n digits := by
  induction cs generalizing n with
  | nil => exact ⟨[], by simp, rfl, A.stops_nil, rfl⟩
  | cons c cs ih =>
    cases hc : A.digit? c with
    | none =>
      rw [A.read_stops (A.stops_cons hc)]
      exact ⟨[], by simp, rfl, A.stops_cons hc, rfl⟩
    | some d =>
      obtain ⟨digits, hlt, htext, hstops, hvalue⟩ := ih (n * b + d)
      have hread : A.read n (c :: cs) = A.read (n * b + d) cs := by simp [read, hc]
      rw [hread]
      refine ⟨d :: digits, ?_, ?_, hstops, hvalue⟩
      · intro d' hd'
        obtain rfl | hd' := List.mem_cons.mp hd'
        · exact A.lt_base c d' hc
        · exact hlt d' hd'
      · rw [text, List.map_cons, A.symbol_digit? c d hc, List.cons_append]
        exact congrArg _ htext

theorem length_text (digits : List Nat) : (A.text digits).length = digits.length :=
  List.length_map ..

theorem length_read (n : Nat) (cs : List α) : (A.read n cs).2.length ≤ cs.length := by
  obtain ⟨digits, -, htext, -⟩ := A.read_split n cs
  have hlength := congrArg List.length htext
  rw [List.length_append] at hlength
  omega

theorem digitsOf_lt (hb : 1 < b) (n d : Nat) (h : d ∈ digitsOf b n) : d < b := by
  rw [digitsOf] at h
  split at h
  · rw [List.mem_singleton.mp h]
    omega
  · exact Nat.digits_lt_base hb (List.mem_reverse.mp h)

theorem digitsOf_ne_nil (n : Nat) : digitsOf b n ≠ [] := by
  rw [digitsOf]
  split
  · simp
  · rename_i hn
    simpa using Nat.digits_ne_nil_iff_ne_zero.mpr hn

theorem valueFrom_digitsOf (n : Nat) : valueFrom b 0 (digitsOf b n) = n := by
  rw [digitsOf]
  split
  · rename_i hn
    simp [valueFrom, hn]
  · rw [valueFrom_reverse, Nat.ofDigits_digits]

end Alphabet

end Numeral
