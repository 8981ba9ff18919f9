import Mathlib

/-!
# Decimal numbers of a fixed width

ASCII digits read as a number, with a sign in front of them or none, and the digits of a
number that fits a width.
-/
namespace Net2Modbus
namespace Decimal

def isAsciiDigit (c : UInt8) : Bool := decide (0x30 ≤ c.toNat ∧ c.toNat ≤ 0x39)
def isSign (c : UInt8) : Bool := c == 0x2B || c == 0x2D

/-- The number that some digits stand for. -/
def digitsVal (text : List UInt8) : Option Nat :=
  text.foldl (fun value c => value.bind fun n => if isAsciiDigit c then some (10 * n + (c.toNat - 0x30)) else none) (some 0)
/-- The number of digits behind a sign, or without one. -/
def signedVal (text : List UInt8) : Option Int :=
  match text with
  | 0x2B :: rest => (digitsVal rest).map fun (n : Nat) => (n : Int)
  | 0x2D :: rest => (digitsVal rest).map fun (n : Nat) => -(n : Int)
  | _ => (digitsVal text).map fun (n : Nat) => (n : Int)

/-- The last digits of a number, as many as the width. -/
def fixedDigits : Nat → Nat → List UInt8
  | 0,_ => []
  | width + 1,n => fixedDigits width (n / 10) ++ [UInt8.ofNat (n % 10 + 0x30)]

variable {text : List UInt8} {n width : Nat}

theorem digitsVal_snoc (text : List UInt8) (c : UInt8) :
    digitsVal (text ++ [c]) =
      (digitsVal text).bind fun n => if isAsciiDigit c then some (10 * n + (c.toNat - 0x30)) else none := by
  simp [digitsVal,List.foldl_append]
theorem digit_toNat {d : Nat} (small : d < 10) : (UInt8.ofNat (d + 0x30)).toNat = d + 0x30 := by
  rw [UInt8.toNat_ofNat']
  omega
theorem isAsciiDigit_digit {d : Nat} (small : d < 10) : isAsciiDigit (UInt8.ofNat (d + 0x30)) = true := by
  rw [isAsciiDigit,digit_toNat small]
  simp
  omega

/-- A text of some digits has a number below the power of its length. -/
theorem digitsVal_lt (found : digitsVal text = some n) : n < 10 ^ text.length := by
  induction text using List.reverseRecOn generalizing n with
  | nil =>
    obtain rfl := Option.some.inj found
    exact Nat.one_pos
  | append_singleton text c ih =>
    rw [digitsVal_snoc,Option.bind_eq_some_iff] at found
    obtain ⟨m,front,last⟩ := found
    have bound := ih front
    by_cases digit : isAsciiDigit c = true
    · rw [if_pos digit] at last
      obtain rfl := Option.some.inj last
      rw [isAsciiDigit,decide_eq_true_eq] at digit
      rw [List.length_append,List.length_singleton,Nat.pow_succ]
      omega
    · rw [if_neg digit] at last
      contradiction
theorem signedVal_lt {x : Int} (found : signedVal text = some x) : x < 10 ^ text.length := by
  have grows (c : UInt8) (rest : List UInt8) (n : Nat) (small : n < 10 ^ rest.length) :
      (n : Int) < 10 ^ (c :: rest).length := by
    have power : 10 ^ rest.length ≤ 10 ^ (c :: rest).length := Nat.pow_le_pow_right (by decide) (by simp)
    have less : n < 10 ^ (c :: rest).length := by omega
    exact_mod_cast less
  unfold signedVal at found
  split at found
  · obtain ⟨n,front,rfl⟩ := Option.map_eq_some_iff.mp found
    exact grows _ _ n (digitsVal_lt front)
  · obtain ⟨n,front,rfl⟩ := Option.map_eq_some_iff.mp found
    have above := grows 0x2D _ n (digitsVal_lt front)
    omega
  · obtain ⟨n,front,rfl⟩ := Option.map_eq_some_iff.mp found
    exact_mod_cast digitsVal_lt front
/-- Digits without a sign in front of them stand for no negative number. -/
theorem signedVal_nonneg {c : UInt8} {x : Int} (digit : isAsciiDigit c = true) (found : signedVal (c :: text) = some x) : 0 ≤ x := by
  rw [isAsciiDigit,decide_eq_true_eq] at digit
  unfold signedVal at found
  split at found
  · rename_i same
    rw [(List.cons.inj same).1] at digit
    simp at digit
  · rename_i same
    rw [(List.cons.inj same).1] at digit
    simp at digit
  · obtain ⟨n,-,rfl⟩ := Option.map_eq_some_iff.mp found
    exact Int.natCast_nonneg n

theorem fixedDigits_digit {c : UInt8} (member : c ∈ fixedDigits width n) : isAsciiDigit c = true := by
  induction width generalizing n with
  | zero => exact absurd member List.not_mem_nil
  | succ width ih =>
    rcases List.mem_append.mp member with front | last
    · exact ih front
    · rw [List.mem_singleton.mp last]
      exact isAsciiDigit_digit (Nat.mod_lt n (by decide))
/-- A number is read back from its digits when it has no more of them. -/
theorem digitsVal_fixedDigits (fits : n < 10 ^ width) : digitsVal (fixedDigits width n) = some n := by
  induction width generalizing n with
  | zero =>
    have zero : n = 0 := by simpa using fits
    rw [zero]
    rfl
  | succ width ih =>
    have front : n / 10 < 10 ^ width := by
      rw [Nat.pow_succ] at fits
      omega
    have small : n % 10 < 10 := Nat.mod_lt n (by decide)
    rw [fixedDigits,digitsVal_snoc,ih front,Option.bind_some,if_pos (isAsciiDigit_digit small),digit_toNat small]
    congr 1
    omega
theorem signedVal_fixedDigits (fits : n < 10 ^ (width + 1)) : signedVal (fixedDigits (width + 1) n) = some (n : Int) := by
  have digits := digitsVal_fixedDigits fits
  have first : ∀ c ∈ (fixedDigits (width + 1) n).head?, isAsciiDigit c = true := by
    intro c head
    exact fixedDigits_digit (List.mem_of_head? head)
  unfold signedVal
  split
  · rename_i same
    rw [same] at first
    exact absurd (first 0x2B rfl) (by decide)
  · rename_i same
    rw [same] at first
    exact absurd (first 0x2D rfl) (by decide)
  · rw [digits]
    rfl

end Decimal
end Net2Modbus
