import Mathlib.Data.Int.Order.Basic
import Mathlib.Tactic.Linarith

namespace Tlsdate.CInt

def wrap (bits : Nat) (x : Int) : Int := Int.bmod x (2 ^ bits)

def toInt (x : Int) : Int := wrap 32 x

def toUInt (x : Int) : Nat := (x % 2 ^ 32).toNat

/-- `abs` in two's complement: the least `int` has no positive counterpart. -/
def intAbs (x : Int) : Int := if x < 0 then toInt (-x) else x

theorem wrap_eq (bits : Nat) (x : Int) :
    wrap bits x = if x % (2 ^ bits : Nat) < ((2 ^ bits : Nat) + 1) / 2
      then x % (2 ^ bits : Nat) else x % (2 ^ bits : Nat) - (2 ^ bits : Nat) :=
  Int.bmod_def x (2 ^ bits)

theorem toInt_of_range {x : Int} (hl : -2 ^ 31 ≤ x) (hu : x < 2 ^ 31) : toInt x = x := by
  rw [toInt, wrap_eq]
  split <;> omega

theorem intAbs_nonneg {x : Int} (hl : -2 ^ 31 < x) (hu : x < 2 ^ 31) : 0 ≤ intAbs x := by
  rw [intAbs]
  split
  next => rw [toInt_of_range] <;> omega
  next => omega

end Tlsdate.CInt
