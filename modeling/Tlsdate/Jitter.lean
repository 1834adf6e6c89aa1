import Tlsdate.TimerDelays

namespace Tlsdate.Jitter

open CInt Options DaemonState Kickoff EventLoop TimerDelays

def steadyInterval (opts : Opts) (n : BitVec 32) : Int :=
  addJitter opts.steadyStateInterval opts.jitter n

theorem setupWakes_interval (n : BitVec 32) (s : State) : (setupWakes n s).events .steadystate =
    some (.timer (steadyInterval s.opts n)) := by
  simp [setupWakes, steadyInterval]

section Spread

variable {m x : Int}

theorem spread_nonneg (hm : 0 < m) (hx : x ≠ -2 ^ 31) : 0 ≤ spread m x := by
  rw [spread, if_neg hx]
  exact Int.emod_nonneg |x| hm.ne'

theorem le_spread_iff {d : Int} (hm : 0 < m) (hd : 0 ≤ d) :
    -d ≤ spread m x ↔ x ≠ -2 ^ 31 ∨ 2 ^ 31 % m ≤ d := by
  by_cases hx : x = -2 ^ 31
  · rw [spread, if_pos hx, neg_le_neg_iff]
    exact ⟨Or.inr, fun h => h.resolve_left fun hne => hne hx⟩
  · have hnonneg := spread_nonneg hm hx
    exact iff_of_true (by omega) (Or.inl hx)

end Spread

section Bounds

variable {base jitter : Int}

theorem addJitter_spread (h0 : 0 < jitter) (hle : jitter ≤ base) (hfit : base + 2 * jitter < 2 ^ 31)
    (n : BitVec 32) :
    addJitter base jitter n = base - jitter + spread (2 * jitter) n.toInt := by
  have hperiod : |toInt (2 * jitter)| = 2 * jitter := by
    rw [toInt_of_range (by omega) (by omega), abs_of_pos (by omega)]
  have hbounds := spread_bounds (show 0 < 2 * jitter by omega) n.toInt
  have hrest := Int.emod_lt_of_pos (2 ^ 31) (show 0 < 2 * jitter by omega)
  rw [addJitter_eq n h0.ne', hperiod, toInt_of_range] <;> omega

theorem period_fits_iff (h0 : 0 < jitter) : 2 ^ 31 % (2 * jitter) ≤ 0 ↔ jitter ∣ 2 ^ 30 := by
  have hnonneg := Int.emod_nonneg (2 ^ 31) (show 2 * jitter ≠ 0 by omega)
  have hhalf : (2 ^ 31 : Int) = 2 * 2 ^ 30 := by norm_num
  rw [← mul_dvd_mul_iff_left (two_ne_zero' Int), ← hhalf, Int.dvd_iff_emod_eq_zero]
  omega

/-- A kickoff adds a negative jitter only for the value that has no absolute value. -/
theorem kickoffJitter_nonneg (r : Readings) (s : State) :
    0 ≤ kickoffJitter r s ↔ (desynced r s = true → r.random.toInt ≠ -2 ^ 31) := by
  rw [kickoffJitter]
  cases hd : desynced r s with
  | false => simp
  | true =>
      have hne : s.clockDelta ≠ 0 := fun h => by
        rw [desynced_zero h] at hd
        cases hd
      simpa [hne] using addJitter_nonneg r.random

theorem addJitter_within (h0 : 0 < jitter) (hle : jitter ≤ base) (hfit : base + 2 * jitter < 2 ^ 31)
    (n : BitVec 32) :
    (base - jitter ≤ addJitter base jitter n ∧ addJitter base jitter n ≤ base + jitter ↔
      n.toInt ≠ -2 ^ 31 ∨ jitter ∣ 2 ^ 30) ∧
    (∀ opts : Opts, opts.steadyStateInterval = base → opts.jitter = jitter →
      (0 ≤ steadyInterval opts n ↔
        n.toInt ≠ -2 ^ 31 ∨ 2 ^ 31 % (2 * jitter) ≤ base - jitter)) ∧
    ∀ r s, 0 ≤ kickoffJitter r s ↔ (desynced r s = true → r.random.toInt ≠ -2 ^ 31) := by
  have hperiod : 0 < 2 * jitter := by omega
  have hbelow := (spread_bounds hperiod n.toInt).2
  refine ⟨?_, ?_, kickoffJitter_nonneg⟩
  · have hlow := le_spread_iff (x := n.toInt) hperiod le_rfl
    rw [period_fits_iff h0] at hlow
    rw [addJitter_spread h0 hle hfit, ← hlow]
    constructor
    · rintro ⟨h, -⟩
      omega
    · intro h
      constructor <;> omega
  · rintro opts rfl rfl
    rw [steadyInterval, addJitter_spread h0 hle hfit, ← le_spread_iff hperiod (by omega)]
    omega

theorem addJitter_within_test :
    (100 - 25 ≤ addJitter 100 25 7 ∧ addJitter 100 25 7 ≤ 100 + 25 ↔
      (7 : BitVec 32).toInt ≠ -2 ^ 31 ∨ (25 : Int) ∣ 2 ^ 30) ∧
    (∀ opts : Opts, opts.steadyStateInterval = 100 → opts.jitter = 25 →
      (0 ≤ steadyInterval opts 7 ↔
        (7 : BitVec 32).toInt ≠ -2 ^ 31 ∨ 2 ^ 31 % (2 * 25) ≤ (100 : Int) - 25)) ∧
    ∀ r s, 0 ≤ kickoffJitter r s ↔ (desynced r s = true → r.random.toInt ≠ -2 ^ 31) :=
  addJitter_within (by decide) (by decide) (by decide) 7

/-- The bounds of the unit test, and the sign of a kickoff's jitter, are missed
with the random bytes of the least int. -/
theorem addJitter_escapes : ¬ 100 - 25 ≤ addJitter 100 25 (BitVec.intMin 32) ∧
    addJitter 100 25 (BitVec.intMin 32) = 27 ∧ addJitter 30 30 (BitVec.intMin 32) = -8 ∧
    addJitter 101 100 (BitVec.intMin 32) = -47 := by
  decide +kernel

end Bounds

end Tlsdate.Jitter
