import PinBoard.Pin.Recording
import Mathlib.Data.Rat.Floor

/-!
# How long a pin stays

The days until the time of a pin is over are counted in 64-bit integers, begun days included. The
difference of two times may not fit them; it is cut then, and so is the sum that rounds up. Both
cuts are told here in exact integers, so that it can be read off for which differences the count is
the rounded one and for which it is the greatest there is.
-/

namespace PinBoard

/-! ## The nearest integer of 64 bits -/

/-- The greatest integer of 64 bits. -/
def maxInt64 : Int := 9223372036854775807

/-- No integer of 64 bits is nearer to the given one. -/
def IsNearest (n : Int) (m : Int64) : Prop :=
  ∀ k : Int64, (n - m.toInt).natAbs ≤ (n - k.toInt).natAbs

theorem toInt_nearestInt64 (n : Int) :
    (nearestInt64 n).toInt = max (-maxInt64 - 1) (min n maxInt64) := by
  unfold nearestInt64 maxInt64
  exact Int64.toInt_ofInt_of_le (by omega) (by omega)

theorem isNearest_nearestInt64 (n : Int) : IsNearest n (nearestInt64 n) := by
  intro k
  have hlow := k.le_toInt
  have hhigh := k.toInt_lt
  rw [toInt_nearestInt64]
  unfold maxInt64
  omega

/-! ## Counting days -/

section Days

variable (p : PinnedRecording) (now : Int64)

/-- The days in exact integers: what is left is rounded up, but only as far as the sum that rounds
up can be held. -/
theorem PinnedRecording.toInt_daysRemaining :
    (p.daysRemaining now).toInt =
      min (max (p.pinnedUntil.toInt - now.toInt) 0 + 86399) maxInt64 / 86400 := by
  -- a difference that is cut below is negative and so none
  have hleft : max (nearestInt64 (p.pinnedUntil.toInt - now.toInt)).toInt 0 =
      min (max (p.pinnedUntil.toInt - now.toInt) 0) maxInt64 := by
    rw [toInt_nearestInt64]
    unfold maxInt64
    omega
  have hday : (secondsPerDay : Int) = 86400 := rfl
  simp only [PinnedRecording.daysRemaining]
  rw [hleft, toInt_nearestInt64, hday]
  unfold maxInt64
  rw [Int64.toInt_ofInt_of_le (by omega) (by omega)]
  omega

/-- Each value on the way to the days is a 64-bit integer: the difference and the sum are the
nearest to the exact ones, and the quotient is exact. -/
theorem PinnedRecording.daysRemaining_steps :
    ∃ left padded : Int64, IsNearest (p.pinnedUntil.toInt - now.toInt) left ∧
      IsNearest (max left.toInt 0 + 86399) padded ∧
      (p.daysRemaining now).toInt = padded.toInt.tdiv 86400 := by
  refine ⟨_, _, isNearest_nearestInt64 _, isNearest_nearestInt64 _, ?_⟩
  rw [p.toInt_daysRemaining, toInt_nearestInt64, toInt_nearestInt64,
    Int.tdiv_eq_ediv_of_nonneg (by unfold maxInt64; omega)]
  unfold maxInt64
  omega

end Days

/-- Days that are rounded up. -/
theorem ceil_div_day (n : Int) : ⌈(n : ℚ) / 86400⌉ = (n + 86399) / 86400 := by
  have hceil : ⌈(n : ℚ) / (86400 : Nat)⌉ = -((-n) / (86400 : Nat)) :=
    Rat.ceil_intCast_div_natCast n 86400
  norm_cast at hceil ⊢
  rw [hceil]
  omega

/-- **How long a pin stays.**  For all times that 64 bits hold the days are worked out without an
overflow. None are left exactly if the time is over. As long as the greatest number of whole days
that 64 bits hold is not exceeded, the exact difference in days is rounded up; any greater
difference counts as that many days. A pin that ends later has no fewer days left, and later there
are no more. -/
theorem days_until_over (p : PinnedRecording) (now : Int64) :
    (∃ left padded : Int64, IsNearest (p.pinnedUntil.toInt - now.toInt) left ∧
        IsNearest (max left.toInt 0 + 86399) padded ∧
        (p.daysRemaining now).toInt = padded.toInt.tdiv 86400) ∧
      (p.daysRemaining now = 0 ↔ p.pinnedUntil ≤ now) ∧
      (0 < p.pinnedUntil.toInt - now.toInt →
        p.pinnedUntil.toInt - now.toInt ≤ 9223372036854720000 →
        (p.daysRemaining now).toInt =
          ⌈((p.pinnedUntil.toInt - now.toInt : Int) : ℚ) / 86400⌉) ∧
      (9223372036854720000 < p.pinnedUntil.toInt - now.toInt →
        (p.daysRemaining now).toInt = 106751991167300 ∧
        106751991167300 = maxInt64 / 86400) ∧
      (∀ q : PinnedRecording, p.pinnedUntil ≤ q.pinnedUntil →
        p.daysRemaining now ≤ q.daysRemaining now) ∧
      ∀ later, now ≤ later → p.daysRemaining later ≤ p.daysRemaining now := by
  have hdays := p.toInt_daysRemaining
  refine ⟨p.daysRemaining_steps now, ?_, ?_, ?_, ?_, ?_⟩
  · rw [← Int64.toInt_inj, Int64.le_iff_toInt_le, hdays, Int64.toInt_zero]
    unfold maxInt64
    omega
  · intro hpositive hheld
    rw [ceil_div_day, hdays]
    unfold maxInt64
    omega
  · intro hgreat
    rw [hdays]
    unfold maxInt64
    omega
  · intro q h
    rw [Int64.le_iff_toInt_le] at h ⊢
    rw [hdays, q.toInt_daysRemaining]
    exact Int.ediv_le_ediv (by decide) (by omega)
  · intro later h
    rw [Int64.le_iff_toInt_le] at h ⊢
    rw [hdays, hdays]
    exact Int.ediv_le_ediv (by decide) (by omega)

/-! ## One pin at the limit -/

/-- A pin that stays, counted from the epoch, for the greatest number of whole days. -/
def longestPin : PinnedRecording := ⟨0, "m", none, none, 0, 9223372036854720000, none⟩

/-- At the epoch its days are still exact; a second before it they are cut, and none are left when
it is over. -/
theorem days_of_longestPin :
    (0 < longestPin.pinnedUntil.toInt - (0 : Int64).toInt ∧
        longestPin.pinnedUntil.toInt - (0 : Int64).toInt ≤ 9223372036854720000 ∧
        (longestPin.daysRemaining 0).toInt =
          ⌈((longestPin.pinnedUntil.toInt - (0 : Int64).toInt : Int) : ℚ) / 86400⌉) ∧
      (9223372036854720000 < longestPin.pinnedUntil.toInt - (-1 : Int64).toInt ∧
        (longestPin.daysRemaining (-1)).toInt = 106751991167300) ∧
      ((0 : Int64) ≤ longestPin.pinnedUntil ∧
        longestPin.daysRemaining longestPin.pinnedUntil ≤ longestPin.daysRemaining 0) ∧
      longestPin.daysRemaining longestPin.pinnedUntil = 0 := by
  obtain ⟨-, -, hexact, -, -, hlater⟩ := days_until_over longestPin 0
  obtain ⟨-, -, -, hcut, -, -⟩ := days_until_over longestPin (-1)
  obtain ⟨-, hover, -, -, -, -⟩ := days_until_over longestPin longestPin.pinnedUntil
  have hpositive : 0 < longestPin.pinnedUntil.toInt - (0 : Int64).toInt := by decide
  have hheld : longestPin.pinnedUntil.toInt - (0 : Int64).toInt ≤ 9223372036854720000 := by decide
  have hgreat : 9223372036854720000 < longestPin.pinnedUntil.toInt - (-1 : Int64).toInt := by
    decide
  have hend : (0 : Int64) ≤ longestPin.pinnedUntil := by decide
  exact ⟨⟨hpositive, hheld, hexact hpositive hheld⟩, ⟨hgreat, (hcut hgreat).1⟩,
    ⟨hend, hlater _ hend⟩, hover.mpr (by decide)⟩

end PinBoard
