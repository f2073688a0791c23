import PinBoard.Json.Decode
import PinBoard.Json.Writer
import PinBoard.Proofs.Result

/-!
# Integers

An integer that fits 64 bits, with or without a sign, is read back from its spelling.
-/

namespace PinBoard.Json

/-! ## Spellings -/

/-- More digits make no number smaller. -/
theorem le_ofDigitChars (ds : List Char) (n : Nat) : n ≤ Nat.ofDigitChars 10 ds n := by
  induction ds generalizing n with
  | nil => exact Nat.le_refl n
  | cons d rest ih =>
    rw [Nat.ofDigitChars_cons]
    have hrest := ih (10 * n + (d.toNat - '0'.toNat))
    omega

/-- Digits whose number does not exceed the limit are all taken in. -/
theorem absorb_of_le {limit : Nat} (ds : List Char) {n : Nat}
    (h : Nat.ofDigitChars 10 ds n ≤ limit) :
    absorb limit n ds = (Nat.ofDigitChars 10 ds n, []) := by
  induction ds generalizing n with
  | nil => rfl
  | cons d rest ih =>
    rw [Nat.ofDigitChars_cons] at h ⊢
    have hnext : n * 10 + digitValue d = 10 * n + (d.toNat - '0'.toNat) := by
      rw [digitValue, Nat.mul_comm]
    have hle := le_ofDigitChars rest (10 * n + (d.toNat - '0'.toNat))
    rw [absorb]
    simp only [hnext]
    rw [if_neg (by omega), ih h]

/-- An integer that fits 64 bits is what its spelling is read as. -/
theorem Numeral.value_ofInt {i : Int} (hlow : -(maxSigned : Int) - 1 ≤ i)
    (hhigh : i ≤ maxUnsigned) : (Numeral.ofInt i).value = .ok (.integer i) := by
  have hdigits : Nat.ofDigitChars 10 (Nat.toDigits 10 i.natAbs) 0 = i.natAbs :=
    Nat.ofDigitChars_toDigits (by omega) (by omega)
  have hfits : i.natAbs ≤ maxUnsigned := by
    unfold maxSigned at hlow
    unfold maxUnsigned at hhigh ⊢
    omega
  have habsorb : absorb maxUnsigned 0 (Nat.toDigits 10 i.natAbs) = (i.natAbs, []) := by
    have hbound : Nat.ofDigitChars 10 (Nat.toDigits 10 i.natAbs) 0 ≤ maxUnsigned := by
      rw [hdigits]
      exact hfits
    rw [absorb_of_le _ hbound, hdigits]
  unfold Numeral.value Numeral.ofInt
  simp only [habsorb]
  by_cases hnegative : i < 0
  · have hrange : 0 < i.natAbs ∧ i.natAbs ≤ maxSigned + 1 := by omega
    have hvalue : -(i.natAbs : Int) = i := by omega
    simp only [hnegative, hrange, hvalue, decide_true, Bool.not_true, Bool.and_self, if_true,
      Bool.false_eq_true, if_false]
  · have hvalue : (i.natAbs : Int) = i := by omega
    simp only [hnegative, hvalue, decide_false, Bool.not_false, if_true]

/-! ## Integers between bounds -/

/-- Every number of 64 bits without a sign fits. -/
theorem toNat_le_maxUnsigned (n : UInt64) : n.toNat ≤ maxUnsigned := by
  have hlt := n.toNat_lt
  unfold maxUnsigned
  omega

/-- Every number of 64 bits with a sign fits. -/
theorem toInt_mem_signed (n : Int64) : -(maxSigned : Int) - 1 ≤ n.toInt ∧ n.toInt ≤ maxSigned := by
  have hlow := n.le_toInt
  have hhigh := n.toInt_lt
  unfold maxSigned
  omega

/-- An integer within the bounds is read back. -/
theorem integer_ofInt {expected : Expected} {low high i : Int} (hlow : low ≤ i) (hhigh : i ≤ high)
    (hfits : -(maxSigned : Int) - 1 ≤ i ∧ i ≤ maxUnsigned) :
    integer expected low high (.ofInt i) = .ok i := by
  have hvalue : (Numeral.ofInt i).value = .ok (.integer i) :=
    Numeral.value_ofInt hfits.1 hfits.2
  have hrange : (decide (low ≤ i) && decide (i ≤ high)) = true := by
    simp [hlow, hhigh]
  simp only [Tree.ofInt, integer, hvalue, hrange]
  rfl

/-- A number of 64 bits with a sign is read back. -/
theorem int64_ofInt {i : Int} (hlow : -(maxSigned : Int) - 1 ≤ i) (hhigh : i ≤ maxSigned) :
    int64 (.ofInt i) = .ok i := by
  refine integer_ofInt hlow hhigh ⟨hlow, ?_⟩
  unfold maxSigned at hhigh
  unfold maxUnsigned
  omega

/-- A number of 64 bits without a sign is read back. -/
theorem uint64_ofInt {n : Nat} (h : n ≤ maxUnsigned) : uint64 (.ofInt n) = .ok n := by
  have hread : integer .unsigned 0 maxUnsigned (.ofInt n) = .ok n :=
    integer_ofInt (by omega) (by omega) ⟨by unfold maxSigned; omega, by omega⟩
  rw [uint64, hread]
  rfl

/-! ## Counts -/

/-- A count is read back. -/
theorem size_ofInt {n : Nat} (h : n ≤ maxUnsigned) : size (.ofInt n) = .ok n := by
  have hread : integer .size 0 maxUnsigned (.ofInt n) = .ok n :=
    integer_ofInt (by omega) (by omega) ⟨by unfold maxSigned; omega, by omega⟩
  rw [size, hread]
  rfl

/-- What is read as a count is an integer, the count itself. -/
theorem size_eq_ok {t : Tree} {n : Nat} (h : size t = .ok n) :
    ∃ spelling, t = .number spelling ∧ spelling.value = .ok (.integer n) ∧ n ≤ maxUnsigned := by
  obtain ⟨v, hv, rfl⟩ := map_eq_ok_iff.mp h
  unfold integer at hv
  split at hv
  · rename_i spelling
    split at hv
    · rename_i w hw
      split at hv
      · rename_i hrange
        rw [Bool.and_eq_true, decide_eq_true_iff, decide_eq_true_iff] at hrange
        rw [← Except.ok.inj hv]
        refine ⟨spelling, rfl, ?_, by omega⟩
        rw [hw, Int.toNat_of_nonneg hrange.1]
      · exact absurd hv (by simp)
    · exact absurd hv (by simp)
    · exact absurd hv (by simp)
  · exact absurd hv (by simp)

end PinBoard.Json
