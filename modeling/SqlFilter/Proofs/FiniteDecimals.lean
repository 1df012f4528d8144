import Mathlib
import SqlFilter.Data.Basic
import SqlFilter.Decimal.Layout

/-!
Integers that are read as decimals are finite: an integer of 64 bits is far below the greatest
double, and its sign does not matter.
-/
namespace SqlFilter.FiniteDecimals
open Float.Model Float.Model.UnpackedFloat

/-- The greatest exponent of a finite double, whose mantissa is an integer. -/
def greatestExponent : Int := 971

def Fits : UnpackedFloat → Prop
  | .zero _ => True
  | .finite _ _ e _ => e ≤ greatestExponent
  | .infinity _ | .notANumber => False

theorem isFinite_unpack_of_exponent {b : BitVec Format.binary64.numBits}
    (h : unpackExponent b ≠ -1#_) : (UnpackedFloat.unpack Format.binary64 b).isFinite := by
  unfold UnpackedFloat.unpack
  simp only [h, if_false]
  split_ifs <;> rfl

theorem isFinite_unpack_pack {u : UnpackedFloat} (h : Fits u) :
    (UnpackedFloat.unpack Format.binary64 (UnpackedFloat.pack Format.binary64 u)).isFinite := by
  apply isFinite_unpack_of_exponent
  fun_cases UnpackedFloat.pack with
  | case1 => exact h.elim
  | case2 s => exact h.elim
  | case3 s => simp [packedZero]
  | case4 s m e hm biased hbig =>
    simp only [Fits, greatestExponent] at h
    simp [biased, Format.exponentBias] at hbig
    omega
  | case5 s m e hm bits biased hbig hbits =>
    rw [unpackExponent_packComponents]
    intro hones
    have hnat : biased % 2048 = 2047 := congrArg BitVec.toNat hones
    have hlt : biased + 1 < 2048 := Nat.lt_of_not_le hbig
    omega
  | case6 s m e hm bits biased hbig hbits =>
    rw [unpackExponent_packComponents]
    decide

theorem fits_unpack {b : BitVec Format.binary64.numBits}
    (h : (UnpackedFloat.unpack Format.binary64 b).isFinite) :
    Fits (UnpackedFloat.unpack Format.binary64 b) := by
  unfold UnpackedFloat.unpack at h ⊢
  simp only at h ⊢
  split_ifs at h ⊢ with hones _ hzero
  · cases h
  · cases h
  · trivial
  · change _ ≤ greatestExponent
    simp [hzero, Format.exponentBias, greatestExponent]
  · change _ ≤ greatestExponent
    have hlt := (unpackExponent b).isLt
    have hne : (unpackExponent b).toNat ≠ 2047 := fun h => hones (BitVec.eq_of_toNat_eq h)
    simp [Format.exponentBias, greatestExponent] at hlt ⊢
    omega

theorem fits_neg {u : UnpackedFloat} (h : Fits u) : Fits u.neg := by
  cases u with
  | infinity s | notANumber => exact h.elim
  | zero s => exact trivial
  | finite s m e hm => exact h

theorem shiftRight_mantissa_le (em : ExtendedMantissa) (k : Nat) :
    (em >>> k).mantissa ≤ em.mantissa := by
  change (k.repeat ExtendedMantissa.shiftRightOne em).mantissa ≤ em.mantissa
  induction k with
  | zero => exact Nat.le_refl _
  | succ k ih => exact (Nat.div_le_self _ 2).trans ih

theorem roundedMantissa_le (em : ExtendedMantissa) : em.roundedMantissa ≤ em.mantissa + 1 := by
  obtain ⟨m, round, sticky⟩ := em
  cases round <;> cases sticky <;>
    simp [ExtendedMantissa.roundedMantissa, ExtendedMantissa.accuracy, Accuracy.roundToNearestEven]
  omega

theorem ofMantissaAndAccuracy_mantissa (m : Nat) (accuracy : Accuracy) :
    (ExtendedMantissa.ofMantissaAndAccuracy m accuracy).mantissa = m := by
  cases accuracy with
  | exact => rfl
  | inexact order => cases order <;> rfl

/-- A shift makes the mantissa no greater, and the exponent by no more than the mantissa asks. -/
theorem shiftToTargetExponent_le (m : Nat) (e : Int) (accuracy : Accuracy) :
    (shiftToTargetExponent Format.binary64 m e accuracy).1.mantissa ≤ m ∧
      (shiftToTargetExponent Format.binary64 m e accuracy).2 ≤
        max e (max (e + m.log2) (-1074)) := by
  constructor
  · refine (shiftRight_mantissa_le _ _).trans_eq (ofMantissaAndAccuracy_mantissa m accuracy)
  · simp [shiftToTargetExponent, shiftToExponent, Format.targetExponent, totalExponent,
      Format.mantissaBits, Format.minExponent]
    omega

theorem log2_lt_of_lt {m k : Nat} (hk : 0 < k) (h : m < 2 ^ k) : m.log2 < k := by
  rcases Nat.eq_zero_or_pos m with rfl | hm
  · simpa using hk
  · exact (Nat.log2_lt hm.ne').2 h

/-- Rounding shifts twice, the second time by one bit more at most. -/
theorem fits_roundWithAccuracy (s : Sign) {m : Nat} {e : Int} (accuracy : Accuracy)
    (hm : m < 2 ^ 200) (he : e ≤ 0) :
    Fits (roundWithAccuracy Format.binary64 s m e accuracy) := by
  obtain ⟨hmantissa, hexponent⟩ := shiftToTargetExponent_le m e accuracy
  generalize hfirst : shiftToTargetExponent Format.binary64 m e accuracy = first
    at hmantissa hexponent
  obtain ⟨em, e'⟩ := first
  obtain ⟨-, hexponent'⟩ := shiftToTargetExponent_le em.roundedMantissa e' .exact
  have hround := roundedMantissa_le em
  have hlog := log2_lt_of_lt (by omega) hm
  have hlog' : em.roundedMantissa.log2 < 201 := by
    refine log2_lt_of_lt (by omega) ?_
    simp only at hmantissa
    omega
  unfold roundWithAccuracy
  simp only [hfirst]
  split_ifs
  · trivial
  · change _ ≤ greatestExponent
    simp only [greatestExponent] at *
    omega

/-- A positive integer is shifted to the left by the 52 places of a mantissa at most. -/
theorem fits_round (s : Sign) {n : Nat} (h : n < 2 ^ 64) :
    Fits (UnpackedFloat.round Format.binary64 s n 0) := by
  let k := (0 - Format.binary64.targetExponent (totalExponent n 0)).toNat
  have hk : k ≤ 52 := by
    simp only [k, Format.targetExponent, totalExponent, Format.mantissaBits, Format.minExponent]
    omega
  have hshift : n <<< k < 2 ^ 200 := by
    calc n <<< k = n * 2 ^ k := Nat.shiftLeft_eq n k
      _ ≤ n * 2 ^ 52 := Nat.mul_le_mul_left n (Nat.pow_le_pow_right (by omega) hk)
      _ < 2 ^ 200 := by omega
  exact fits_roundWithAccuracy (e := 0 - k) s .exact hshift (by omega)

theorem fits_ofNat {n : Nat} (h : n < 2 ^ 64) : Fits (UnpackedFloat.ofNat Format.binary64 n) := by
  unfold UnpackedFloat.ofNat UnpackedFloat.ofInt UnpackedFloat.normalize
  split
  · exact fits_round .negative (by omega)
  · trivial
  · exact fits_round .positive (by omega)

theorem isFinite_toFloat (n : UInt64) : n.toFloat.isFinite :=
  isFinite_unpack_pack (fits_ofNat n.toNat_lt)

theorem isFinite_neg {x : Float} (h : x.isFinite) : (-x).isFinite :=
  isFinite_unpack_pack (fits_neg (fits_unpack h))

theorem toNat_unpackExponent (b : BitVec Format.binary64.numBits) :
    (unpackExponent b).toNat = b.toNat / 2 ^ 52 % 2 ^ 11 := by
  unfold unpackExponent
  simp [Nat.shiftRight_eq_div_pow]

/-- JSON has no text for a decimal that is not finite. -/
theorem text_of_not_isFinite {x : Float} (h : ¬ x.isFinite) :
    Decimal.Layout.json.text x = "null" := by
  let bits : BitVec Format.binary64.numBits := x.toModel.toBits.toBitVec
  have hones : unpackExponent bits = -1#_ := by
    by_contra hones
    exact h (isFinite_unpack_of_exponent hones)
  have hexponent : x.toBits.toNat / Decimal.twoTo 52 % Decimal.twoTo 11 = 2047 :=
    (toNat_unpackExponent bits).symm.trans (congrArg BitVec.toNat hones)
  unfold Decimal.Layout.text Decimal.parts
  simp only [hexponent]
  split_ifs <;> rfl

theorem isFinite_of_decimal? {d : Data} {x : Float} (hd : ∀ y, d = .decimal y → y.isFinite)
    (h : d.decimal? = some x) : x.isFinite := by
  cases d with
  | decimal y =>
    cases h
    exact hd x rfl
  | integer n =>
    cases h
    split
    · exact isFinite_neg (isFinite_toFloat _)
    · exact isFinite_toFloat _
  | _ => cases h

end SqlFilter.FiniteDecimals
