import Mathlib
import Noughts.Statistics.Summary

/-!
# Counting in doubles

The size of a sample is reported as a double.  Doubles hold every whole number up to `2 ^ 53`, so
sizes that are added up as doubles come to what they come to as numbers, as long as the sum is one
that doubles hold.

The double of a positive number is written as a significand of full width, that is of 53 bits, and
a place (`ofSignificand`).  Rounding leaves such a number alone, however it is brought to it
(`roundWithAccuracy_fullWidth`), and packing it into 64 bits loses nothing (`unpack_pack`).  This is
all there is to adding two of them (`ofSignificand_add`).

* `toFloat_add`: the double of a sum is the sum of the doubles.
* `foldl_add_toFloat`: so it is for a list of numbers, added from left to right.
* `toFloat_ne_zero`: no positive number has the double zero.  There is no bound here.  A number past
  `2 ^ 53` is rounded, but it keeps a significand of full width.
-/

set_option autoImplicit false

namespace Noughts.Number

open Float.Model Float.Model.UnpackedFloat
open Float.Model.Format (binary64)

variable {q : Nat}

/-! ## Significands -/

/-- A significand of full width: it has 53 bits, the first of which is set. -/
def FullWidth (q : Nat) : Prop := 2 ^ 52 ≤ q ∧ q < 2 ^ 53

theorem fullWidth_two_pow : FullWidth (2 ^ 52) := ⟨Nat.le_refl _, by decide⟩

theorem FullWidth.pos (h : FullWidth q) : 0 < q := Nat.lt_of_lt_of_le (by decide) h.1

theorem FullWidth.log2_eq (h : FullWidth q) : q.log2 = 52 :=
  (Nat.log2_eq_iff h.pos.ne').mpr h

theorem log2_mul_two_pow {m : Nat} (hm : m ≠ 0) (j : Nat) : (m * 2 ^ j).log2 = m.log2 + j := by
  induction j with
  | zero => simp
  | succ j ih =>
    have hne : m * 2 ^ j ≠ 0 := Nat.mul_ne_zero hm (Nat.two_pow_pos j).ne'
    rw [pow_succ', Nat.mul_left_comm, Nat.log2_two_mul hne, ih, Nat.add_assoc]

/-- A number that doubles hold has a significand and a place. -/
theorem exists_fullWidth {n : Nat} (hpos : 0 < n) (hn : n ≤ 2 ^ 53) :
    ∃ q place, FullWidth q ∧ place ≤ 53 ∧ q * 2 ^ place = n * 2 ^ 52 := by
  obtain ⟨hlow, hhigh⟩ := (Nat.log2_eq_iff hpos.ne').mp (rfl : n.log2 = n.log2)
  by_cases hplace : n.log2 ≤ 52
  · obtain ⟨k, hk⟩ := Nat.exists_eq_add_of_le hplace
    have hpower : 2 ^ 52 = 2 ^ n.log2 * 2 ^ k := by rw [← pow_add, ← hk]
    refine ⟨n * 2 ^ k, n.log2, ⟨?_, ?_⟩, by omega, ?_⟩
    · rw [hpower]
      exact Nat.mul_le_mul_right _ hlow
    · calc n * 2 ^ k < 2 ^ (n.log2 + 1) * 2 ^ k :=
          Nat.mul_lt_mul_of_pos_right hhigh (Nat.two_pow_pos k)
        _ = 2 ^ 53 := by rw [← pow_add, show n.log2 + 1 + k = 53 by omega]
    · rw [hpower]
      ring
  · have hpower : 2 ^ 53 ≤ 2 ^ n.log2 := Nat.pow_le_pow_right (by decide) (by omega)
    exact ⟨2 ^ 52, 53, fullWidth_two_pow, Nat.le_refl _, by omega⟩

/-- The first 53 bits of a number that has them. -/
theorem fullWidth_div {m : Nat} (hm : 2 ^ 52 ≤ m) : FullWidth (m / 2 ^ (m.log2 - 52)) := by
  have hne : m ≠ 0 := by omega
  obtain ⟨hlow, hhigh⟩ := (Nat.log2_eq_iff hne).mp (rfl : m.log2 = m.log2)
  obtain ⟨k, hk⟩ := Nat.exists_eq_add_of_le ((Nat.le_log2 hne).mpr hm)
  have hshift : m.log2 - 52 = k := by omega
  rw [hshift]
  constructor
  · rw [Nat.le_div_iff_mul_le (Nat.two_pow_pos k), ← pow_add, ← hk]
    exact hlow
  · rw [Nat.div_lt_iff_lt_mul (Nat.two_pow_pos k), ← pow_add, show 53 + k = m.log2 + 1 by omega]
    exact hhigh

/-! ## Rounding -/

theorem targetExponent_eq (e : Int) : binary64.targetExponent e = max (e - 53) (-1074) := rfl

/-- The exponent that a significand of full width is rounded to, with `j` bits behind it. -/
theorem targetExponent_fullWidth (h : FullWidth q) (j : Nat) {f : Int} (hf : -1074 ≤ f) :
    binary64.targetExponent (totalExponent (q * 2 ^ j) (f - j)) = f := by
  rw [targetExponent_eq, totalExponent, log2_mul_two_pow h.pos.ne', h.log2_eq]
  omega

/-- Zeros that are shifted out leave no trace. -/
theorem shiftRight_zeros (q j : Nat) :
    (⟨q * 2 ^ j, false, false⟩ : ExtendedMantissa) >>> j = ⟨q, false, false⟩ := by
  show j.repeat ExtendedMantissa.shiftRightOne ⟨q * 2 ^ j, false, false⟩ = _
  induction j generalizing q with
  | zero => simp [Nat.repeat]
  | succ j ih =>
    have hq : q * 2 ^ (j + 1) = q * 2 * 2 ^ j := by ring
    rw [Nat.repeat, hq, ih]
    simp [ExtendedMantissa.shiftRightOne]

theorem shiftToTargetExponent_fullWidth (h : FullWidth q) (j : Nat) {f : Int} (hf : -1074 ≤ f) :
    shiftToTargetExponent binary64 (q * 2 ^ j) (f - j) .exact = (⟨q, false, false⟩, f) := by
  have hshift : (f - (f - j)).toNat = j := by omega
  rw [shiftToTargetExponent, targetExponent_fullWidth h j hf]
  simp only [shiftToExponent, hshift, ExtendedMantissa.ofMantissaAndAccuracy, shiftRight_zeros]
  simp

/-- **A significand of full width is rounded to itself**, with whatever zeros behind it. -/
theorem roundWithAccuracy_fullWidth (h : FullWidth q) (s : Sign) (j : Nat) {f : Int}
    (hf : -1074 ≤ f) :
    roundWithAccuracy binary64 s (q * 2 ^ j) (f - j) .exact = .finite s q f h.pos := by
  have hfirst := shiftToTargetExponent_fullWidth h j hf
  have hrounded : (⟨q, false, false⟩ : ExtendedMantissa).roundedMantissa = q := rfl
  have hsecond : shiftToTargetExponent binary64 q f .exact = (⟨q, false, false⟩, f) := by
    simpa using shiftToTargetExponent_fullWidth h 0 hf
  simp only [roundWithAccuracy, hfirst, hrounded, hsecond]
  exact dif_neg h.pos.ne'

/-- Rounding where there are bits to be taken away. -/
theorem round_mul (h : FullWidth q) (j : Nat) {f : Int} (hf : -1074 ≤ f) :
    UnpackedFloat.round binary64 .positive (q * 2 ^ j) (f - j) = .finite .positive q f h.pos := by
  have hkept : decreaseExponent (q * 2 ^ j) (f - j) f = (q * 2 ^ j, f - j) := by
    simp [decreaseExponent]
  simp only [UnpackedFloat.round, targetExponent_fullWidth h j hf, hkept]
  exact roundWithAccuracy_fullWidth h .positive j hf

/-- Rounding where there are bits to be filled in. -/
theorem round_of_mul {m j : Nat} (h : FullWidth q) (hm : m * 2 ^ j = q) {f : Int}
    (hf : -1074 ≤ f) :
    UnpackedFloat.round binary64 .positive m (f + j) = .finite .positive q f h.pos := by
  have hne : m ≠ 0 := by
    rintro rfl
    exact h.pos.ne (by rw [← hm, Nat.zero_mul])
  have hlog : m.log2 + j = 52 := by rw [← log2_mul_two_pow hne, hm, h.log2_eq]
  have htarget : binary64.targetExponent (totalExponent m (f + j)) = f := by
    rw [targetExponent_eq, totalExponent]
    omega
  have hfilled : decreaseExponent m (f + j) f = (q, f) := by
    have hshift : (f + j - f).toNat = j := by omega
    simp only [decreaseExponent, hshift, Nat.shiftLeft_eq, hm]
    simp
  simp only [UnpackedFloat.round, htarget, hfilled]
  simpa using roundWithAccuracy_fullWidth h .positive 0 hf

/-! ## Packing -/

/-- **Packing loses nothing**, as long as the exponent is one that doubles have. -/
theorem unpack_pack (h : FullWidth q) {f : Int} (hlow : -1074 ≤ f) (hhigh : f ≤ 971) :
    UnpackedFloat.unpack binary64 (UnpackedFloat.pack binary64 (.finite .positive q f h.pos))
      = .finite .positive q f h.pos := by
  obtain ⟨k, hk⟩ : ∃ k : Nat, (f + 1075).toNat = k := ⟨_, rfl⟩
  have hbiased : (f + binary64.exponentBias + binary64.mantissaBitsWithoutImplicit).toNat = k := by
    show (f + 1023 + 52).toNat = k
    omega
  have hfits : ¬2 ^ binary64.exponentBits ≤ k + 1 := by
    show ¬2 ^ 11 ≤ k + 1
    omega
  have hwidth : q.log2 + 1 = binary64.mantissaBits := by
    rw [h.log2_eq]
    rfl
  have hexponent : (BitVec.ofNat 11 k).toNat = k := by
    rw [BitVec.toNat_ofNat]
    omega
  -- the two exponents that are kept for infinities and for small numbers
  have hfinite : BitVec.ofNat 11 k ≠ -1#11 := fun heq => by
    have := hexponent.symm.trans (congrArg BitVec.toNat heq)
    simp at this
    omega
  have hnormal : BitVec.ofNat 11 k ≠ 0#11 := fun heq => by
    have := hexponent.symm.trans (congrArg BitVec.toNat heq)
    simp at this
    omega
  have hmantissa : (1#1 ++ BitVec.ofNat 52 q).toNat = q := by
    obtain ⟨hlow, hhigh⟩ := h
    rw [BitVec.toNat_append, ← Nat.shiftLeft_add_eq_or_of_lt (BitVec.isLt _), BitVec.toNat_ofNat]
    simp
    omega
  simp only [UnpackedFloat.pack, hbiased]
  rw [if_neg hfits, if_pos hwidth]
  simp only [UnpackedFloat.unpack, unpackMantissa_packComponents, unpackExponent_packComponents,
    unpackSign_packComponents, Sign.ofBitVec_toBitVec]
  rw [if_neg hfinite, if_neg hnormal]
  congr 1
  rw [hexponent]
  show (k : Int) - (1023 + 52) = f
  omega

/-- The double of a significand at a place: the value is `q * 2 ^ place / 2 ^ 52`. -/
def ofSignificand (h : FullWidth q) (place : Nat) : Float :=
  ⟨Float.Model.pack (.finite .positive q (place - 52) h.pos)⟩

theorem unpack_ofSignificand (h : FullWidth q) {place : Nat} (hplace : place ≤ 1023) :
    (ofSignificand h place).toModel.unpack = .finite .positive q (place - 52) h.pos := by
  show UnpackedFloat.unpack binary64 (UnpackedFloat.pack binary64 _) = _
  exact unpack_pack h (by omega) (by omega)

/-! ## Whole numbers -/

/-- Multiplying by one changes nothing. -/
theorem ofSignificand_mul_one (h : FullWidth q) {place : Nat} (hplace : place ≤ 1023) :
    ofSignificand h place * ofSignificand fullWidth_two_pow 0 = ofSignificand h place := by
  show (⟨Float.Model.pack (UnpackedFloat.mul binary64 (ofSignificand h place).toModel.unpack
    (ofSignificand fullWidth_two_pow 0).toModel.unpack)⟩ : Float) = _
  rw [unpack_ofSignificand h hplace, unpack_ofSignificand fullWidth_two_pow (by decide)]
  have hround := roundWithAccuracy_fullWidth h .positive 52 (f := place - 52) (by omega)
  rw [ofSignificand]
  congr 2

/-- **A whole number below `2 ^ 53` is its significand at its place.** -/
theorem toFloat_eq {n place : Nat} (h : FullWidth q) (hn : q * 2 ^ place = n * 2 ^ 52)
    (hsmall : n < 2 ^ 53) : n.toFloat = ofSignificand h place := by
  have hplace : place ≤ 52 := by
    by_contra hlarge
    have hpower : 2 ^ 53 ≤ 2 ^ place := Nat.pow_le_pow_right (by decide) (by omega)
    have := Nat.mul_le_mul h.1 hpower
    omega
  obtain ⟨k, hk⟩ := Nat.exists_eq_add_of_le hplace
  have hfilled : n * 2 ^ k = q := by
    refine Nat.eq_of_mul_eq_mul_right (Nat.two_pow_pos place) ?_
    rw [Nat.mul_assoc, ← pow_add, Nat.add_comm k, ← hk, hn]
  have hpos : 0 < n := by
    rw [Nat.pos_iff_ne_zero]
    rintro rfl
    exact h.pos.ne (by rw [← hfilled, Nat.zero_mul])
  have hvalue : n.toUInt64.toNat = n := by
    show (BitVec.ofNat 64 n).toNat = n
    rw [BitVec.toNat_ofNat]
    omega
  have hconverted : n.toUInt64.toFloat = ofSignificand h place := by
    have hexponent : (0 : Int) = (place - 52 : Int) + k := by omega
    show (⟨Float.Model.pack (UnpackedFloat.normalize binary64 n.toUInt64.toNat 0 .positive)⟩
      : Float) = _
    rw [hvalue, UnpackedFloat.normalize, Int.compare_eq_gt.mpr (by omega)]
    dsimp only
    rw [Int.toNat_natCast, hexponent, round_of_mul h hfilled (by omega)]
    rfl
  show Float.ofScientific n false 0 = _
  rw [Float.ofScientific, dif_pos ⟨hsmall, by decide⟩, if_neg Bool.false_ne_true, hconverted]
  exact ofSignificand_mul_one h (by omega)

/-- The double of a positive number that doubles hold. -/
theorem exists_toFloat_eq {n : Nat} (hpos : 0 < n) (hn : n ≤ 2 ^ 53) :
    ∃ (q place : Nat) (h : FullWidth q), place ≤ 53 ∧ q * 2 ^ place = n * 2 ^ 52
      ∧ n.toFloat = ofSignificand h place := by
  obtain hsmall | rfl := Nat.lt_or_eq_of_le hn
  · obtain ⟨q, place, h, hplace, hvalue⟩ := exists_fullWidth hpos hn
    exact ⟨q, place, h, hplace, hvalue, toFloat_eq h hvalue hsmall⟩
  · exact ⟨2 ^ 52, 53, fullWidth_two_pow, Nat.le_refl _, by decide, rfl⟩

/-! ## Sums -/

/-- **A sum that has a significand is that double.**  Both summands are brought to the lower of
their places, where they are added as numbers. -/
theorem ofSignificand_add {q r p a b c : Nat} (hq : FullWidth q) (hr : FullWidth r)
    (hp : FullWidth p) (ha : a ≤ 1023) (hb : b ≤ 1023)
    (hsum : q * 2 ^ a + r * 2 ^ b = p * 2 ^ c) :
    ofSignificand hq a + ofSignificand hr b = ofSignificand hp c := by
  obtain ⟨m, hm⟩ : ∃ m, min a b = m := ⟨_, rfl⟩
  obtain ⟨i, hi⟩ : ∃ i, a = m + i := ⟨a - m, by omega⟩
  obtain ⟨j, hj⟩ : ∃ j, b = m + j := ⟨b - m, by omega⟩
  have hscaled : (q * 2 ^ i + r * 2 ^ j) * 2 ^ m = p * 2 ^ c := by
    rw [← hsum, hi, hj, pow_add, pow_add]
    ring
  have hle : m ≤ c := by
    by_contra hlt
    have hwide : 2 ^ 52 ≤ q * 2 ^ i + r * 2 ^ j :=
      (hq.1.trans (Nat.le_mul_of_pos_right q (Nat.two_pow_pos i))).trans (Nat.le_add_right _ _)
    have hpower : 2 * 2 ^ c ≤ 2 ^ m := by
      rw [← pow_succ']
      exact Nat.pow_le_pow_right (by decide) (by omega)
    have hlow := Nat.mul_le_mul hwide hpower
    have hhigh := Nat.mul_lt_mul_of_pos_right hp.2 (Nat.two_pow_pos c)
    omega
  obtain ⟨k, rfl⟩ := Nat.exists_eq_add_of_le hle
  have hadded : q * 2 ^ i + r * 2 ^ j = p * 2 ^ k := by
    refine Nat.eq_of_mul_eq_mul_right (Nat.two_pow_pos m) ?_
    rw [hscaled, pow_add]
    ring
  have hcast : Sign.positive.apply ((q * 2 ^ i : Nat) : Int)
      + Sign.positive.apply ((r * 2 ^ j : Nat) : Int) = ((p * 2 ^ k : Nat) : Int) := by
    rw [← hadded]
    exact (Int.natCast_add _ _).symm
  have hlower : min (a - 52 : Int) (b - 52) = m - 52 := by omega
  have hleft : decreaseExponent q (a - 52) (m - 52) = (q * 2 ^ i, (m - 52 : Int)) := by
    have hshift : ((a - 52 : Int) - (m - 52)).toNat = i := by omega
    rw [decreaseExponent, hshift, Nat.shiftLeft_eq]
    exact Prod.ext rfl (by omega)
  have hright : decreaseExponent r (b - 52) (m - 52) = (r * 2 ^ j, (m - 52 : Int)) := by
    have hshift : ((b - 52 : Int) - (m - 52)).toNat = j := by omega
    rw [decreaseExponent, hshift, Nat.shiftLeft_eq]
    exact Prod.ext rfl (by omega)
  have hexponent : (m - 52 : Int) = ((m + k : Nat) - 52 : Int) - k := by omega
  have hpos : (0 : Int) < ((p * 2 ^ k : Nat) : Int) :=
    Int.natCast_pos.mpr (Nat.mul_pos hp.pos (Nat.two_pow_pos k))
  show (⟨Float.Model.pack (UnpackedFloat.add binary64 (ofSignificand hq a).toModel.unpack
    (ofSignificand hr b).toModel.unpack)⟩ : Float) = _
  rw [unpack_ofSignificand hq ha, unpack_ofSignificand hr hb]
  simp only [UnpackedFloat.add, hlower, hleft, hright, hcast]
  rw [UnpackedFloat.normalize, Int.compare_eq_gt.mpr hpos]
  dsimp only
  rw [Int.toNat_natCast, hexponent, round_mul hp k (by omega)]
  rfl

/-- Adding zero changes nothing. -/
theorem toFloat_add_zero {n : Nat} (hn : n ≤ 2 ^ 53) :
    n.toFloat + (0 : Nat).toFloat = n.toFloat ∧ (0 : Nat).toFloat + n.toFloat = n.toFloat := by
  rcases Nat.eq_zero_or_pos n with rfl | hpos
  · exact ⟨rfl, rfl⟩
  · obtain ⟨q, place, h, hplace, -, heq⟩ := exists_toFloat_eq hpos hn
    have hunpack := unpack_ofSignificand h (by omega : place ≤ 1023)
    rw [heq]
    constructor
    · show (⟨Float.Model.pack (UnpackedFloat.add binary64
        (ofSignificand h place).toModel.unpack (.zero .positive))⟩ : Float) = _
      rw [hunpack]
      rfl
    · show (⟨Float.Model.pack (UnpackedFloat.add binary64 (.zero .positive)
        (ofSignificand h place).toModel.unpack)⟩ : Float) = _
      rw [hunpack]
      rfl

/-- **The double of a sum is the sum of the doubles**, if doubles hold the sum. -/
theorem toFloat_add {a b : Nat} (h : a + b ≤ 2 ^ 53) :
    a.toFloat + b.toFloat = (a + b).toFloat := by
  rcases Nat.eq_zero_or_pos a with rfl | ha
  · rw [(toFloat_add_zero (by omega)).2, Nat.zero_add]
  rcases Nat.eq_zero_or_pos b with rfl | hb
  · rw [(toFloat_add_zero (by omega)).1, Nat.add_zero]
  obtain ⟨q, i, hq, hi, hqa, heqa⟩ := exists_toFloat_eq ha (by omega)
  obtain ⟨r, j, hr, hj, hrb, heqb⟩ := exists_toFloat_eq hb (by omega)
  obtain ⟨p, k, hp, -, hpab, heqab⟩ := exists_toFloat_eq (Nat.add_pos_left ha b) h
  rw [heqa, heqb, heqab]
  exact ofSignificand_add hq hr hp (by omega) (by omega) (by rw [hqa, hrb, hpab, Nat.add_mul])

/-- Numbers that are added up as doubles, from left to right. -/
theorem foldl_add_toFloat (counts : List Nat) (start : Nat) (h : start + counts.sum ≤ 2 ^ 53) :
    (counts.map Nat.toFloat).foldl (· + ·) start.toFloat = (start + counts.sum).toFloat := by
  induction counts generalizing start with
  | nil => rfl
  | cons n rest ih =>
    rw [List.sum_cons, ← Nat.add_assoc] at h ⊢
    rw [List.map_cons, List.foldl_cons, toFloat_add (by omega), ih _ h]

/-! ## Positive numbers -/

theorem mantissa_shiftRight (em : ExtendedMantissa) (k : Nat) :
    (em >>> k).mantissa = em.mantissa / 2 ^ k := by
  show (k.repeat ExtendedMantissa.shiftRightOne em).mantissa = _
  induction k with
  | zero => simp [Nat.repeat]
  | succ k ih =>
    rw [Nat.repeat, pow_succ, ← Nat.div_div_eq_div_mul, ← ih]
    rfl

theorem mantissa_le_roundedMantissa (em : ExtendedMantissa) :
    em.mantissa ≤ em.roundedMantissa := by
  obtain ⟨m, roundBit, stickyBit⟩ := em
  cases roundBit <;> cases stickyBit <;>
    simp [ExtendedMantissa.roundedMantissa, ExtendedMantissa.accuracy,
      Accuracy.roundToNearestEven]

theorem exists_shiftToTargetExponent {m : Nat} (hm : 2 ^ 52 ≤ m) {f : Int} (hf : -1074 ≤ f) :
    ∃ (em : ExtendedMantissa) (e : Int),
      shiftToTargetExponent binary64 m f .exact = (em, e) ∧ f ≤ e ∧ FullWidth em.mantissa := by
  have hlog : 52 ≤ m.log2 := (Nat.le_log2 (by omega)).mpr hm
  have hshift : (binary64.targetExponent (totalExponent m f) - f).toNat = m.log2 - 52 := by
    rw [targetExponent_eq, totalExponent]
    omega
  refine ⟨_, _, rfl, ?_, ?_⟩
  · show f ≤ f + ((binary64.targetExponent (totalExponent m f) - f).toNat : Int)
    omega
  · rw [mantissa_shiftRight, hshift]
    exact fullWidth_div hm

/-- **A wide number is rounded to a significand of full width.**  It may have to be shifted again
when rounding has carried. -/
theorem exists_roundWithAccuracy {m : Nat} (hm : 2 ^ 52 ≤ m) {f : Int} (hf : -1074 ≤ f) :
    ∃ (q : Nat) (e : Int) (h : FullWidth q), f ≤ e
      ∧ roundWithAccuracy binary64 .positive m f .exact = .finite .positive q e h.pos := by
  obtain ⟨em, e, hfirst, he, hwide⟩ := exists_shiftToTargetExponent hm hf
  obtain ⟨em', e', hsecond, he', hwide'⟩ := exists_shiftToTargetExponent
    (hwide.1.trans (mantissa_le_roundedMantissa em)) (hf.trans he)
  refine ⟨em'.mantissa, e', hwide', he.trans he', ?_⟩
  simp only [roundWithAccuracy, hfirst, hsecond]
  exact dif_neg hwide'.pos.ne'

/-- A significand of full width is packed to a finite double or an infinite one. -/
theorem unpack_pack_ne_zero (h : FullWidth q) {f : Int} (hf : -1074 ≤ f) :
    UnpackedFloat.unpack binary64 (UnpackedFloat.pack binary64 (.finite .positive q f h.pos))
      ≠ .zero .positive := by
  by_cases hhigh : f ≤ 971
  · rw [unpack_pack h hf hhigh]
    exact UnpackedFloat.noConfusion
  · have hlarge : 2 ^ binary64.exponentBits
        ≤ (f + binary64.exponentBias + binary64.mantissaBitsWithoutImplicit).toNat + 1 := by
      show 2 ^ 11 ≤ (f + 1023 + 52).toNat + 1
      omega
    have hinfinite : UnpackedFloat.unpack binary64 (packedInfinity binary64 .positive)
        = .infinity .positive := rfl
    rw [UnpackedFloat.pack]
    dsimp only
    rw [if_pos hlarge, hinfinite]
    exact UnpackedFloat.noConfusion

/-- A number past `2 ^ 53` is rounded from all its bits. -/
theorem exists_toFloat_eq_of_large {n : Nat} (hn : 2 ^ 53 < n) :
    ∃ (q : Nat) (e : Int) (h : FullWidth q), -1074 ≤ e
      ∧ n.toFloat = ⟨Float.Model.pack (.finite .positive q e h.pos)⟩ := by
  have hwide : 2 ^ 52 ≤ (n <<< 53) * 10 ^ 0 := by
    rw [Nat.shiftLeft_eq]
    omega
  obtain ⟨q, e, h, he, hround⟩ := exists_roundWithAccuracy hwide (f := -53 + 0) (by decide)
  refine ⟨q, e, h, by omega, ?_⟩
  show Float.ofScientific n false 0 = _
  rw [Float.ofScientific, dif_neg (by omega), ← hround]
  simp only [Bool.false_eq_true, if_false]
  show (⟨Float.Model.pack (UnpackedFloat.ofScientific binary64 n 0)⟩ : Float) = _
  rw [UnpackedFloat.ofScientific, dif_neg (by omega), if_neg (by decide), if_neg (by simp),
    if_pos (by decide)]
  rfl

/-- **Positive numbers are not zero as doubles**, however large they are. -/
theorem toFloat_ne_zero {n : Nat} (hn : 0 < n) : n.toFloat ≠ 0.0 := by
  suffices hunpack : n.toFloat.toModel.unpack ≠ .zero .positive by
    intro hzero
    rw [hzero] at hunpack
    exact hunpack rfl
  by_cases hsmall : n ≤ 2 ^ 53
  · obtain ⟨q, place, h, hplace, -, heq⟩ := exists_toFloat_eq hn hsmall
    rw [heq, unpack_ofSignificand h (by omega)]
    exact UnpackedFloat.noConfusion
  · obtain ⟨q, e, h, he, heq⟩ := exists_toFloat_eq_of_large (Nat.lt_of_not_le hsmall)
    rw [heq]
    exact unpack_pack_ne_zero h he

end Noughts.Number
