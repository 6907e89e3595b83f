import Mathlib

/-!
# Rounding to binary64

A binary64 is kept as a sign, a mantissa and an exponent, and every operation ends by rounding an exact
mantissa and exponent to the nearest value of the format.  Rounding first moves the mantissa to the
exponent of the result, the bits that fall off being remembered in a round bit and a sticky bit.

* `Binary64.round_scale` — **rounding depends on the value alone**: a mantissa that is larger by a power of
  two, with an exponent that is smaller by as much, rounds to the same.
* `Binary64.exists_round_exact`, `Binary64.exists_round_large` — a positive whole number that fits 64 bits
  rounds to a normal value, which is the number itself up to `2 ^ 53`.
* `Binary64.unpack_pack_normal` — a normal value is the same after it has been packed into 64 bits.
* `Binary64.isNaN_add`, `Binary64.isNaN_div` — adding what is finite, and dividing it by what is not zero,
  does not give NaN.
-/

namespace RequestBoard.Binary64

open Float.Model Float.Model.UnpackedFloat

/-! ## Shifting a mantissa -/

theorem shiftRight_zero (em : ExtendedMantissa) : em >>> (0 : Nat) = em := rfl

theorem shiftRight_succ (em : ExtendedMantissa) (n : Nat) :
    em >>> (n + 1) = (em >>> n).shiftRightOne := rfl

theorem shiftRight_add (em : ExtendedMantissa) (m n : Nat) : em >>> (m + n) = (em >>> m) >>> n := by
  induction n with
  | zero => rfl
  | succ n ih => rw [← Nat.add_assoc, shiftRight_succ, ih, shiftRight_succ]

/-- Zeros fall off without a trace. -/
theorem shiftRight_exact (m n : Nat) :
    (⟨m * 2 ^ n, false, false⟩ : ExtendedMantissa) >>> n = ⟨m, false, false⟩ := by
  induction n generalizing m with
  | zero => rw [pow_zero, Nat.mul_one, shiftRight_zero]
  | succ n ih =>
    have hpow : m * 2 ^ (n + 1) = m * 2 * 2 ^ n := by ring
    rw [hpow, shiftRight_succ, ih]
    simp [ExtendedMantissa.shiftRightOne]

theorem mantissa_shiftRight (em : ExtendedMantissa) (n : Nat) :
    (em >>> n).mantissa = em.mantissa / 2 ^ n := by
  induction n with
  | zero => rw [shiftRight_zero, pow_zero, Nat.div_one]
  | succ n ih =>
    rw [shiftRight_succ, ExtendedMantissa.shiftRightOne, ih, Nat.div_div_eq_div_mul, pow_succ]

/-- Rounding takes a mantissa to itself or to the next one. -/
theorem roundedMantissa_bounds (em : ExtendedMantissa) :
    em.mantissa ≤ em.roundedMantissa ∧ em.roundedMantissa ≤ em.mantissa + 1 := by
  obtain ⟨m, round, sticky⟩ := em
  cases round <;> cases sticky <;>
    simp [ExtendedMantissa.roundedMantissa, ExtendedMantissa.accuracy, Accuracy.roundToNearestEven]
  omega

theorem log2_mul_two_pow {m : Nat} (hm : 0 < m) (n : Nat) : (m * 2 ^ n).log2 = m.log2 + n := by
  induction n with
  | zero => simp
  | succ n ih =>
    have hpos : m * 2 ^ n ≠ 0 := Nat.mul_ne_zero hm.ne' (Nat.two_pow_pos n).ne'
    have hpow : m * 2 ^ (n + 1) = 2 * (m * 2 ^ n) := by ring
    rw [hpow, Nat.log2_two_mul hpos, ih, Nat.add_assoc]

/-- The exponent of a product with a power of two. -/
theorem totalExponent_scale {m : Nat} (hm : 0 < m) (e : Int) (n : Nat) :
    totalExponent (m * 2 ^ n) (e - n) = totalExponent m e := by
  rw [totalExponent, totalExponent, log2_mul_two_pow hm]
  omega

/-! ## Rounding depends on the value alone -/

/-- A mantissa and an exponent as a value, which is a zero if the mantissa is. -/
def ofMantissa (sign : Sign) (m : Nat) (e : Int) : UnpackedFloat :=
  if h : m = 0 then .zero sign else .finite sign m e (Nat.pos_of_ne_zero h)

theorem ofMantissa_of_pos (sign : Sign) {m : Nat} (hm : 0 < m) (e : Int) :
    ofMantissa sign m e = .finite sign m e hm := dif_neg hm.ne'

/-- What is left of rounding after the first shift: the mantissa is rounded, and shifted once more in
case it has got a bit longer. -/
def roundShifted (spec : Format) (sign : Sign) (em : ExtendedMantissa) (e : Int) : UnpackedFloat :=
  let shifted := shiftToTargetExponent spec em.roundedMantissa e .exact
  ofMantissa sign shifted.1.mantissa shifted.2

theorem roundWithAccuracy_eq_roundShifted (spec : Format) (sign : Sign) (m : Nat) (e : Int)
    (accuracy : Accuracy) :
    roundWithAccuracy spec sign m e accuracy =
      roundShifted spec sign (shiftToTargetExponent spec m e accuracy).1
        (shiftToTargetExponent spec m e accuracy).2 := rfl

/-- Rounding, with the first shift written out: to the left or to the right, whichever of the two
distances to the target exponent is not zero. -/
theorem round_eq_roundShifted (spec : Format) (sign : Sign) {m : Nat} (hm : 0 < m) (e : Int) :
    let target := spec.targetExponent (totalExponent m e)
    UnpackedFloat.round spec sign m e =
      roundShifted spec sign
        ((⟨m * 2 ^ (e - target).toNat, false, false⟩ : ExtendedMantissa) >>> (target - e).toNat)
        target := by
  intro target
  have htotal : totalExponent (m * 2 ^ (e - target).toNat) (e - (e - target).toNat) =
      totalExponent m e := totalExponent_scale hm e _
  have hshift : (target - (e - (e - target).toNat)).toNat = (target - e).toNat := by omega
  have hend : e - (e - target).toNat + (target - e).toNat = target := by omega
  have hfirst : shiftToTargetExponent spec (m * 2 ^ (e - target).toNat) (e - (e - target).toNat) .exact =
      ((⟨m * 2 ^ (e - target).toNat, false, false⟩ : ExtendedMantissa) >>> (target - e).toNat,
        target) := by
    rw [shiftToTargetExponent, htotal, shiftToExponent, hshift, hend]
    rfl
  rw [UnpackedFloat.round, decreaseExponent, Nat.shiftLeft_eq]
  change roundWithAccuracy spec sign (m * 2 ^ (e - target).toNat) (e - (e - target).toNat) .exact = _
  rw [roundWithAccuracy_eq_roundShifted, hfirst]

/-- **Rounding depends on the value alone.** -/
theorem round_scale (spec : Format) (sign : Sign) {m : Nat} (hm : 0 < m) (e : Int) (n : Nat) :
    UnpackedFloat.round spec sign (m * 2 ^ n) (e - n) = UnpackedFloat.round spec sign m e := by
  have hpos : 0 < m * 2 ^ n := Nat.mul_pos hm (Nat.two_pow_pos n)
  rw [round_eq_roundShifted spec sign hpos, round_eq_roundShifted spec sign hm, totalExponent_scale hm]
  generalize spec.targetExponent (totalExponent m e) = target
  -- the wider mantissa is shifted further to the right by as many zeros as it has more
  obtain ⟨extra, hextra⟩ : ∃ extra, (target - (e - n)).toNat = extra + (target - e).toNat :=
    ⟨(target - (e - n)).toNat - (target - e).toNat, by omega⟩
  have hpow : n + (e - n - target).toNat = (e - target).toNat + extra := by omega
  have hmantissa : m * 2 ^ n * 2 ^ (e - n - target).toNat = m * 2 ^ (e - target).toNat * 2 ^ extra := by
    rw [Nat.mul_assoc, ← pow_add, hpow, pow_add, ← Nat.mul_assoc]
  rw [hextra, hmantissa, shiftRight_add, shiftRight_exact]

/-- The same with a sign in the mantissa. -/
theorem normalize_scale (spec : Format) (m : Int) (e : Int) (n : Nat) (zeroSign : Sign) :
    UnpackedFloat.normalize spec (m * 2 ^ n) (e - n) zeroSign =
      UnpackedFloat.normalize spec m e zeroSign := by
  have htwo : (0 : Int) < 2 ^ n := Int.pow_pos (by decide)
  have hcast : ((2 ^ n : Nat) : Int) = 2 ^ n := by push_cast; rfl
  rw [UnpackedFloat.normalize, UnpackedFloat.normalize]
  rcases Int.lt_trichotomy m 0 with hm | rfl | hm
  · have hlt : m * 2 ^ n < 0 := Int.mul_neg_of_neg_of_pos hm htwo
    have hnat : (-(m * 2 ^ n)).toNat = (-m).toNat * 2 ^ n := by
      rw [← Int.neg_mul, ← hcast, Int.toNat_mul (by omega) (by omega), Int.toNat_natCast]
    rw [Int.compare_eq_lt.2 hm, Int.compare_eq_lt.2 hlt, hnat]
    exact round_scale spec _ (by omega) e n
  · rw [Int.zero_mul]
    rfl
  · have hlt : 0 < m * 2 ^ n := Int.mul_pos hm htwo
    have hnat : (m * 2 ^ n).toNat = m.toNat * 2 ^ n := by
      rw [← hcast, Int.toNat_mul (by omega) (by omega), Int.toNat_natCast]
    rw [Int.compare_eq_gt.2 hm, Int.compare_eq_gt.2 hlt, hnat]
    exact round_scale spec _ (by omega) e n

/-! ## Normal values -/

/-- A mantissa of 53 bits. -/
def IsNormal (m : Nat) : Prop := 4503599627370496 ≤ m ∧ m < 9007199254740992

instance (m : Nat) : Decidable (IsNormal m) := inferInstanceAs (Decidable (_ ∧ _))

theorem IsNormal.log2 {m : Nat} (h : IsNormal m) : m.log2 = 52 :=
  (Nat.log2_eq_iff (by have := h.1; omega)).2 h

theorem IsNormal.pos {m : Nat} (h : IsNormal m) : 0 < m := by
  have := h.1
  omega

theorem targetExponent_binary64 (m : Nat) (e : Int) :
    Format.binary64.targetExponent (totalExponent m e) = max (m.log2 + e - 52) (-1074) := by
  have hmin : Format.binary64.minExponent = -1074 := by decide
  have hbits : Format.binary64.mantissaBits = 53 := rfl
  rw [Format.targetExponent, totalExponent, hmin, hbits]
  omega

/-- A normal mantissa is in place. -/
theorem shiftToTargetExponent_normal {m : Nat} (hm : IsNormal m) {e : Int} (he : -1074 ≤ e) :
    shiftToTargetExponent .binary64 m e .exact = (⟨m, false, false⟩, e) := by
  have htarget : (max ((52 : Nat) + e - 52) (-1074) - e).toNat = 0 := by omega
  rw [shiftToTargetExponent, targetExponent_binary64, hm.log2, shiftToExponent, htarget, Int.natCast_zero,
    Int.add_zero]
  rfl

theorem roundShifted_normal (sign : Sign) {em : ExtendedMantissa} {e : Int}
    (hem : IsNormal em.roundedMantissa) (he : -1074 ≤ e) :
    roundShifted .binary64 sign em e = .finite sign em.roundedMantissa e hem.pos := by
  rw [roundShifted, shiftToTargetExponent_normal hem he, ofMantissa_of_pos]

/-- A mantissa that rounding has made a bit longer is shifted back. -/
theorem roundShifted_carry (sign : Sign) {em : ExtendedMantissa} {e : Int}
    (hem : em.roundedMantissa = 9007199254740992) (he : -1074 ≤ e) :
    roundShifted .binary64 sign em e = .finite sign 4503599627370496 (e + 1) (by decide) := by
  have hlog : (9007199254740992 : Nat).log2 = 53 := by decide
  have hshift : (max ((53 : Nat) + e - 52) (-1074) - e).toNat = 1 := by omega
  have hcarry : shiftToTargetExponent .binary64 em.roundedMantissa e .exact =
      (⟨4503599627370496, false, false⟩, e + 1) := by
    rw [hem, shiftToTargetExponent, targetExponent_binary64, hlog, shiftToExponent, hshift]
    rfl
  rw [roundShifted, hcarry]
  rfl

/-- A normal value is its own rounding. -/
theorem round_normal (sign : Sign) {m : Nat} (hm : IsNormal m) {e : Int} (he : -1074 ≤ e) :
    UnpackedFloat.round .binary64 sign m e = .finite sign m e hm.pos := by
  have htarget : max (((52 : Nat) : Int) + e - 52) (-1074) = e := by omega
  rw [round_eq_roundShifted .binary64 sign hm.pos, targetExponent_binary64, hm.log2, htarget, Int.sub_self]
  have hexact : (⟨m * 2 ^ (0 : Int).toNat, false, false⟩ : ExtendedMantissa) >>> (0 : Int).toNat =
      ⟨m, false, false⟩ := shiftRight_exact m 0
  rw [hexact]
  exact @roundShifted_normal sign ⟨m, false, false⟩ e hm he

/-! ## Whole numbers -/

/-- **A positive whole number up to `2 ^ 53` is its own rounding.** -/
theorem exists_round_exact {n : Nat} (hn : 0 < n) (hle : n ≤ 9007199254740992) :
    ∃ m e, ∃ hm : IsNormal m,
      (∀ sign, UnpackedFloat.round .binary64 sign n 0 = .finite sign m e hm.pos) ∧
      -52 ≤ e ∧ e ≤ 1 ∧ m * 2 ^ (e + 52).toNat = n * 2 ^ 52 := by
  rcases hle.lt_or_eq with hlt | rfl
  · -- zeros are appended until the mantissa has 53 bits
    have hlow : 2 ^ n.log2 ≤ n := Nat.log2_self_le hn.ne'
    have hhigh : n < 2 ^ (n.log2 + 1) := Nat.lt_log2_self
    have hlog : n.log2 < 53 := (Nat.log2_lt hn.ne').2 hlt
    obtain ⟨zeros, hzeros⟩ : ∃ zeros, n.log2 + zeros = 52 := ⟨52 - n.log2, by omega⟩
    have hm : IsNormal (n * 2 ^ zeros) := by
      have hlow' := Nat.mul_le_mul_right (2 ^ zeros) hlow
      have hhigh' := Nat.mul_lt_mul_of_pos_right hhigh (Nat.two_pow_pos zeros)
      rw [← pow_add] at hlow' hhigh'
      rw [hzeros] at hlow'
      rw [Nat.add_right_comm, hzeros] at hhigh'
      exact ⟨hlow', hhigh'⟩
    refine ⟨n * 2 ^ zeros, 0 - zeros, hm, fun sign => ?_, by omega, by omega, ?_⟩
    · rw [← round_scale .binary64 sign hn 0 zeros]
      exact round_normal sign hm (by omega)
    · have hexponent : zeros + (0 - (zeros : Int) + 52).toNat = 52 := by omega
      rw [Nat.mul_assoc, ← pow_add, hexponent]
  · -- `2 ^ 53` itself has one bit too many, which is a zero
    have hm : IsNormal 4503599627370496 := by decide
    refine ⟨4503599627370496, 1, hm, fun sign => ?_, by decide, by decide, by decide⟩
    rw [← round_normal sign hm (by decide : (-1074 : Int) ≤ 1)]
    exact round_scale .binary64 sign hm.pos 1 1

/-- A larger whole number that fits 64 bits rounds to a normal value as well. -/
theorem exists_round_large {n : Nat} (hlarge : 9007199254740992 < n) (hfits : n < 18446744073709551616) :
    ∃ m e, ∃ hm : IsNormal m,
      (∀ sign, UnpackedFloat.round .binary64 sign n 0 = .finite sign m e hm.pos) ∧ -52 ≤ e ∧ e ≤ 12 := by
  have hn : 0 < n := by omega
  have hlow : 2 ^ n.log2 ≤ n := Nat.log2_self_le hn.ne'
  have hhigh : n < 2 ^ (n.log2 + 1) := Nat.lt_log2_self
  have hlog : n.log2 < 64 := (Nat.log2_lt hn.ne').2 hfits
  have hlog' : 53 ≤ n.log2 := (Nat.le_log2 hn.ne').2 hlarge.le
  obtain ⟨cut, hcut⟩ : ∃ cut, n.log2 = 52 + cut := ⟨n.log2 - 52, by omega⟩
  have htarget : max ((n.log2 : Int) + 0 - 52) (-1074) = cut := by omega
  have hleft : (0 - (cut : Int)).toNat = 0 := by omega
  have hright : ((cut : Int) - 0).toNat = cut := by omega
  have hround : ∀ sign, UnpackedFloat.round .binary64 sign n 0 =
      roundShifted .binary64 sign ((⟨n, false, false⟩ : ExtendedMantissa) >>> cut) cut := by
    intro sign
    rw [round_eq_roundShifted .binary64 sign hn, targetExponent_binary64, htarget, hleft, hright, pow_zero,
      Nat.mul_one]
  -- the mantissa is cut to 53 bits, and rounding may make it `2 ^ 53`
  have hmantissa : IsNormal ((⟨n, false, false⟩ : ExtendedMantissa) >>> cut).mantissa := by
    rw [mantissa_shiftRight]
    rw [hcut, pow_add] at hlow
    rw [hcut, Nat.add_right_comm, pow_add] at hhigh
    exact ⟨(Nat.le_div_iff_mul_le (Nat.two_pow_pos cut)).2 hlow,
      (Nat.div_lt_iff_lt_mul (Nat.two_pow_pos cut)).2 hhigh⟩
  have hrounded := roundedMantissa_bounds ((⟨n, false, false⟩ : ExtendedMantissa) >>> cut)
  obtain ⟨hlo, hhi⟩ := hmantissa
  rcases (by omega : ((⟨n, false, false⟩ : ExtendedMantissa) >>> cut).roundedMantissa < 9007199254740992 ∨
      ((⟨n, false, false⟩ : ExtendedMantissa) >>> cut).roundedMantissa = 9007199254740992) with hlt | heq
  · have hm : IsNormal ((⟨n, false, false⟩ : ExtendedMantissa) >>> cut).roundedMantissa :=
      ⟨by omega, hlt⟩
    refine ⟨_, cut, hm, fun sign => ?_, by omega, by omega⟩
    rw [hround, roundShifted_normal sign hm (by omega)]
  · refine ⟨4503599627370496, cut + 1, by decide, fun sign => ?_, by omega, by omega⟩
    rw [hround, roundShifted_carry sign heq (by omega)]

/-! ## Packing -/

/-- The bit in front of a normal mantissa is not stored. -/
theorem toNat_implicit_append {m : Nat} (hm : IsNormal m) : (1#1 ++ BitVec.ofNat 52 m).toNat = m := by
  obtain ⟨hlo, hhi⟩ := hm
  rw [BitVec.toNat_append, ← Nat.shiftLeft_add_eq_or_of_lt (BitVec.isLt _), BitVec.toNat_ofNat]
  simp only [BitVec.toNat_ofNat, Nat.shiftLeft_eq]
  omega

/-- The 64 bits of a normal value. -/
theorem pack_normal (sign : Sign) {m : Nat} (hm : IsNormal m) {e : Int} (hhi : e ≤ 971) :
    UnpackedFloat.pack .binary64 (.finite sign m e hm.pos) =
      packComponents .binary64 sign (BitVec.ofNat 11 (e + 1075).toNat) (BitVec.ofNat 52 m) := by
  have hbiased : (e + Format.binary64.exponentBias + Format.binary64.mantissaBitsWithoutImplicit).toNat =
      (e + 1075).toNat := by
    change (e + 1023 + 52).toNat = _
    omega
  have hfits : ¬ 2 ^ Format.binary64.exponentBits ≤ (e + 1075).toNat + 1 := by
    change ¬ 2048 ≤ _
    omega
  rw [UnpackedFloat.pack, hbiased, hm.log2]
  simp only [if_neg hfits]
  exact if_pos rfl

/-- **A normal value survives packing.** -/
theorem unpack_pack_normal (sign : Sign) {m : Nat} (hm : IsNormal m) {e : Int} (hlo : -1074 ≤ e)
    (hhi : e ≤ 971) :
    (Float.Model.pack (.finite sign m e hm.pos)).unpack = .finite sign m e hm.pos := by
  have hexponent : (BitVec.ofNat 11 (e + 1075).toNat).toNat = (e + 1075).toNat := by
    rw [BitVec.toNat_ofNat]
    omega
  -- the stored exponent is neither of the two that mark what is not normal
  have hne : ∀ mark : BitVec 11, mark.toNat = 0 ∨ mark.toNat = 2047 →
      BitVec.ofNat 11 (e + 1075).toNat ≠ mark := by
    rintro mark hmark rfl
    rw [hexponent] at hmark
    omega
  have hunbiased : ((e + 1075).toNat : Int) -
      (Format.binary64.exponentBias + Format.binary64.mantissaBitsWithoutImplicit) = e := by
    change ((e + 1075).toNat : Int) - (1023 + 52) = e
    omega
  change UnpackedFloat.unpack .binary64 (UnpackedFloat.pack .binary64 (.finite sign m e hm.pos)) = _
  rw [pack_normal sign hm hhi]
  simp only [UnpackedFloat.unpack, unpackExponent_packComponents, unpackMantissa_packComponents,
    unpackSign_packComponents]
  rw [if_neg (hne (-1#11) (Or.inr rfl)), if_neg (hne 0#11 (Or.inl rfl))]
  simp only [hexponent, hunbiased, Sign.ofBitVec_toBitVec, toNat_implicit_append hm]

/-- The bits of NaN are not those of other parts. -/
theorem packComponents_ne_packedNaN (sign : Sign) {exponent : BitVec 11} {mantissa : BitVec 52}
    (h : exponent ≠ -1#11 ∨ mantissa = 0#52) :
    packComponents .binary64 sign exponent mantissa ≠ packedNaN .binary64 := by
  intro heq
  have hexponent := congrArg unpackExponent heq
  have hmantissa := congrArg unpackMantissa heq
  rw [packedNaN, unpackExponent_packComponents, unpackExponent_packComponents] at hexponent
  rw [packedNaN, unpackMantissa_packComponents, unpackMantissa_packComponents] at hmantissa
  rcases h with h | h
  · exact h hexponent
  · rw [h] at hmantissa
    exact absurd hmantissa (by decide)

/-- **Only what is not a number is packed into NaN.** -/
theorem isNaN_pack {value : UnpackedFloat} (h : value ≠ .notANumber) :
    (Float.Model.pack value).isNaN = false := by
  have hbits : UnpackedFloat.pack .binary64 value ≠ packedNaN .binary64 := by
    cases value with
    | notANumber => exact absurd rfl h
    | infinity sign => exact packComponents_ne_packedNaN sign (Or.inr rfl)
    | zero sign => exact packComponents_ne_packedNaN sign (Or.inr rfl)
    | finite sign m e hm =>
      simp only [UnpackedFloat.pack]
      generalize (e + Format.binary64.exponentBias + Format.binary64.mantissaBitsWithoutImplicit).toNat =
        biased
      split
      · exact packComponents_ne_packedNaN sign (Or.inr rfl)
      · rename_i hfits
        split
        · refine packComponents_ne_packedNaN sign (Or.inl fun hones => hfits ?_)
          have hnat := congrArg BitVec.toNat hones
          change biased % 2048 = 2047 at hnat
          change 2048 ≤ biased + 1
          omega
        · exact packComponents_ne_packedNaN sign (Or.inl (by decide))
  rw [← Bool.not_eq_true]
  exact fun hnan => hbits ((isNaN_unpack_iff_of_valid (Float.Model.pack value).valid).1 hnan)

/-! ## Where NaN cannot come from -/

theorem roundShifted_ne_notANumber (spec : Format) (sign : Sign) (em : ExtendedMantissa) (e : Int) :
    roundShifted spec sign em e ≠ .notANumber := by
  rw [roundShifted, ofMantissa]
  split <;> simp

theorem normalize_ne_notANumber (spec : Format) (m e : Int) (zeroSign : Sign) :
    UnpackedFloat.normalize spec m e zeroSign ≠ .notANumber := by
  rw [UnpackedFloat.normalize]
  split
  · exact roundShifted_ne_notANumber spec _ _ _
  · simp
  · exact roundShifted_ne_notANumber spec _ _ _

theorem add_ne_notANumber (spec : Format) {x y : UnpackedFloat} (hx : x.isNaN = false)
    (hy : y.isFinite = true) : UnpackedFloat.add spec x y ≠ .notANumber := by
  cases x with
  | notANumber => exact absurd hx (by decide)
  | infinity =>
    cases y with
    | notANumber | infinity => exact absurd hy (by simp [UnpackedFloat.isFinite])
    | zero | finite => simp [UnpackedFloat.add]
  | zero =>
    cases y with
    | notANumber | infinity => exact absurd hy (by simp [UnpackedFloat.isFinite])
    | zero =>
      rw [UnpackedFloat.add]
      split <;> simp
    | finite => simp [UnpackedFloat.add]
  | finite =>
    cases y with
    | notANumber | infinity => exact absurd hy (by simp [UnpackedFloat.isFinite])
    | zero => simp [UnpackedFloat.add]
    | finite => exact normalize_ne_notANumber _ _ _ _

theorem div_ne_notANumber (spec : Format) {x y : UnpackedFloat} (hx : x.isFinite = true)
    (hy : y.isFinite = true) (hzero : ∀ sign, y ≠ .zero sign) :
    UnpackedFloat.div spec x y ≠ .notANumber := by
  cases y with
  | notANumber | infinity => exact absurd hy (by simp [UnpackedFloat.isFinite])
  | zero sign => exact absurd rfl (hzero sign)
  | finite =>
    cases x with
    | notANumber | infinity => exact absurd hx (by simp [UnpackedFloat.isFinite])
    | zero => simp [UnpackedFloat.div]
    | finite => exact roundShifted_ne_notANumber _ _ _ _

/-- What is finite is a number. -/
theorem isNaN_of_isFinite {x : Float} (h : x.isFinite = true) : x.isNaN = false := by
  change x.toModel.unpack.isNaN = false
  change x.toModel.unpack.isFinite = true at h
  generalize x.toModel.unpack = value at h
  cases value with
  | notANumber => exact absurd h (by decide)
  | infinity | zero | finite => rfl

/-- A sum is a number as long as what is added is finite. -/
theorem isNaN_add {x y : Float} (hx : x.isNaN = false) (hy : y.isFinite = true) :
    (x + y).isNaN = false :=
  isNaN_pack (add_ne_notANumber .binary64 hx hy)

/-- A quotient of finite numbers is a number unless the divisor is zero. -/
theorem isNaN_div {x y : Float} (hx : x.isFinite = true) (hy : y.isFinite = true)
    (hzero : (y == 0) = false) : (x / y).isNaN = false := by
  refine isNaN_pack (div_ne_notANumber .binary64 hx hy fun sign hsign => ?_)
  change y.toModel.unpack.beq (.zero .positive) = false at hzero
  rw [hsign] at hzero
  exact absurd hzero (by cases sign <;> decide)

end RequestBoard.Binary64
