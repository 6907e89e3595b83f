import RequestBoard.Proofs.Number.Rounding
import RequestBoard.Table

/-!
# Whole numbers as binary64

A whole number that fits 64 bits is read as the nearest binary64.  Up to `2 ^ 53` in magnitude this is the
number itself, sums of two such numbers are exact as long as they stay in that range, and the number is
read back from the binary64 as it was.

* `Binary64.exists_ofInt` — the mantissa and the exponent of a whole number.
* `Number.isFinite_nearestFloat`, `Number.nearestFloat_beq_zero_iff` — every whole number is finite, and
  only zero becomes a zero.
* `Number.nearestFloat_add` — **addition is exact**.
* `exactWhole?_nearestFloat` — **reading back is exact**.
-/

namespace RequestBoard

namespace Binary64

open Float.Model Float.Model.UnpackedFloat

/-! ## The value of a whole number -/

/-- The sign of a whole number. -/
def signOf (n : Int) : Sign := if n < 0 then .negative else .positive

theorem signOf_of_neg {n : Int} (hn : n < 0) : signOf n = .negative := if_pos hn

theorem signOf_of_nonneg {n : Int} (hn : 0 ≤ n) : signOf n = .positive := if_neg (by omega)

theorem apply_signOf (n : Int) : (signOf n).apply n.natAbs = n := by
  rcases Int.lt_or_le n 0 with hn | hn
  · rw [signOf_of_neg hn, Sign.apply]
    omega
  · rw [signOf_of_nonneg hn, Sign.apply]
    omega

theorem ofInt_zero : UnpackedFloat.ofInt .binary64 0 = .zero .positive := rfl

theorem ofInt_eq_round {n : Int} (hn : n ≠ 0) :
    UnpackedFloat.ofInt .binary64 n = UnpackedFloat.round .binary64 (signOf n) n.natAbs 0 := by
  rw [UnpackedFloat.ofInt, UnpackedFloat.normalize]
  rcases Int.lt_or_gt_of_ne hn with hlt | hgt
  · have hnat : (-n).toNat = n.natAbs := by omega
    rw [Int.compare_eq_lt.2 hlt, signOf_of_neg hlt, ← hnat]
  · have hnat : n.toNat = n.natAbs := by omega
    rw [Int.compare_eq_gt.2 hgt, signOf_of_nonneg (by omega), ← hnat]

/-- A whole number other than zero is a normal value, and up to `2 ^ 53` in magnitude it is just that
value, in units of `2 ^ (-52)`. -/
theorem exists_ofInt {n : Int} (hn : n ≠ 0) (hfits : n.natAbs < 18446744073709551616) :
    ∃ m e, ∃ hm : IsNormal m, UnpackedFloat.ofInt .binary64 n = .finite (signOf n) m e hm.pos ∧
      UnpackedFloat.ofInt .binary64 (-n) = .finite (signOf (-n)) m e hm.pos ∧
      -52 ≤ e ∧ e ≤ 12 ∧
      (n.natAbs ≤ 9007199254740992 → e ≤ 1 ∧ m * 2 ^ (e + 52).toNat = n.natAbs * 2 ^ 52) := by
  have hpos : 0 < n.natAbs := by omega
  have hneg : -n ≠ 0 := by omega
  rcases Nat.lt_or_ge 9007199254740992 n.natAbs with hlarge | hsmall
  · obtain ⟨m, e, hm, hround, hlo, hhi⟩ := exists_round_large hlarge hfits
    refine ⟨m, e, hm, ?_, ?_, hlo, hhi, fun hle => absurd hle (by omega)⟩
    · rw [ofInt_eq_round hn, hround]
    · rw [ofInt_eq_round hneg, Int.natAbs_neg, hround]
  · obtain ⟨m, e, hm, hround, hlo, hhi, hvalue⟩ := exists_round_exact hpos hsmall
    refine ⟨m, e, hm, ?_, ?_, hlo, by omega, fun _ => ⟨hhi, hvalue⟩⟩
    · rw [ofInt_eq_round hn, hround]
    · rw [ofInt_eq_round hneg, Int.natAbs_neg, hround]

theorem unpack_pack_ofInt {n : Int} (hfits : n.natAbs < 18446744073709551616) :
    (Float.Model.pack (UnpackedFloat.ofInt .binary64 n)).unpack = UnpackedFloat.ofInt .binary64 n := by
  rcases eq_or_ne n 0 with rfl | hn
  · exact unpack_packedZero
  · obtain ⟨m, e, hm, hvalue, -, hlo, hhi, -⟩ := exists_ofInt hn hfits
    rw [hvalue]
    exact unpack_pack_normal _ hm (by omega) (by omega)

theorem neg_ofInt {n : Int} (hn : n ≠ 0) (hfits : n.natAbs < 18446744073709551616) :
    (UnpackedFloat.ofInt .binary64 n).neg = UnpackedFloat.ofInt .binary64 (-n) := by
  obtain ⟨m, e, hm, hvalue, hneg, -⟩ := exists_ofInt hn hfits
  have hsign : -signOf n = signOf (-n) := by
    rcases Int.lt_or_gt_of_ne hn with hlt | hgt
    · rw [signOf_of_neg hlt, signOf_of_nonneg (by omega)]
      rfl
    · rw [signOf_of_nonneg (by omega), signOf_of_neg (by omega)]
      rfl
  rw [hvalue, hneg, UnpackedFloat.neg, hsign]

theorem abs_ofInt {n : Int} (hfits : n.natAbs < 18446744073709551616) :
    (UnpackedFloat.ofInt .binary64 n).abs = UnpackedFloat.ofInt .binary64 n.natAbs := by
  rcases eq_or_ne n 0 with rfl | hn
  · rfl
  · obtain ⟨m, e, hm, hvalue, hneg, -⟩ := exists_ofInt hn hfits
    have hsign : signOf (n.natAbs : Int) = .positive := signOf_of_nonneg (by omega)
    have habs : UnpackedFloat.ofInt .binary64 n.natAbs = .finite (signOf n.natAbs) m e hm.pos := by
      rcases Int.natAbs_eq n with h | h
      · rw [← h, hvalue]
      · have hback : (n.natAbs : Int) = -n := by omega
        rw [hback, hneg]
    rw [hvalue, habs, hsign, UnpackedFloat.abs]

/-! ## Addition -/

theorem apply_mul (sign : Sign) (x y : Int) : sign.apply x * y = sign.apply (x * y) := by
  cases sign with
  | negative => exact Int.neg_mul x y
  | positive => rfl

/-- A mantissa that is moved to a smaller exponent stands for the same whole number, in units of
`2 ^ (-52)`. -/
theorem apply_shiftLeft {n : Int} {m : Nat} {e target : Int}
    (hvalue : m * 2 ^ (e + 52).toNat = n.natAbs * 2 ^ 52) (hlo : -52 ≤ target) (hle : target ≤ e) :
    (signOf n).apply (m <<< (e - target).toNat : Nat) * 2 ^ (target + 52).toNat = n * 2 ^ 52 := by
  have hexponent : (e - target).toNat + (target + 52).toNat = (e + 52).toNat := by omega
  have hnat : (m <<< (e - target).toNat) * 2 ^ (target + 52).toNat = n.natAbs * 2 ^ 52 := by
    rw [Nat.shiftLeft_eq, Nat.mul_assoc, ← pow_add, hexponent, hvalue]
  have hint : ((m <<< (e - target).toNat : Nat) : Int) * 2 ^ (target + 52).toNat =
      (n.natAbs : Int) * 2 ^ 52 := by exact_mod_cast hnat
  rw [apply_mul, hint, ← apply_mul, apply_signOf]

/-- Rounding a mantissa that stands for a whole number gives the value of that number. -/
theorem normalize_eq_ofInt {m n e : Int} (hvalue : m * 2 ^ (e + 52).toNat = n * 2 ^ 52)
    (hlo : -52 ≤ e) :
    UnpackedFloat.normalize .binary64 m e .positive = UnpackedFloat.ofInt .binary64 n := by
  have hexponent : e - (e + 52).toNat = 0 - (52 : Nat) := by omega
  calc UnpackedFloat.normalize .binary64 m e .positive
      = UnpackedFloat.normalize .binary64 (m * 2 ^ (e + 52).toNat) (e - (e + 52).toNat) .positive :=
        (normalize_scale .binary64 m e _ .positive).symm
    _ = UnpackedFloat.normalize .binary64 (n * 2 ^ 52) (0 - (52 : Nat)) .positive := by
        rw [hvalue, hexponent]
    _ = UnpackedFloat.ofInt .binary64 n := normalize_scale .binary64 n 0 52 .positive

/-- The sum of two whole numbers up to `2 ^ 53` in magnitude is rounded once, from the exact sum. -/
theorem add_ofInt {a b : Int} (ha : a.natAbs ≤ 9007199254740992) (hb : b.natAbs ≤ 9007199254740992) :
    UnpackedFloat.add .binary64 (UnpackedFloat.ofInt .binary64 a) (UnpackedFloat.ofInt .binary64 b) =
      UnpackedFloat.ofInt .binary64 (a + b) := by
  rcases eq_or_ne a 0 with rfl | hane
  · rw [Int.zero_add, ofInt_zero]
    rcases eq_or_ne b 0 with rfl | hbne
    · rfl
    · obtain ⟨m, e, hm, hvalue, -⟩ := exists_ofInt hbne (by omega)
      rw [hvalue]
      rfl
  rcases eq_or_ne b 0 with rfl | hbne
  · obtain ⟨m, e, hm, hvalue, -⟩ := exists_ofInt hane (by omega)
    rw [Int.add_zero, ofInt_zero, hvalue]
    rfl
  obtain ⟨ma, ea, hma, hva, -, hloa, -, hexacta⟩ := exists_ofInt hane (by omega)
  obtain ⟨mb, eb, hmb, hvb, -, hlob, -, hexactb⟩ := exists_ofInt hbne (by omega)
  have hlo : -52 ≤ min ea eb := by omega
  have hsuma := apply_shiftLeft (hexacta ha).2 hlo (Int.min_le_left ea eb)
  have hsumb := apply_shiftLeft (hexactb hb).2 hlo (Int.min_le_right ea eb)
  rw [hva, hvb, UnpackedFloat.add]
  refine normalize_eq_ofInt ?_ hlo
  rw [Int.add_mul, hsuma, hsumb, ← Int.add_mul]

/-! ## Reading back -/

/-- A mantissa that stands for a natural number is that number after all bits behind the point have been
cut off. -/
theorem roundToInt_positive {n m : Nat} {e : Int} (hvalue : m * 2 ^ (e + 52).toNat = n * 2 ^ 52)
    (hlo : -52 ≤ e) : roundToInt .positive m e = n := by
  have hexponent : (e + 52).toNat + (-e).toNat = e.toNat + 52 := by omega
  have hmantissa : m * 2 ^ e.toNat = n * 2 ^ (-e).toNat := by
    have hscaled : m * 2 ^ e.toNat * 2 ^ 52 = n * 2 ^ (-e).toNat * 2 ^ 52 := by
      calc m * 2 ^ e.toNat * 2 ^ 52
          = m * 2 ^ (e + 52).toNat * 2 ^ (-e).toNat := by
            rw [Nat.mul_assoc, Nat.mul_assoc, ← pow_add, ← pow_add, hexponent]
        _ = n * 2 ^ (-e).toNat * 2 ^ 52 := by rw [hvalue, Nat.mul_right_comm]
    exact Nat.eq_of_mul_eq_mul_right (Nat.two_pow_pos 52) hscaled
  have hleft : (e - 0).toNat = e.toNat := by omega
  have hright : (0 - (e - (e - 0).toNat)).toNat = (-e).toNat := by omega
  have hshift : shiftToExponent (m <<< (e - 0).toNat) (e - (e - 0).toNat) .exact 0 =
      (⟨n, false, false⟩, e - (e - 0).toNat + (-e).toNat) := by
    rw [shiftToExponent, hright, hleft, Nat.shiftLeft_eq, hmantissa]
    exact congrArg (·, _) (shiftRight_exact n _)
  rw [roundToInt, decreaseExponent]
  simp only [hshift]
  rfl

/-- A natural number up to `2 ^ 53` is read back from its value. -/
theorem toUInt64_ofInt {n : Nat} (hn : n ≤ 9007199254740992) :
    (UnpackedFloat.ofInt .binary64 n).toUInt64 = n.toUInt64 := by
  have hint : (UnpackedFloat.ofInt .binary64 n).toInt 0 (UInt64.size - 1) = n := by
    rcases Nat.eq_zero_or_pos n with rfl | hpos
    · rfl
    · obtain ⟨m, e, hm, hvalue, -, hlo, -, hexact⟩ := exists_ofInt (n := (n : Int)) (by omega) (by omega)
      rw [hvalue, signOf_of_nonneg (by omega)]
      exact roundToInt_positive (hexact (by omega)).2 hlo
  have hclamp : (n : Int).toNat < UInt64.size := by
    change n < 18446744073709551616
    omega
  rw [UnpackedFloat.toUInt64, hint, UInt64.ofNatClamp, dif_pos hclamp]
  exact UInt64.ofNatLT_eq_ofNat _

end Binary64

/-! ## The nearest binary64 to a whole number -/

namespace Number

open Float.Model

theorem natAbs_lt_of_fitsWord {n : Int} (hfits : FitsWord n) : n.natAbs < 18446744073709551616 := by
  obtain ⟨hlow, hhigh⟩ := hfits
  omega

theorem fitsWord_of_natAbs_le {n : Int} (hn : n.natAbs ≤ 9007199254740992) : FitsWord n :=
  ⟨by omega, by omega⟩

theorem fitsWord_natAbs {n : Int} (hfits : FitsWord n) : FitsWord n.natAbs := by
  obtain ⟨hlow, hhigh⟩ := hfits
  exact ⟨by omega, by omega⟩

theorem nearestFloat_zero : nearestFloat 0 = 0 := rfl

/-- The value of the nearest binary64, for either sign. -/
theorem nearestFloat_eq_pack {n : Int} (hfits : FitsWord n) :
    nearestFloat n = ⟨Float.Model.pack (UnpackedFloat.ofInt .binary64 n)⟩ := by
  have hlt := natAbs_lt_of_fitsWord hfits
  have hword : (n.natAbs.toUInt64.toNat : Int) = n.natAbs :=
    congrArg _ (UInt64.toNat_ofNat_of_lt hlt)
  have htoFloat : n.natAbs.toUInt64.toFloat = ⟨Float.Model.pack (UnpackedFloat.ofInt .binary64 n.natAbs)⟩ := by
    change (⟨Float.Model.pack (UnpackedFloat.ofInt .binary64 n.natAbs.toUInt64.toNat)⟩ : Float) = _
    rw [hword]
  rw [nearestFloat, htoFloat]
  split
  · rename_i hn
    rw [Int.natAbs_of_nonneg hn]
  · rename_i hn
    have hne : (n.natAbs : Int) ≠ 0 := by omega
    have hback : -(n.natAbs : Int) = n := by omega
    change (⟨Float.Model.pack (Float.Model.pack _).unpack.neg⟩ : Float) = _
    rw [Binary64.unpack_pack_ofInt (by omega), Binary64.neg_ofInt hne (by omega), hback]

theorem unpack_nearestFloat {n : Int} (hfits : FitsWord n) :
    (nearestFloat n).toModel.unpack = UnpackedFloat.ofInt .binary64 n := by
  rw [nearestFloat_eq_pack hfits]
  exact Binary64.unpack_pack_ofInt (natAbs_lt_of_fitsWord hfits)

theorem unpack_zero : (0 : Float).toModel.unpack = .zero .positive := rfl

/-- The value is finite, and it is zero for zero only. -/
theorem unpack_nearestFloat_cases {n : Int} (hfits : FitsWord n) :
    n = 0 ∧ (nearestFloat n).toModel.unpack = .zero .positive ∨
      n ≠ 0 ∧ ∃ m e hm, (nearestFloat n).toModel.unpack = .finite (Binary64.signOf n) m e hm := by
  rw [unpack_nearestFloat hfits]
  rcases eq_or_ne n 0 with rfl | hn
  · exact Or.inl ⟨rfl, rfl⟩
  · obtain ⟨m, e, hm, hvalue, -⟩ := Binary64.exists_ofInt hn (natAbs_lt_of_fitsWord hfits)
    exact Or.inr ⟨hn, m, e, hm.pos, hvalue⟩

/-- Every whole number that fits 64 bits is finite as a binary64. -/
theorem isFinite_nearestFloat {n : Int} (hfits : FitsWord n) : (nearestFloat n).isFinite = true := by
  change (nearestFloat n).toModel.unpack.isFinite = true
  obtain ⟨-, hzero⟩ | ⟨-, m, e, hm, hfinite⟩ := unpack_nearestFloat_cases hfits
  · rw [hzero]
    rfl
  · rw [hfinite]
    rfl

theorem nearestFloat_ne_nan {n : Int} (hfits : FitsWord n) : nearestFloat n ≠ Float.nan := by
  intro hnan
  have hfinite := isFinite_nearestFloat hfits
  rw [hnan] at hfinite
  exact absurd hfinite (by decide)

/-- **Only zero becomes a zero.** -/
theorem nearestFloat_beq_zero_iff {n : Int} (hfits : FitsWord n) :
    (nearestFloat n == 0) = true ↔ n = 0 := by
  change (nearestFloat n).toModel.unpack.beq (0 : Float).toModel.unpack = true ↔ n = 0
  rw [unpack_zero]
  obtain ⟨hn, hzero⟩ | ⟨hn, m, e, hm, hfinite⟩ := unpack_nearestFloat_cases hfits
  · rw [hzero]
    exact iff_of_true rfl hn
  · rw [hfinite]
    refine iff_of_false ?_ hn
    cases Binary64.signOf n <;> exact Bool.false_ne_true

theorem nearestFloat_lt_zero_iff {n : Int} (hfits : FitsWord n) : nearestFloat n < 0 ↔ n < 0 := by
  have hlt : nearestFloat n < 0 ↔
      (nearestFloat n).toModel.unpack.lt (0 : Float).toModel.unpack = true := decide_eq_true_iff
  rw [hlt, unpack_zero]
  obtain ⟨rfl, hzero⟩ | ⟨hn, m, e, hm, hfinite⟩ := unpack_nearestFloat_cases hfits
  · rw [hzero]
    exact iff_of_false Bool.false_ne_true (by decide)
  · rw [hfinite]
    rcases Int.lt_or_gt_of_ne hn with hneg | hpos
    · rw [Binary64.signOf_of_neg hneg]
      exact iff_of_true rfl hneg
    · rw [Binary64.signOf_of_nonneg (by omega)]
      exact iff_of_false Bool.false_ne_true (by omega)

/-! ## Up to `2 ^ 53` -/

/-- **Addition is exact.** -/
theorem nearestFloat_add {a b : Int} (ha : a.natAbs ≤ 9007199254740992)
    (hb : b.natAbs ≤ 9007199254740992) : nearestFloat a + nearestFloat b = nearestFloat (a + b) := by
  have hsum : FitsWord (a + b) := ⟨by omega, by omega⟩
  change (⟨Float.Model.pack (UnpackedFloat.add .binary64 (nearestFloat a).toModel.unpack
    (nearestFloat b).toModel.unpack)⟩ : Float) = _
  rw [unpack_nearestFloat (fitsWord_of_natAbs_le ha), unpack_nearestFloat (fitsWord_of_natAbs_le hb),
    Binary64.add_ofInt ha hb, nearestFloat_eq_pack hsum]

theorem abs_nearestFloat {n : Int} (hfits : FitsWord n) :
    (nearestFloat n).abs = nearestFloat n.natAbs := by
  change (⟨Float.Model.pack (nearestFloat n).toModel.unpack.abs⟩ : Float) = _
  rw [unpack_nearestFloat hfits, Binary64.abs_ofInt (natAbs_lt_of_fitsWord hfits),
    nearestFloat_eq_pack (fitsWord_natAbs hfits)]

end Number

/-- **Reading back is exact.** -/
theorem exactWhole?_nearestFloat {n : Int} (hn : n.natAbs ≤ 9007199254740992) :
    exactWhole? (Number.nearestFloat n) = some n := by
  have hfits := Number.fitsWord_of_natAbs_le hn
  have habs := Number.fitsWord_natAbs hfits
  have hmagnitude : (Number.nearestFloat n.natAbs).toUInt64 = n.natAbs.toUInt64 := by
    change (Number.nearestFloat n.natAbs).toModel.unpack.toUInt64 = _
    rw [Number.unpack_nearestFloat habs, Binary64.toUInt64_ofInt hn]
  have htoNat : n.natAbs.toUInt64.toNat = n.natAbs :=
    UInt64.toNat_ofNat_of_lt (Number.natAbs_lt_of_fitsWord hfits)
  have htoFloat : n.natAbs.toUInt64.toFloat = Number.nearestFloat n.natAbs := by
    rw [Number.nearestFloat, if_pos (by omega), Int.natAbs_natCast]
  have hself : (Number.nearestFloat n.natAbs == Number.nearestFloat n.natAbs) = true :=
    Float.beq_self_iff.2 (Number.nearestFloat_ne_nan habs)
  rw [exactWhole?, Number.abs_nearestFloat hfits, hmagnitude, htoNat, htoFloat, hself]
  simp only [hn, decide_true, Bool.and_self, if_true, Number.nearestFloat_lt_zero_iff hfits]
  split <;> exact congrArg some (by omega)

end RequestBoard
