import Metrology.Proofs.Scalar.Nearest

/-!
Binary numbers and their bits. A number other than zero is the packed form of the significand and
the power that are decoded from its bits.
-/

namespace Metrology
namespace Binary

open Float.Model Float.Model.UnpackedFloat

/-! ### Parts of a packed number -/

theorem toNat_packComponents (sign : Sign) (exponent : BitVec 11) (mantissa : BitVec 52) :
    (packComponents Format.binary64 sign exponent mantissa).toNat =
      sign.toBitVec.toNat * 2 ^ 63 + exponent.toNat * 2 ^ 52 + mantissa.toNat := by
  unfold packComponents
  rw [BitVec.toNat_append, BitVec.toNat_append, ← Nat.shiftLeft_add_eq_or_of_lt mantissa.isLt,
    ← Nat.shiftLeft_add_eq_or_of_lt exponent.isLt, Nat.shiftLeft_eq, Nat.shiftLeft_eq]
  ring

theorem toNat_unpackMantissa (b : BitVec 64) :
    (@unpackMantissa Format.binary64 b).toNat = b.toNat % 2 ^ 52 := by
  simp [unpackMantissa]

theorem toNat_unpackExponent (b : BitVec 64) :
    (@unpackExponent Format.binary64 b).toNat = b.toNat / 2 ^ 52 % 2048 := by
  simp [unpackExponent, Nat.shiftRight_eq_div_pow]

theorem toNat_unpackSign (b : BitVec 64) :
    (@unpackSign Format.binary64 b).toNat = b.toNat / 2 ^ 63 := by
  have hlt := b.isLt
  simp [unpackSign, Nat.shiftRight_eq_div_pow]
  omega

/-! ### Numbers and their parts -/

/-- The sign of a number. -/
def signOf (negative : Bool) : Sign := if negative then .negative else .positive

/-- The significand and the power that bits stand for, as decoding takes them. -/
def significandOf (bits : Nat) : Nat :=
  if bits / fractionLimit % 2048 = 0 then bits % fractionLimit
  else fractionLimit + bits % fractionLimit

def powerOf (bits : Nat) : Int :=
  if bits / fractionLimit % 2048 = 0 then -1074 else (bits / fractionLimit % 2048 : Nat) - 1075

theorem decode_eq (x : Float) : decode x = ⟨decide (Nat.pow 2 63 ≤ x.toBits.toNat),
    significandOf x.toBits.toNat, powerOf x.toBits.toNat⟩ := rfl

theorem fractionLimit_eq : fractionLimit = 2 ^ 52 := rfl

theorem sign_unpackSign (b : BitVec 64) :
    Sign.ofBitVec (@unpackSign Format.binary64 b) =
      signOf (decide (Nat.pow 2 63 ≤ b.toNat)) := by
  have hlt := b.isLt
  have hsign := toNat_unpackSign b
  have hpow : Nat.pow 2 63 = 2 ^ 63 := rfl
  rw [hpow]
  unfold Sign.ofBitVec signOf
  by_cases hneg : 2 ^ 63 ≤ b.toNat
  · have hne : @unpackSign Format.binary64 b ≠ 0#1 := by
      intro heq
      rw [heq] at hsign
      simp at hsign
      omega
    rw [if_neg hne, decide_eq_true hneg, if_pos rfl]
  · have heq : @unpackSign Format.binary64 b = 0#1 := by
      refine BitVec.eq_of_toNat_eq ?_
      rw [hsign]
      simp
      omega
    rw [if_pos heq, decide_eq_false hneg, if_neg (by decide)]

/-- Bits with all exponent bits set are no finite number. -/
theorem exponent_of_isFinite {b : BitVec 64}
    (h : (UnpackedFloat.unpack Format.binary64 b).isFinite = true) :
    b.toNat / fractionLimit % 2048 ≠ 2047 := by
  intro hall
  have hexponent : @unpackExponent Format.binary64 b = -1#_ := by
    refine BitVec.eq_of_toNat_eq ?_
    rw [toNat_unpackExponent, ← fractionLimit_eq, hall]
    rfl
  unfold UnpackedFloat.unpack at h
  simp only [hexponent, if_true] at h
  split at h <;> cases h

/-- The number that bits are unpacked to. -/
theorem unpack_eq {b : BitVec 64} (hfinite : b.toNat / fractionLimit % 2048 ≠ 2047) :
    UnpackedFloat.unpack Format.binary64 b = if h : significandOf b.toNat = 0 then
        .zero (signOf (decide (Nat.pow 2 63 ≤ b.toNat)))
      else .finite (signOf (decide (Nat.pow 2 63 ≤ b.toNat))) (significandOf b.toNat)
        (powerOf b.toNat) (Nat.pos_of_ne_zero h) := by
  have hexponent := toNat_unpackExponent b
  have hmantissa := toNat_unpackMantissa b
  rw [← fractionLimit_eq] at hexponent hmantissa
  have hall : @unpackExponent Format.binary64 b ≠ -1#_ := by
    intro heq
    rw [heq] at hexponent
    exact hfinite hexponent.symm
  unfold UnpackedFloat.unpack
  simp only [sign_unpackSign, if_neg hall]
  by_cases hzero : b.toNat / fractionLimit % 2048 = 0
  · have hnone : @unpackExponent Format.binary64 b = 0#_ := by
      refine BitVec.eq_of_toNat_eq ?_
      rw [hexponent, hzero]
      rfl
    have hsignificand : significandOf b.toNat =
        (@unpackMantissa Format.binary64 b).toNat := by
      rw [significandOf, if_pos hzero, hmantissa]
    have hpower : powerOf b.toNat = -1074 := by rw [powerOf, if_pos hzero]
    rw [if_pos hnone]
    by_cases hfraction : @unpackMantissa Format.binary64 b = 0#_
    · have hzero' : significandOf b.toNat = 0 := by
        rw [hsignificand, hfraction]
        rfl
      rw [dif_pos hfraction, dif_pos hzero']
    · have hne : significandOf b.toNat ≠ 0 := by
        rw [hsignificand]
        exact fun heq => hfraction (BitVec.eq_of_toNat_eq heq)
      rw [dif_neg hfraction, dif_neg hne]
      congr 1
      · exact hsignificand.symm
      · rw [hexponent, hzero, hpower]
        rfl
  · have hsome : @unpackExponent Format.binary64 b ≠ 0#_ := by
      intro heq
      rw [heq] at hexponent
      exact hzero hexponent.symm
    have hne : significandOf b.toNat ≠ 0 := by
      rw [significandOf, if_neg hzero, fractionLimit_eq]
      omega
    rw [if_neg hsome, dif_neg hne]
    congr 1
    · rw [BitVec.toNat_append, ← Nat.shiftLeft_add_eq_or_of_lt (BitVec.isLt _), hmantissa,
        significandOf, if_neg hzero]
      rfl
    · rw [hexponent, powerOf, if_neg hzero]
      simp [Format.exponentBias]

theorem canonical_of_bits {n : Nat} (hfinite : n / fractionLimit % 2048 ≠ 2047)
    (hne : significandOf n ≠ 0) : Canonical (significandOf n) (powerOf n) := by
  have hlt := Nat.mod_lt n (show 0 < fractionLimit by decide)
  have hexponent := Nat.mod_lt (n / fractionLimit) (show 0 < 2048 by decide)
  have hlimit : fractionLimit = 2 ^ 52 := rfl
  unfold significandOf powerOf at *
  split at hne
  · rename_i hzero
    rw [if_pos hzero, if_pos hzero]
    exact ⟨by omega, by omega, by omega, by omega, .inr rfl⟩
  · rename_i hzero
    rw [if_neg hzero, if_neg hzero]
    exact ⟨by omega, by omega, by omega, by omega, .inl (by omega)⟩

/-- The bits of a canonical number. -/
theorem toNat_pack {m : Nat} {e : Int} (h : Canonical m e) (sign : Sign) :
    (UnpackedFloat.pack Format.binary64 (.finite sign m e h.pos)).toNat =
      sign.toBitVec.toNat * 2 ^ 63 +
        if 2 ^ 52 ≤ m then (e + 1075).toNat * 2 ^ 52 + (m - 2 ^ 52) else m := by
  obtain ⟨hpos, hbits, hlow, hhigh, hnormal⟩ := h
  have hbiased : (e + (Format.binary64.exponentBias : Int) +
      (Format.binary64.mantissaBitsWithoutImplicit : Int)).toNat = (e + 1075).toNat := by
    congr 1
    simp [Format.exponentBias]
    omega
  have hfits : ¬2 ^ Format.binary64.exponentBits ≤ (e + 1075).toNat + 1 := by
    show ¬2 ^ 11 ≤ _
    omega
  unfold UnpackedFloat.pack
  simp only [hbiased, if_neg hfits]
  by_cases hfull : 2 ^ 52 ≤ m
  · have hlog : m.log2 + 1 = Format.binary64.mantissaBits := by
      have hlow := (Nat.le_log2 hpos.ne').mpr hfull
      have hhigh := (Nat.log2_lt hpos.ne').mpr hbits
      show m.log2 + 1 = 1 + 52
      omega
    rw [if_pos hlog, if_pos hfull, toNat_packComponents, BitVec.toNat_ofNat, BitVec.toNat_ofNat]
    omega
  · have hlog : ¬m.log2 + 1 = Format.binary64.mantissaBits := by
      have hlt := (Nat.log2_lt hpos.ne').mpr (not_le.mp hfull)
      show ¬m.log2 + 1 = 1 + 52
      omega
    rw [if_neg hlog, if_neg hfull, toNat_packComponents, BitVec.toNat_ofNat, BitVec.toNat_ofNat]
    omega

theorem signOf_pack (sign : Sign) {n : Nat} (hn : n < 2 ^ 63) :
    signOf (decide (Nat.pow 2 63 ≤ sign.toBitVec.toNat * 2 ^ 63 + n)) = sign := by
  have hpow : Nat.pow 2 63 = 2 ^ 63 := rfl
  cases sign with
  | negative =>
    have hge : Nat.pow 2 63 ≤ Sign.negative.toBitVec.toNat * 2 ^ 63 + n := by
      rw [hpow]
      show 2 ^ 63 ≤ 1 * 2 ^ 63 + n
      omega
    rw [decide_eq_true hge, signOf, if_pos rfl]
  | positive =>
    have hlt : ¬Nat.pow 2 63 ≤ Sign.positive.toBitVec.toNat * 2 ^ 63 + n := by
      rw [hpow]
      show ¬2 ^ 63 ≤ 0 * 2 ^ 63 + n
      omega
    rw [decide_eq_false hlt, signOf, if_neg (by decide)]

/-- The parts that are read off the bits of a canonical number. -/
theorem parts_pack {m : Nat} {e : Int} (h : Canonical m e) (sign : Sign) :
    let n := (UnpackedFloat.pack Format.binary64 (.finite sign m e h.pos)).toNat
    n / fractionLimit % 2048 ≠ 2047 ∧ significandOf n = m ∧ powerOf n = e ∧
      signOf (decide (Nat.pow 2 63 ≤ n)) = sign := by
  intro n
  have hbits : n = _ := toNat_pack h sign
  obtain ⟨hpos, hlt, hlow, hhigh, hnormal⟩ := h
  have hsign : sign.toBitVec.toNat < 2 := sign.toBitVec.isLt
  have hlimit : fractionLimit = 2 ^ 52 := rfl
  have hsignOf : signOf (decide (Nat.pow 2 63 ≤ n)) = sign := by
    rw [hbits]
    refine signOf_pack sign ?_
    split <;> omega
  rw [← and_assoc, ← and_assoc]
  refine ⟨?_, hsignOf⟩
  rw [significandOf, powerOf, hbits, hlimit]
  by_cases hfull : 2 ^ 52 ≤ m
  · rw [if_pos hfull]
    have hexponent : (sign.toBitVec.toNat * 2 ^ 63 + ((e + 1075).toNat * 2 ^ 52 + (m - 2 ^ 52))) /
        2 ^ 52 % 2048 = (e + 1075).toNat := by omega
    rw [hexponent, if_neg (by omega), if_neg (by omega)]
    omega
  · rw [if_neg hfull]
    have hexponent : (sign.toBitVec.toNat * 2 ^ 63 + m) / 2 ^ 52 % 2048 = 0 := by omega
    rw [hexponent, if_pos rfl, if_pos rfl]
    omega

/-- A canonical number keeps its parts when it is packed. -/
theorem unpack_pack {m : Nat} {e : Int} (h : Canonical m e) (sign : Sign) :
    (Float.Model.pack (.finite sign m e h.pos)).unpack = .finite sign m e h.pos := by
  obtain ⟨hfinite, hsignificand, hpower, hsign⟩ := parts_pack h sign
  have hunpack : (Float.Model.pack (.finite sign m e h.pos)).unpack =
      UnpackedFloat.unpack Format.binary64
        (UnpackedFloat.pack Format.binary64 (.finite sign m e h.pos)) := rfl
  rw [hunpack]
  generalize UnpackedFloat.pack Format.binary64 (.finite sign m e h.pos) = b at *
  have hne : significandOf b.toNat ≠ 0 := by
    rw [hsignificand]
    exact h.pos.ne'
  rw [unpack_eq hfinite, dif_neg hne]
  simp only [hsign, hsignificand, hpower]

/-- A finite number other than zero is the packed form of what is decoded from its bits. -/
theorem eq_pack {x : Float} (hfinite : x.isFinite = true) (hne : (decode x).significand ≠ 0) :
    ∃ h : Canonical (decode x).significand (decode x).power,
      x = Float.ofModel (Float.Model.pack (.finite (signOf (decode x).negative)
        (decode x).significand (decode x).power h.pos)) := by
  have hexponent : x.toBits.toNat / fractionLimit % 2048 ≠ 2047 := exponent_of_isFinite hfinite
  have hcanonical : Canonical (decode x).significand (decode x).power :=
    canonical_of_bits hexponent hne
  refine ⟨hcanonical, ?_⟩
  obtain ⟨⟨bits, hvalid⟩⟩ := x
  have hunpack : UnpackedFloat.unpack Format.binary64 bits.toBitVec = .finite _ _ _ _ :=
    (unpack_eq hexponent).trans (dif_neg hne)
  refine congrArg Float.ofModel ?_
  rw [Float.Model.pack, Float.Model.mk.injEq]
  refine UInt64.toBitVec_inj.mp ((pack_unpack_of_valid hvalid).symm.trans ?_)
  rw [hunpack]
  rfl

end Binary
end Metrology
