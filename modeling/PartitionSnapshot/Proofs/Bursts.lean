import Mathlib.Logic.Function.Iterate
import PartitionSnapshot.Checksum

/-!
# Changes that a checksum sees

The register of the checksum is a linear machine over exclusive or: a bit step takes the exclusive
or of two registers to that of the two results, and never loses anything, since the polynomial sets
the highest bit just when a bit was shifted out. As long as no more than four bytes are fed, the
register holds all of them: it is what the bit steps make of the register before and the bytes, read
as one number.

So two contents of one length that differ within four bytes in a row, and nowhere else, have
different checksums.

## Main statements

* `crcByte_injective`: no step of the register loses anything.
* `foldl_crcByte`: what feeding up to four bytes comes to.
* `crc32_ne_of_burst`: the checksums of contents that differ in up to four bytes in a row.
-/

namespace PartitionSnapshot

/-! ## Bit steps -/

theorem and_one_eq_zero {register : UInt32} : register &&& 1 = 0 ↔ register.toNat % 2 = 0 := by
  rw [← UInt32.toNat_inj, UInt32.toNat_and, UInt32.toNat_one, Nat.and_one_is_mod]
  rfl

theorem toNat_shiftRight_one (register : UInt32) :
    (register >>> 1).toNat = register.toNat / 2 := by
  rw [UInt32.toNat_shiftRight]
  exact Nat.shiftRight_eq_div_pow _ 1

/-- A bit step is linear. -/
theorem crcBit_xor (a b : UInt32) : crcBit (a ^^^ b) = crcBit a ^^^ crcBit b := by
  have hlow : (a ^^^ b) &&& 1 = 0 ↔ (a &&& 1 = 0 ↔ b &&& 1 = 0) := by
    have hmod : (a.toNat ^^^ b.toNat) % 2 ^ 1 = a.toNat % 2 ^ 1 ^^^ b.toNat % 2 ^ 1 :=
      Nat.xor_mod_two_pow
    rw [Nat.pow_one] at hmod
    rw [and_one_eq_zero, and_one_eq_zero, and_one_eq_zero, UInt32.toNat_xor, hmod]
    rcases Nat.mod_two_eq_zero_or_one a.toNat with ha | ha <;>
      rcases Nat.mod_two_eq_zero_or_one b.toNat with hb | hb <;> simp [ha, hb]
  have hshift : (a ^^^ b) >>> 1 = a >>> 1 ^^^ b >>> 1 := UInt32.shiftRight_xor
  unfold crcBit
  rw [hshift]
  -- the polynomial is folded in on neither side, on one, or on both, and then it goes away
  by_cases ha : a &&& 1 = 0
  · by_cases hb : b &&& 1 = 0
    · rw [if_pos (hlow.2 (by simp only [ha, hb])), if_pos ha, if_pos hb]
    · rw [if_neg (fun h => hb ((hlow.1 h).1 ha)), if_pos ha, if_neg hb, UInt32.xor_assoc]
  · by_cases hb : b &&& 1 = 0
    · rw [if_neg (fun h => ha ((hlow.1 h).2 hb)), if_neg ha, if_pos hb]
      ac_rfl
    · rw [if_pos (hlow.2 (by simp only [ha, hb])), if_neg ha, if_neg hb]
      have hgone : crcPolynomial ^^^ crcPolynomial = 0 := UInt32.xor_self
      calc a >>> 1 ^^^ b >>> 1
          = a >>> 1 ^^^ b >>> 1 ^^^ (crcPolynomial ^^^ crcPolynomial) :=
            by rw [hgone, UInt32.xor_zero]
        _ = (a >>> 1 ^^^ crcPolynomial) ^^^ (b >>> 1 ^^^ crcPolynomial) := by ac_rfl

/-- A register that a bit step clears was clear. -/
theorem eq_zero_of_crcBit {register : UInt32} (h : crcBit register = 0) : register = 0 := by
  have hlt := register.toNat_lt
  unfold crcBit at h
  split at h
  · next hlow =>
    have hhigh := congrArg UInt32.toNat h
    rw [toNat_shiftRight_one, UInt32.toNat_zero] at hhigh
    rw [and_one_eq_zero] at hlow
    apply UInt32.toNat_inj.1
    rw [UInt32.toNat_zero]
    omega
  · -- the polynomial has the highest bit, which no register has that was shifted
    have hpolynomial := congrArg UInt32.toNat (UInt32.xor_eq_zero_iff.1 h)
    have hhigh : 2 ^ 31 ≤ crcPolynomial.toNat := by decide
    rw [toNat_shiftRight_one] at hpolynomial
    omega

theorem crcBit_injective : Function.Injective crcBit := by
  intro a b h
  -- the step takes the difference of the two to nothing
  rw [← UInt32.xor_eq_zero_iff]
  apply eq_zero_of_crcBit
  rw [crcBit_xor, h, UInt32.xor_self]

/-- Bit steps are linear. -/
theorem iterate_crcBit_xor (n : Nat) (a b : UInt32) :
    crcBit^[n] (a ^^^ b) = crcBit^[n] a ^^^ crcBit^[n] b := by
  induction n generalizing a b with
  | zero => rfl
  | succ n ih => rw [Function.iterate_succ_apply, crcBit_xor, ih, ← Function.iterate_succ_apply,
      ← Function.iterate_succ_apply]

/-- As long as only zeros are shifted out, bit steps move the register down. -/
theorem iterate_crcBit_shifted (n m : Nat) (h : Nat.pow 2 n * m < UInt32.size) :
    crcBit^[n] (.ofNat (Nat.pow 2 n * m)) = .ofNat m := by
  induction n with
  | zero => simp
  | succ n ih =>
    have hpow : Nat.pow 2 (n + 1) * m = 2 * (Nat.pow 2 n * m) := by
      rw [← Nat.mul_assoc]
      exact congrArg (· * m) (Nat.mul_comm (Nat.pow 2 n) 2)
    rw [hpow] at h ⊢
    have hstep : crcBit (.ofNat (2 * (Nat.pow 2 n * m))) = .ofNat (Nat.pow 2 n * m) := by
      have hlow : UInt32.ofNat (2 * (Nat.pow 2 n * m)) &&& 1 = 0 := by
        rw [and_one_eq_zero, UInt32.toNat_ofNat_of_lt' h, Nat.mul_mod_right]
      rw [crcBit, if_pos hlow]
      apply UInt32.toNat_inj.1
      rw [toNat_shiftRight_one, UInt32.toNat_ofNat_of_lt' h, UInt32.toNat_ofNat_of_lt' (by omega),
        Nat.mul_div_cancel_left _ (by decide)]
    rw [Function.iterate_succ_apply, hstep, ih (by omega)]

/-! ## Bytes -/

/-- Feeding a byte is eight bit steps. -/
theorem crcByte_eq (register : UInt32) (byte : UInt8) :
    crcByte register byte = crcBit^[8] (register ^^^ byte.toUInt32) := rfl

/-- Registers that differ still do after a byte. -/
theorem crcByte_injective (byte : UInt8) : Function.Injective (crcByte · byte) := by
  intro a b h
  have hbits : crcBit^[8] (a ^^^ byte.toUInt32) = crcBit^[8] (b ^^^ byte.toUInt32) := h
  exact (UInt32.xor_left_inj _).1 (crcBit_injective.iterate 8 hbits)

theorem foldl_crcByte_injective (bytes : Bytes) :
    Function.Injective fun register => bytes.foldl crcByte register := by
  induction bytes with
  | nil => exact Function.injective_id
  | cons byte bytes ih => exact ih.comp (crcByte_injective byte)

/-- A byte, and a number behind it. -/
theorem toUInt32_xor_ofNat (byte : UInt8) {m : Nat} (h : 256 * m < UInt32.size) :
    byte.toUInt32 ^^^ .ofNat (256 * m) = UInt32.ofNat (byte.toNat + 256 * m) := by
  have hbyte := byte.toNat_lt
  have hsize : UInt32.size = 2 ^ 32 := rfl
  have hsum : byte.toNat ^^^ 256 * m = byte.toNat + 256 * m := by
    -- the two have no bit in common: the one stays below the eighth, the other above it
    have hmod : (byte.toNat ^^^ 256 * m) % 2 ^ 8 = byte.toNat % 2 ^ 8 ^^^ 256 * m % 2 ^ 8 :=
      Nat.xor_mod_two_pow
    have hdiv : (byte.toNat ^^^ 256 * m) / 2 ^ 8 = byte.toNat / 2 ^ 8 ^^^ 256 * m / 2 ^ 8 :=
      Nat.xor_div_two_pow
    have hlow : byte.toNat % 2 ^ 8 = byte.toNat := Nat.mod_eq_of_lt hbyte
    have hnone : 256 * m % 2 ^ 8 = 0 := Nat.mul_mod_right 256 m
    have hhigh : byte.toNat / 2 ^ 8 = 0 := Nat.div_eq_of_lt hbyte
    have hnumber : 256 * m / 2 ^ 8 = m := Nat.mul_div_cancel_left m (by decide)
    rw [hlow, hnone, Nat.xor_zero] at hmod
    rw [hhigh, hnumber, Nat.zero_xor] at hdiv
    omega
  apply UInt32.toNat_inj.1
  rw [UInt32.toNat_xor, UInt8.toNat_toUInt32, UInt32.toNat_ofNat_of_lt' h, hsum,
    UInt32.toNat_ofNat_of_lt' (by omega)]

/-- **What feeding up to four bytes comes to**: the bit steps of all the bytes, from the register
with the bytes as one number folded in. -/
theorem foldl_crcByte (register : UInt32) (bytes : Bytes) (h : bytes.length ≤ 4) :
    bytes.foldl crcByte register =
      crcBit^[8 * bytes.length] (register ^^^ .ofNat (Bytes.toNatLE bytes)) := by
  induction bytes generalizing register with
  | nil => exact (UInt32.xor_zero).symm
  | cons byte bytes ih =>
    rw [List.length_cons] at h
    -- what follows the first byte is out of reach of its bit steps
    have hfollowing : 256 * Bytes.toNatLE bytes < UInt32.size := by
      have hlt := Bytes.toNatLE_lt bytes
      have hle : Nat.pow 256 bytes.length ≤ 256 ^ 3 :=
        Nat.pow_le_pow_right (by decide) (by omega)
      have hsize : UInt32.size = 256 * 256 ^ 3 := by decide
      omega
    have hshifted :
        crcBit^[8] (.ofNat (256 * Bytes.toNatLE bytes)) = .ofNat (Bytes.toNatLE bytes) :=
      iterate_crcBit_shifted 8 (Bytes.toNatLE bytes) hfollowing
    calc (byte :: bytes).foldl crcByte register
        = bytes.foldl crcByte (crcByte register byte) := rfl
      _ = crcBit^[8 * bytes.length] (crcByte register byte ^^^ .ofNat (Bytes.toNatLE bytes)) :=
        ih _ (by omega)
      _ = crcBit^[8 * bytes.length] (crcBit^[8] (register ^^^ byte.toUInt32 ^^^
            .ofNat (256 * Bytes.toNatLE bytes))) := by
        rw [iterate_crcBit_xor 8, hshifted, crcByte_eq]
      _ = crcBit^[8 * bytes.length + 8] (register ^^^ .ofNat (Bytes.toNatLE (byte :: bytes))) := by
        rw [Function.iterate_add_apply, UInt32.xor_assoc, toUInt32_xor_ofNat byte hfollowing]
        rfl

/-- Up to four bytes can be told from what they make of a register. -/
theorem eq_of_foldl_crcByte {register : UInt32} {old new : Bytes}
    (hlength : new.length = old.length) (hburst : old.length ≤ 4)
    (h : new.foldl crcByte register = old.foldl crcByte register) : new = old := by
  rw [foldl_crcByte _ _ (hlength ▸ hburst), foldl_crcByte _ _ hburst, hlength] at h
  have hnumber : UInt32.ofNat (Bytes.toNatLE new) = .ofNat (Bytes.toNatLE old) :=
    (UInt32.xor_right_inj _).1 (crcBit_injective.iterate _ h)
  have hlt {bytes : Bytes} (hbytes : bytes.length ≤ 4) : Bytes.toNatLE bytes < UInt32.size :=
    Nat.lt_of_lt_of_le (Bytes.toNatLE_lt bytes) (Nat.pow_le_pow_right (by decide) hbytes)
  have hnat := congrArg UInt32.toNat hnumber
  rw [UInt32.toNat_ofNat_of_lt' (hlt (hlength ▸ hburst)), UInt32.toNat_ofNat_of_lt' (hlt hburst)]
    at hnat
  rw [← Bytes.ofNatLE_toNatLE new, ← Bytes.ofNatLE_toNatLE old, hlength, hnat]

/-- **A change of up to four bytes in a row changes the checksum.** -/
theorem crc32_ne_of_burst {front old new back : Bytes} (hlength : new.length = old.length)
    (hburst : old.length ≤ 4) (hnew : new ≠ old) :
    crc32 (front ++ new ++ back) ≠ crc32 (front ++ old ++ back) := by
  intro h
  simp only [crc32, List.foldl_append] at h
  -- the bytes behind are the same, and keep different registers different
  have hregister : new.foldl crcByte (front.foldl crcByte 0xFFFFFFFF) =
      old.foldl crcByte (front.foldl crcByte 0xFFFFFFFF) :=
    foldl_crcByte_injective back ((UInt32.xor_left_inj _).1 h)
  exact hnew (eq_of_foldl_crcByte hlength hburst hregister)

end PartitionSnapshot
