import RemotePyMite.Proofs.Checksum.Polynomial

/-! # The checksum is the remainder of a division

The polynomial in the register has a lower degree than the divisor, so it is the remainder of every
polynomial with its residue (`register_eq_mod`).  What the initial register adds to it depends on the number
of bytes only: the difference of two checksums is what the difference of the bytes leaves in a register that
was empty (`compute_xor`).
-/
namespace RemotePyMite.Checksum
open Polynomial

theorem divisor_ne_zero : divisor ≠ 0 := by
  intro h
  have hdeg := degree_divisor
  rw [h,degree_zero] at hdeg
  cases hdeg

theorem register_eq_mod {crc : UInt16} {p : (ZMod 2)[X]}
    (h : residue crc = AdjoinRoot.mk divisor p) : register crc = p % divisor := by
  have hdvd : divisor ∣ register crc - p := AdjoinRoot.mk_eq_mk.mp h
  have hlt : (register crc).degree < divisor.degree := by
    rw [degree_divisor]
    exact degree_register_lt crc
  calc register crc = register crc % divisor := ((mod_eq_self_iff divisor_ne_zero).mpr hlt).symm
    _ = p % divisor := mod_eq_of_dvd_sub hdvd

theorem register_initial : register initial = polynomial (List.replicate 16 true) := by
  have hbits : Word.bits 16 initial.toNat = List.replicate 16 true := by decide
  rw [register,hbits]

theorem residue_compute (bytes : Bytes) :
    residue (compute bytes) = AdjoinRoot.mk divisor (X ^ 16 * polynomial bytes.bits +
      X ^ (8 * bytes.length) * polynomial (List.replicate 16 true)) := by
  rw [compute,residue_foldl,map_add,mk_X_pow_mul,mk_X_pow_mul,← register_initial,add_comm]
  rfl

section Invertible

theorem isUnit_unknown : IsUnit unknown := by
  have hdvd : divisor ∣ X * (X ^ 15 + X ^ 14 + X) - 1 := by
    refine dvd_of_eq ?_
    rw [CharTwo.sub_eq_add,divisor]
    ring
  have hone : unknown * AdjoinRoot.mk divisor (X ^ 15 + X ^ 14 + X) = 1 := by
    have hmk := AdjoinRoot.mk_eq_mk.mpr hdvd
    rwa [map_mul,AdjoinRoot.mk_X,map_one] at hmk
  exact IsUnit.of_mul_eq_one _ hone

/-- Where in the string a difference lies does not matter. -/
theorem dvd_of_dvd_X_pow_mul {n : Nat} {p : (ZMod 2)[X]} (h : divisor ∣ X ^ n * p) :
    divisor ∣ p := by
  rw [← AdjoinRoot.mk_eq_zero,mk_X_pow_mul] at h
  rw [← AdjoinRoot.mk_eq_zero]
  exact (isUnit_unknown.pow n).mul_right_eq_zero.mp h

end Invertible

section Linear

theorem residue_zero : residue 0 = 0 := by
  rw [residue,register_zero,map_zero]

theorem residue_eq_zero_iff {crc : UInt16} : residue crc = 0 ↔ crc = 0 := by
  rw [← residue_zero]
  exact residue_injective.eq_iff

/-- The register is linear in what it held before and in the bytes. -/
theorem foldl_update_xor {a b : Bytes} (hlen : a.length = b.length) (c d : UInt16) :
    a.foldl update c ^^^ b.foldl update d =
      (List.zipWith (· ^^^ ·) a b).foldl update (c ^^^ d) := by
  refine residue_injective ?_
  have hbits : a.bits.length = b.bits.length := by
    rw [Bytes.length_bits,Bytes.length_bits,hlen]
  rw [residue_xor,residue_foldl,residue_foldl,residue_foldl,residue_xor,Bytes.bits_zipWith_xor,
    polynomial_zipWith_xor hbits,map_add,List.length_zipWith,hlen,Nat.min_self]
  ring

theorem compute_xor {a b : Bytes} (hlen : a.length = b.length) :
    compute a ^^^ compute b = (List.zipWith (· ^^^ ·) a b).foldl update 0 := by
  rw [compute,compute,foldl_update_xor hlen,UInt16.xor_self]

theorem foldl_update_eq_zero_iff (bytes : Bytes) :
    bytes.foldl update 0 = 0 ↔ divisor ∣ polynomial bytes.bits := by
  rw [← residue_eq_zero_iff,residue_foldl,residue_zero,mul_zero,zero_add,
    (isUnit_unknown.pow 16).mul_right_eq_zero,AdjoinRoot.mk_eq_zero]

/-- A register that takes in what it holds is empty. -/
theorem foldl_update_pair {crc : UInt16} {low high : UInt8}
    (h : Word.ofLittleEndian [low,high] = crc.toNat) : [low,high].foldl update crc = 0 := by
  have htaken : AdjoinRoot.mk divisor (polynomial (Bytes.bits [low,high])) = residue crc := by
    rw [Bytes.bits_pair,h]
    rfl
  rw [← residue_eq_zero_iff,residue_foldl,htaken]
  calc unknown ^ 16 * residue crc + unknown ^ 16 * residue crc
      = unknown ^ 16 * residue (crc ^^^ crc) := by rw [residue_xor,mul_add]
    _ = 0 := by rw [UInt16.xor_self,residue_zero,mul_zero]

end Linear

/-- A checksum is the remainder of the bytes, sixteen powers up, with all ones in front of them.  So the
difference of the checksums of two byte strings of one length is computed from their difference alone, and
there is none exactly if the divisor divides that; and the checksum of a byte string with its checksum
behind it is zero. -/
theorem compute_remainder :
    (∀ bytes : Bytes, register (compute bytes) = (X ^ 16 * polynomial bytes.bits +
      X ^ (8 * bytes.length) * polynomial (List.replicate 16 true)) % divisor) ∧
    (∀ a b : Bytes, a.length = b.length →
      compute a ^^^ compute b = (List.zipWith (· ^^^ ·) a b).foldl update 0 ∧
      (compute a ^^^ compute b = 0 ↔
        divisor ∣ polynomial (Bytes.bits (List.zipWith (· ^^^ ·) a b)))) ∧
    ∀ bytes : Bytes, compute (bytes ++ Word.littleEndian 2 (compute bytes).toNat) = 0 := by
  refine ⟨fun bytes => register_eq_mod (residue_compute bytes),fun a b hlen => ?_,fun bytes => ?_⟩
  · exact ⟨compute_xor hlen,by rw [compute_xor hlen,foldl_update_eq_zero_iff]⟩
  · rw [compute_append]
    exact foldl_update_pair (Word.ofLittleEndian_littleEndian_toNat _)

/-- The divisor is the difference of these byte strings. -/
theorem compute_remainder_divisor :
    let a : Bytes := [1,2,3]
    let b : Bytes := [2,0x42,2]
    a.length = b.length ∧ List.zipWith (· ^^^ ·) a b = [3,0x40,1] ∧
      compute a ^^^ compute b = (List.zipWith (· ^^^ ·) a b).foldl update 0 ∧
      compute a = 0x6161 ∧ compute b = 0x6161 ∧
      divisor ∣ polynomial (Bytes.bits (List.zipWith (· ^^^ ·) a b)) := by
  intro a b
  have hlen : a.length = b.length := rfl
  have ha : compute a = 0x6161 := by decide +kernel
  have hb : compute b = 0x6161 := by decide +kernel
  obtain ⟨hxor,hzero⟩ := compute_remainder.2.1 a b hlen
  exact ⟨hlen,rfl,hxor,ha,hb,hzero.mp (by rw [ha,hb,UInt16.xor_self])⟩

end RemotePyMite.Checksum
