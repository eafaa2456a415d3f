import Mathlib.Algebra.CharP.Two
import Mathlib.Algebra.Field.ZMod
import Mathlib.RingTheory.AdjoinRoot
import RemotePyMite.Checksum

/-! # The checksum as division of polynomials

A row of bits stands for a polynomial over the field of two elements, its first bit for the
highest power.  Modulo `x ^ 16 + x ^ 15 + x ^ 2 + 1`, one shift of the register multiplies it by
`x` (`residue_shift`), and a byte string puts its own polynomial, times `x ^ 16`, behind what
was in the register (`residue_foldl`).
-/
namespace RemotePyMite
open Polynomial

/-- The low `width` bits of `n`, lowest first. -/
def Word.bits : Nat → Nat → List Bool
  | 0, _ => []
  | width + 1, n => n.testBit 0 :: bits width (n / 2)

/-- The bits of a byte string in the order in which a link carries them. -/
def Bytes.bits (bytes : Bytes) : List Bool :=
  bytes.flatMap fun b => Word.bits 8 b.toNat

namespace Word

@[simp] theorem length_bits (width n : Nat) : (bits width n).length = width := by
  induction width generalizing n with
  | zero => rfl
  | succ width ih => rw [bits,List.length_cons,ih]

theorem bits_zero (width : Nat) : bits width 0 = List.replicate width false := by
  induction width with
  | zero => rfl
  | succ width ih => rw [bits,Nat.zero_div,ih,List.replicate_succ,Nat.zero_testBit]

theorem bits_add (a b n : Nat) : bits (a + b) n = bits a n ++ bits b (n / 2 ^ a) := by
  induction a generalizing n with
  | zero => simp [bits]
  | succ a ih =>
    rw [Nat.succ_add,bits,bits,ih,Nat.div_div_eq_div_mul,Nat.pow_succ',List.cons_append]

theorem bits_add_mul (width a b : Nat) : bits width (a + 2 ^ width * b) = bits width a := by
  induction width generalizing a with
  | zero => rfl
  | succ width ih =>
    have hbit : (a + 2 ^ (width + 1) * b).testBit 0 = a.testBit 0 := by
      rw [Nat.testBit_zero,Nat.testBit_zero,Nat.pow_succ',Nat.mul_assoc,Nat.add_mul_mod_self_left]
    have hhalf : (a + 2 ^ (width + 1) * b) / 2 = a / 2 + 2 ^ width * b := by
      rw [Nat.pow_succ',Nat.mul_assoc,Nat.add_mul_div_left _ _ (by decide)]
    rw [bits,bits,hbit,hhalf,ih]

theorem bits_xor (width a b : Nat) :
    bits width (a ^^^ b) = List.zipWith xor (bits width a) (bits width b) := by
  induction width generalizing a b with
  | zero => rfl
  | succ width ih =>
    rw [bits,bits,bits,Nat.xor_div_two,ih,Nat.testBit_xor,List.zipWith_cons_cons]

theorem eq_of_bits_eq {width a b : Nat} (ha : a < 2 ^ width) (hb : b < 2 ^ width)
    (h : bits width a = bits width b) : a = b := by
  induction width generalizing a b with
  | zero => omega
  | succ width ih =>
    rw [bits,bits,List.cons.injEq,Nat.testBit_zero,Nat.testBit_zero] at h
    rw [Nat.pow_succ'] at ha hb
    have hhalf : a / 2 = b / 2 := ih (by omega) (by omega) h.2
    have hlow : a % 2 = 1 ↔ b % 2 = 1 := by simpa using h.1
    omega

end Word

namespace Bytes

@[simp] theorem bits_nil : bits [] = [] := rfl

@[simp] theorem bits_cons (b : UInt8) (rest : Bytes) :
    bits (b :: rest) = Word.bits 8 b.toNat ++ bits rest := rfl

@[simp] theorem bits_append (a b : Bytes) : bits (a ++ b) = bits a ++ bits b :=
  List.flatMap_append

@[simp] theorem length_bits (bytes : Bytes) : bytes.bits.length = 8 * bytes.length := by
  induction bytes with
  | nil => rfl
  | cons b rest ih =>
    rw [bits_cons,List.length_append,Word.length_bits,ih,List.length_cons]
    omega

theorem bits_zipWith_xor (a b : Bytes) :
    bits (List.zipWith (· ^^^ ·) a b) = List.zipWith xor a.bits b.bits := by
  induction a generalizing b with
  | nil => simp
  | cons x a ih =>
    cases b with
    | nil => simp
    | cons y b =>
      rw [List.zipWith_cons_cons,bits_cons,bits_cons,bits_cons,ih,UInt8.toNat_xor,Word.bits_xor,
        List.zipWith_append (by simp)]

/-- A word behind a byte string, low byte first, goes on with the bits of the word. -/
theorem bits_pair (low high : UInt8) :
    bits [low,high] = Word.bits 16 (Word.ofLittleEndian [low,high]) := by
  have hlow := low.toNat_lt
  have hdiv : (low.toNat + 2 ^ 8 * high.toNat) / 2 ^ 8 = high.toNat := by omega
  have hword : Word.ofLittleEndian [low,high] = low.toNat + 2 ^ 8 * high.toNat := by
    simp [Word.ofLittleEndian]
  rw [hword,Word.bits_add 8 8,hdiv,Word.bits_add_mul,bits_cons,bits_cons,bits_nil,List.append_nil]

end Bytes

namespace Checksum

/-- The polynomial of a row of bits, the first bit being the coefficient of the highest power. -/
noncomputable def polynomial : List Bool → (ZMod 2)[X]
  | [] => 0
  | b :: bits => (if b then X ^ bits.length else 0) + polynomial bits

theorem polynomial_append (a b : List Bool) :
    polynomial (a ++ b) = X ^ b.length * polynomial a + polynomial b := by
  induction a with
  | nil => simp [polynomial]
  | cons x a ih =>
    rw [List.cons_append,polynomial,polynomial,ih,List.length_append,mul_add,add_assoc]
    cases x <;> simp [pow_add,mul_comm]

@[simp] theorem polynomial_replicate_false (n : Nat) :
    polynomial (List.replicate n false) = 0 := by
  induction n with
  | zero => rfl
  | succ n ih => simp [List.replicate_succ,polynomial,ih]

theorem polynomial_zipWith_xor {a b : List Bool} (h : a.length = b.length) :
    polynomial (List.zipWith xor a b) = polynomial a + polynomial b := by
  induction a generalizing b with
  | nil =>
    cases b with
    | nil => simp [polynomial]
    | cons y b => cases h
  | cons x a ih =>
    cases b with
    | nil => cases h
    | cons y b =>
      rw [List.length_cons,List.length_cons,Nat.succ.injEq] at h
      rw [List.zipWith_cons_cons,polynomial,polynomial,polynomial,ih h,List.length_zipWith,h,
        Nat.min_self]
      cases x <;> cases y <;> simp [add_assoc,add_left_comm]
      rw [← add_assoc (X ^ b.length),CharTwo.add_self_eq_zero,zero_add]

theorem degree_polynomial_lt (bits : List Bool) : (polynomial bits).degree < bits.length := by
  induction bits with
  | nil => simp [polynomial]
  | cons b bits ih =>
    have hlt : (bits.length : WithBot Nat) < (b :: bits).length := by
      exact_mod_cast Nat.lt_succ_self _
    refine (degree_add_le _ _).trans_lt (max_lt ?_ (ih.trans hlt))
    cases b with
    | false => simp
    | true => simpa using hlt

/-- Only a row without a set bit stands for the zero polynomial. -/
theorem polynomial_eq_zero_iff (bits : List Bool) : polynomial bits = 0 ↔ true ∉ bits := by
  induction bits with
  | nil => simp [polynomial]
  | cons b bits ih =>
    cases b with
    | false => simp [polynomial,ih]
    | true =>
      have hne : polynomial (true :: bits) ≠ 0 := by
        intro h
        have hx : (X ^ bits.length : (ZMod 2)[X]) = polynomial bits := by
          simp only [polynomial,if_true] at h
          rwa [CharTwo.add_eq_zero] at h
        have hdeg := degree_polynomial_lt bits
        rw [← hx,degree_X_pow] at hdeg
        exact lt_irrefl _ hdeg
      simp [hne]

theorem polynomial_injective {a b : List Bool} (hlen : a.length = b.length)
    (h : polynomial a = polynomial b) : a = b := by
  have hxor : true ∉ List.zipWith xor a b := by
    rw [← polynomial_eq_zero_iff,polynomial_zipWith_xor hlen,h,CharTwo.add_self_eq_zero]
  clear h
  induction a generalizing b with
  | nil => exact (List.eq_nil_of_length_eq_zero hlen.symm).symm
  | cons x a ih =>
    cases b with
    | nil => cases hlen
    | cons y b =>
      rw [List.length_cons,List.length_cons,Nat.succ.injEq] at hlen
      rw [List.zipWith_cons_cons,List.mem_cons,not_or] at hxor
      rw [ih hlen hxor.2,show x = y by simpa using hxor.1]

/-- The modulus of the check. -/
noncomputable def divisor : (ZMod 2)[X] := X ^ 16 + X ^ 15 + X ^ 2 + 1

/-- The polynomial in the register. -/
noncomputable def register (crc : UInt16) : (ZMod 2)[X] :=
  polynomial (Word.bits 16 crc.toNat)

theorem degree_register_lt (crc : UInt16) : (register crc).degree < 16 := by
  have hlt := degree_polynomial_lt (Word.bits 16 crc.toNat)
  rwa [Word.length_bits] at hlt

theorem register_xor (a b : UInt16) : register (a ^^^ b) = register a + register b := by
  rw [register,UInt16.toNat_xor,Word.bits_xor,polynomial_zipWith_xor (by simp)]
  rfl

theorem register_zero : register 0 = 0 :=
  (polynomial_eq_zero_iff _).mpr (by decide)

theorem register_generator : register generator = X ^ 15 + X ^ 2 + 1 := by
  have hbits : Word.bits 16 generator.toNat = [true,false,false,false,false,false,false,false,
      false,false,false,false,false,true,false,true] := by decide
  rw [register,hbits]
  simp [polynomial,add_assoc]

/-- A shift to the right multiplies by the unknown, but for the bit that falls out. -/
theorem X_mul_register (crc : UInt16) :
    X * register crc =
      register (crc >>> 1) + if crc.toNat.testBit 0 then X ^ 16 else 0 := by
  have hcrc := crc.toNat_lt
  have hshift : (crc >>> 1).toNat = crc.toNat / 2 := by
    rw [UInt16.toNat_shiftRight]
    exact Nat.shiftRight_eq_div_pow _ _
  have hlast : Word.bits 1 (crc.toNat / 2 / 2 ^ 15) = [false] := by
    rw [Nat.div_div_eq_div_mul,Nat.div_eq_of_lt (by omega)]
    rfl
  rw [register,register,hshift,Word.bits,polynomial,Word.bits_add 15 1,hlast,polynomial_append,
    Word.length_bits]
  split <;> simp [polynomial,mul_add,pow_succ',add_comm]

theorem shift_eq (crc : UInt16) :
    shift crc = (crc >>> 1) ^^^ if crc.toNat.testBit 0 then generator else 0 := by
  have hbit : crc &&& 1 = 1 ↔ crc.toNat.testBit 0 = true := by
    rw [← UInt16.toNat_inj,UInt16.toNat_and,Nat.testBit_zero,decide_eq_true_iff]
    exact iff_of_eq (congrArg (· = 1) (Nat.and_one_is_mod _))
  unfold shift
  by_cases h : crc &&& 1 = 1
  · rw [if_pos h,if_pos (hbit.mp h)]
  · rw [if_neg h,if_neg (mt hbit.mpr h),UInt16.xor_zero]

/-- What is in the register, modulo the divisor. -/
noncomputable def residue (crc : UInt16) : AdjoinRoot divisor :=
  AdjoinRoot.mk divisor (register crc)

/-- The unknown, modulo the divisor. -/
noncomputable def unknown : AdjoinRoot divisor := AdjoinRoot.root divisor

theorem mk_X_pow_mul (n : Nat) (p : (ZMod 2)[X]) :
    AdjoinRoot.mk divisor (X ^ n * p) = unknown ^ n * AdjoinRoot.mk divisor p := by
  rw [map_mul,map_pow,AdjoinRoot.mk_X]
  rfl

theorem mk_X_pow_sixteen :
    AdjoinRoot.mk divisor (X ^ 16) = AdjoinRoot.mk divisor (X ^ 15 + X ^ 2 + 1) := by
  have hsum : X ^ 16 - (X ^ 15 + X ^ 2 + 1) = divisor := by
    rw [CharTwo.sub_eq_add,divisor]
    simp only [add_assoc]
  exact AdjoinRoot.mk_eq_mk.mpr (dvd_of_eq hsum.symm)

theorem residue_xor (a b : UInt16) : residue (a ^^^ b) = residue a + residue b := by
  rw [residue,register_xor,map_add]
  rfl

/-- One shift of the register multiplies by the unknown. -/
theorem residue_shift (crc : UInt16) : residue (shift crc) = unknown * residue crc := by
  have hx : unknown * residue crc = AdjoinRoot.mk divisor (X * register crc) := by
    rw [map_mul,AdjoinRoot.mk_X]
    rfl
  rw [hx,X_mul_register,map_add,residue,shift_eq,register_xor,map_add]
  split
  · rw [register_generator,mk_X_pow_sixteen]
  · rw [register_zero,map_zero]

theorem residue_shifts (n : Nat) (crc : UInt16) :
    residue (shifts n crc) = unknown ^ n * residue crc := by
  induction n generalizing crc with
  | zero => rw [shifts,pow_zero,one_mul]
  | succ n ih => rw [shifts,ih,residue_shift,pow_succ,mul_assoc]

theorem degree_divisor : divisor.degree = 16 := by
  unfold divisor
  compute_degree!

/-- A register holds the remainder of its residue. -/
theorem residue_injective : Function.Injective residue := by
  intro a b h
  have hdvd : divisor ∣ register a - register b := AdjoinRoot.mk_eq_mk.mp h
  have hzero : register a - register b = 0 := by
    refine eq_zero_of_dvd_of_degree_lt hdvd ?_
    rw [CharTwo.sub_eq_add,← register_xor,degree_divisor]
    exact degree_register_lt _
  have hbits : Word.bits 16 a.toNat = Word.bits 16 b.toNat :=
    polynomial_injective (by simp) (sub_eq_zero.mp hzero)
  exact UInt16.toNat_inj.mp (Word.eq_of_bits_eq a.toNat_lt b.toNat_lt hbits)

theorem residue_update (crc : UInt16) (b : UInt8) :
    residue (update crc b) = unknown ^ 8 * residue crc +
      unknown ^ 16 * AdjoinRoot.mk divisor (polynomial (Word.bits 8 b.toNat)) := by
  have hb : residue b.toUInt16 =
      unknown ^ 8 * AdjoinRoot.mk divisor (polynomial (Word.bits 8 b.toNat)) := by
    have hhigh : b.toNat / 2 ^ 8 = 0 := Nat.div_eq_of_lt b.toNat_lt
    rw [residue,register,UInt8.toNat_toUInt16,Word.bits_add 8 8,hhigh,Word.bits_zero,
      polynomial_append,polynomial_replicate_false,add_zero,List.length_replicate,mk_X_pow_mul]
  rw [update,residue_shifts,residue_xor,hb]
  ring

/-- A byte string puts its own polynomial behind what was in the register. -/
theorem residue_foldl (bytes : Bytes) (crc : UInt16) :
    residue (bytes.foldl update crc) = unknown ^ (8 * bytes.length) * residue crc +
      unknown ^ 16 * AdjoinRoot.mk divisor (polynomial bytes.bits) := by
  induction bytes generalizing crc with
  | nil => simp [polynomial]
  | cons b rest ih =>
    rw [List.foldl_cons,ih,residue_update,Bytes.bits_cons,polynomial_append,map_add,mk_X_pow_mul,
      List.length_cons,Bytes.length_bits]
    ring

end Checksum

end RemotePyMite
