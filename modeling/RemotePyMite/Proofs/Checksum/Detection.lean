import Mathlib.Algebra.Ring.Parity
import RemotePyMite.Proofs.Checksum.Remainder

/-! # Which differences the checksum shows

Two byte strings of one length that both end in their checksum differ by a multiple of the
divisor (`divisor_dvd_of_holds`).  The divisor has `x + 1` as a factor, so it divides no polynomial
with an odd number of terms; `x` is invertible modulo it and has an order beyond the bits of a
frame, so it divides no polynomial with two terms; and it has degree sixteen, so it divides no
polynomial whose terms lie within sixteen powers of each other.
-/
namespace RemotePyMite.Checksum
open Polynomial

/-- A byte string ends in the checksum of what is in front of it. -/
def Holds (bytes : Bytes) : Prop :=
  Word.ofLittleEndian (bytes.drop (bytes.length - 2)) =
    (compute (bytes.take (bytes.length - 2))).toNat

theorem holds_append_pair (body : Bytes) (low high : UInt8) :
    Holds (body ++ [low,high]) ↔ Word.ofLittleEndian [low,high] = (compute body).toNat := by
  have hl : (body ++ [low,high]).length - 2 = body.length := by simp
  rw [Holds,hl,List.drop_left,List.take_left]

theorem exists_pair {bytes : Bytes} (hlen : 2 ≤ bytes.length) :
    ∃ (body : Bytes) (low high : UInt8), bytes = body ++ [low,high] := by
  have hend : (bytes.drop (bytes.length - 2)).length = 2 := by
    rw [List.length_drop]
    omega
  obtain ⟨low,high,hd⟩ := List.length_eq_two.mp hend
  exact ⟨bytes.take (bytes.length - 2),low,high,by rw [← hd,List.take_append_drop]⟩

theorem compute_of_holds {bytes : Bytes} (hlen : 2 ≤ bytes.length) (h : Holds bytes) :
    compute bytes = 0 := by
  obtain ⟨body,low,high,rfl⟩ := exists_pair hlen
  rw [compute_append]
  exact foldl_update_pair ((holds_append_pair body low high).mp h)

theorem divisor_dvd_of_holds {a b : Bytes} (hlen : a.length = b.length) (htwo : 2 ≤ a.length)
    (ha : Holds a) (hb : Holds b) :
    divisor ∣ polynomial (List.zipWith xor a.bits b.bits) := by
  rw [← Bytes.bits_zipWith_xor,← foldl_update_eq_zero_iff,← compute_xor hlen,
    compute_of_holds htwo ha,compute_of_holds (hlen ▸ htwo) hb,UInt16.xor_self]

section Odd

theorem eval_one_divisor : divisor.eval 1 = 0 := by
  rw [divisor]
  simp only [eval_add,eval_pow,eval_X,eval_one,one_pow]
  decide

theorem eval_one_polynomial (bits : List Bool) :
    (polynomial bits).eval 1 = (bits.count true : ZMod 2) := by
  induction bits with
  | nil => simp [polynomial]
  | cons b bits ih => cases b <;> simp [polynomial,ih,add_comm]

theorem not_dvd_of_odd {bits : List Bool} (h : Odd (bits.count true)) :
    ¬divisor ∣ polynomial bits := by
  rintro ⟨q,hq⟩
  have hzero : (bits.count true : ZMod 2) = 0 := by
    rw [← eval_one_polynomial,hq,eval_mul,eval_one_divisor,zero_mul]
  rw [ZMod.natCast_eq_zero_iff_even] at hzero
  exact Nat.not_even_iff_odd.mpr h hzero

end Odd

section Two

/-- Whether the next `n` shifts keep the register away from `crc`. -/
def avoids (crc : UInt16) : Nat → UInt16 → Bool
  | 0, _ => true
  | n + 1, now => shift now != crc && avoids crc n (shift now)

theorem shifts_ne_of_avoids {crc now : UInt16} {n d : Nat} (h : avoids crc n now = true)
    (hpos : 0 < d) (hd : d ≤ n) : shifts d now ≠ crc := by
  induction n generalizing d now with
  | zero => omega
  | succ n ih =>
    simp only [avoids,Bool.and_eq_true,bne_iff_ne] at h
    obtain ⟨d,rfl⟩ := Nat.exists_eq_succ_of_ne_zero hpos.ne'
    cases d with
    | zero => exact h.1
    | succ d =>
      change shifts (d + 1) (shift now) ≠ crc
      exact ih h.2 (Nat.succ_pos d) (Nat.le_of_succ_le_succ hd)

/-- The register in which the unknown has the power zero. -/
def one : UInt16 := 0x8000

/-- The bits of the longest frame. -/
def maxBits : Nat := 2088

theorem avoids_one : avoids one maxBits one = true := by decide +kernel

theorem unknown_pow_ne_one {d : Nat} (hpos : 0 < d) (hd : d ≤ maxBits) : unknown ^ d ≠ 1 := by
  intro h
  have hres : residue (shifts d one) = residue one := by
    rw [residue_shifts,h,one_mul]
  exact shifts_ne_of_avoids avoids_one hpos hd (residue_injective hres)

theorem exists_of_count_succ {bits : List Bool} {n : Nat} (h : bits.count true = n + 1) :
    ∃ m rest, bits = List.replicate m false ++ true :: rest ∧ rest.count true = n := by
  induction bits with
  | nil => cases h
  | cons b bits ih =>
    cases b with
    | true => exact ⟨0,bits,rfl,by simpa using h⟩
    | false =>
      obtain ⟨m,rest,rfl,hrest⟩ := ih (by simpa using h)
      exact ⟨m + 1,rest,by simp [List.replicate_succ],hrest⟩

theorem polynomial_replicate_append (m : Nat) (rest : List Bool) :
    polynomial (List.replicate m false ++ true :: rest) = X ^ rest.length + polynomial rest := by
  rw [polynomial_append,polynomial_replicate_false,mul_zero,zero_add]
  rfl

theorem not_dvd_of_two {bits : List Bool} (hlen : bits.length ≤ maxBits)
    (h : bits.count true = 2) : ¬divisor ∣ polynomial bits := by
  intro hdvd
  obtain ⟨a,rest,rfl,hone⟩ := exists_of_count_succ h
  obtain ⟨b,last,rfl,hzero⟩ := exists_of_count_succ hone
  have hlast : polynomial last = 0 := by
    rw [polynomial_eq_zero_iff]
    exact List.count_eq_zero.mp hzero
  have hsplit : polynomial (List.replicate a false ++ true :: (List.replicate b false ++ true :: last)) =
      X ^ last.length * (X ^ (b + 1) - 1) := by
    rw [polynomial_replicate_append,polynomial_replicate_append,hlast,add_zero,CharTwo.sub_eq_add]
    simp only [List.length_append,List.length_replicate,List.length_cons]
    ring
  rw [hsplit] at hdvd
  have hpow : AdjoinRoot.mk divisor (X ^ (b + 1)) = AdjoinRoot.mk divisor 1 :=
    AdjoinRoot.mk_eq_mk.mpr (dvd_of_dvd_X_pow_mul hdvd)
  rw [map_pow,AdjoinRoot.mk_X,map_one] at hpow
  simp only [List.length_append,List.length_replicate,List.length_cons] at hlen
  exact unknown_pow_ne_one (Nat.succ_pos b) (by omega) hpow

end Two

section Window

/-- All set bits lie among sixteen that follow one another. -/
def WithinWindow (bits : List Bool) : Prop :=
  ∃ start, ∀ i, bits[i]? = some true → start ≤ i ∧ i < start + 16

theorem exists_window {bits : List Bool} (hset : true ∈ bits) (h : WithinWindow bits) :
    ∃ front window back, bits = front ++ (window ++ back) ∧ window.length ≤ 16 ∧
      true ∉ front ∧ true ∈ window ∧ true ∉ back := by
  obtain ⟨start,hstart⟩ := h
  have hbits : bits = bits.take start ++ ((bits.drop start).take 16 ++ (bits.drop start).drop 16) := by
    rw [List.take_append_drop,List.take_append_drop]
  have hfront : true ∉ bits.take start := by
    intro hmem
    obtain ⟨i,hi⟩ := List.mem_iff_getElem?.mp hmem
    rw [List.getElem?_take] at hi
    split at hi
    · have := hstart i hi
      omega
    · cases hi
  have hback : true ∉ (bits.drop start).drop 16 := by
    intro hmem
    obtain ⟨i,hi⟩ := List.mem_iff_getElem?.mp hmem
    rw [List.getElem?_drop,List.getElem?_drop] at hi
    have := hstart _ hi
    omega
  have hwindow : true ∈ (bits.drop start).take 16 := by
    rw [hbits,List.mem_append,List.mem_append] at hset
    exact (hset.resolve_left hfront).resolve_right hback
  exact ⟨_,_,_,hbits,List.length_take_le _ _,hfront,hwindow,hback⟩

theorem not_dvd_of_within {bits : List Bool} (hset : true ∈ bits) (h : WithinWindow bits) :
    ¬divisor ∣ polynomial bits := by
  obtain ⟨front,window,back,rfl,hlen,hfront,hwindow,hback⟩ := exists_window hset h
  have hne : polynomial window ≠ 0 := by
    rw [Ne,polynomial_eq_zero_iff,not_not]
    exact hwindow
  have hdeg : (polynomial window).degree < divisor.degree := by
    rw [degree_divisor]
    exact (degree_polynomial_lt window).trans_le (by exact_mod_cast hlen)
  rw [← polynomial_eq_zero_iff] at hfront hback
  rw [polynomial_append,polynomial_append,hfront,hback,mul_zero,zero_add,add_zero]
  exact fun hdvd => hne (eq_zero_of_dvd_of_degree_lt (dvd_of_dvd_X_pow_mul hdvd) hdeg)

end Window

/-- The patterns of flipped bits that a checksum is made to show. -/
def Detectable (bits : List Bool) : Prop :=
  Odd (bits.count true) ∨ bits.count true = 2 ∨ true ∈ bits ∧ WithinWindow bits

theorem not_dvd_of_detectable {bits : List Bool} (hlen : bits.length ≤ maxBits)
    (h : Detectable bits) : ¬divisor ∣ polynomial bits := by
  rcases h with hodd | htwo | ⟨hset,hwindow⟩
  · exact not_dvd_of_odd hodd
  · exact not_dvd_of_two hlen htwo
  · exact not_dvd_of_within hset hwindow

end RemotePyMite.Checksum
