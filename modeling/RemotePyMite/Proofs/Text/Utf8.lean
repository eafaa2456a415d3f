import Mathlib.Data.Char
import RemotePyMite.Text.Utf8

/-! # Text is read back from its bytes

A character has one to four bytes.  The first of them tells how many there are, so a reader takes
exactly these and finds the character again.
-/
namespace RemotePyMite.Utf8
variable {a b low high : UInt8}

theorem between_iff : (low ≤ a && a ≤ high) = true ↔ low.toNat ≤ a.toNat ∧ a.toNat ≤ high.toNat := by
  simp [UInt8.le_iff_toNat_le]

theorem isTail_iff : isTail b = true ↔ 128 ≤ b.toNat ∧ b.toNat ≤ 191 :=
  between_iff

/-- What the second byte of a longer character must be, in numbers. -/
theorem isSecond_of_toNat (hb : isTail b = true) (hlow : a.toNat = 224 → 160 ≤ b.toNat)
    (hsurrogate : a.toNat = 237 → b.toNat ≤ 159) (hlong : a.toNat = 240 → 144 ≤ b.toNat)
    (hlast : a.toNat = 244 → b.toNat ≤ 143) : isSecond a b = true := by
  have ht := isTail_iff.mp hb
  unfold isSecond
  split
  · next h => exact between_iff.mpr ⟨hlow (congrArg UInt8.toNat h),ht.2⟩
  · split
    · next h => exact between_iff.mpr ⟨ht.1,hsurrogate (congrArg UInt8.toNat h)⟩
    · split
      · next h => exact between_iff.mpr ⟨hlong (congrArg UInt8.toNat h),ht.2⟩
      · split
        · next h => exact between_iff.mpr ⟨ht.1,hlast (congrArg UInt8.toNat h)⟩
        · exact hb

theorem tail_of_toNat {n : Nat} (h : b.toNat = n % 64 + 128) :
    isTail b = true ∧ tailBits b = n % 64 := by
  refine ⟨isTail_iff.mpr (by omega),?_⟩
  rw [tailBits,h]
  omega

theorem toNat_ofNat_toNat (b : UInt8) : (Char.ofNat b.toNat).toNat = b.toNat := by
  have hvalid : b.toNat.isValidChar := .inl (Nat.lt_trans b.toNat_lt (by decide))
  rw [Char.ofNat,dif_pos hvalid]
  rfl

variable {c : Char} {rest : Bytes}

theorem scan_one (hu : c.toNat ≤ 127) (ha : a.toNat = c.toNat) : scan a rest = (some c,0) := by
  have hone : a < 0x80 := by
    rw [UInt8.lt_iff_toNat_lt,ha]
    exact Nat.lt_succ_of_le hu
  simp only [scan,if_pos hone,ha,Char.ofNat_toNat]

theorem not_scan_one (h : 128 ≤ a.toNat) : ¬a < 0x80 := by
  rw [UInt8.lt_iff_toNat_lt]
  exact Nat.not_lt.mpr h

theorem scan_two (hl : 127 < c.toNat) (hu : c.toNat ≤ 2047) (ha : a.toNat = c.toNat / 64 % 32 + 192)
    (hb : b.toNat = c.toNat % 64 + 128) : scan a (b :: rest) = (some c,1) := by
  obtain ⟨htail,hbits⟩ := tail_of_toNat hb
  have hone := not_scan_one (a := a) (by omega)
  have htwo : (0xC2 ≤ a && a ≤ 0xDF) = true :=
    between_iff.mpr ⟨by change 194 ≤ _; omega,by change _ ≤ 223; omega⟩
  have hc : a.toNat % 32 * 64 + tailBits b = c.toNat := by omega
  simp only [scan,if_neg hone,htwo,htail,↓reduceIte,hc,Char.ofNat_toNat]

theorem scan_three {b' : UInt8} (hl : 2047 < c.toNat) (hu : c.toNat ≤ 65535)
    (ha : a.toNat = c.toNat / 4096 % 16 + 224) (hb : b.toNat = c.toNat / 64 % 64 + 128)
    (hb' : b'.toNat = c.toNat % 64 + 128) : scan a (b :: b' :: rest) = (some c,2) := by
  obtain ⟨htail,hbits⟩ := tail_of_toNat hb
  obtain ⟨htail',hbits'⟩ := tail_of_toNat hb'
  have hvalid : c.toNat < 55296 ∨ 57343 < c.toNat ∧ c.toNat < 1114112 := c.valid
  have hone := not_scan_one (a := a) (by omega)
  have htwo : (0xC2 ≤ a && a ≤ 0xDF) = false := by
    rw [Bool.eq_false_iff,ne_eq,between_iff]
    change ¬(194 ≤ _ ∧ _ ≤ 223)
    omega
  have hthree : (0xE0 ≤ a && a ≤ 0xEF) = true :=
    between_iff.mpr ⟨by change 224 ≤ _; omega,by change _ ≤ 239; omega⟩
  have hsecond : isSecond a b = true :=
    isSecond_of_toNat htail (by omega) (by omega) (by omega) (by omega)
  have hc : (a.toNat % 16 * 64 + tailBits b) * 64 + tailBits b' = c.toNat := by omega
  simp only [scan,if_neg hone,htwo,hthree,hsecond,htail',Bool.false_eq_true,Bool.not_true,
    ↓reduceIte,hc,Char.ofNat_toNat]

theorem scan_four {b' b'' : UInt8} (hl : 65535 < c.toNat)
    (ha : a.toNat = c.toNat / 262144 % 8 + 240) (hb : b.toNat = c.toNat / 4096 % 64 + 128)
    (hb' : b'.toNat = c.toNat / 64 % 64 + 128) (hb'' : b''.toNat = c.toNat % 64 + 128) :
    scan a (b :: b' :: b'' :: rest) = (some c,3) := by
  obtain ⟨htail,hbits⟩ := tail_of_toNat hb
  obtain ⟨htail',hbits'⟩ := tail_of_toNat hb'
  obtain ⟨htail'',hbits''⟩ := tail_of_toNat hb''
  have hvalid : c.toNat < 55296 ∨ 57343 < c.toNat ∧ c.toNat < 1114112 := c.valid
  have hone := not_scan_one (a := a) (by omega)
  have htwo : (0xC2 ≤ a && a ≤ 0xDF) = false := by
    rw [Bool.eq_false_iff,ne_eq,between_iff]
    change ¬(194 ≤ _ ∧ _ ≤ 223)
    omega
  have hthree : (0xE0 ≤ a && a ≤ 0xEF) = false := by
    rw [Bool.eq_false_iff,ne_eq,between_iff]
    change ¬(224 ≤ _ ∧ _ ≤ 239)
    omega
  have hfour : (0xF0 ≤ a && a ≤ 0xF4) = true :=
    between_iff.mpr ⟨by change 240 ≤ _; omega,by change _ ≤ 244; omega⟩
  have hsecond : isSecond a b = true :=
    isSecond_of_toNat htail (by omega) (by omega) (by omega) (by omega)
  have hc : ((a.toNat % 8 * 64 + tailBits b) * 64 + tailBits b') * 64 + tailBits b'' = c.toNat := by
    omega
  simp only [scan,if_neg hone,htwo,hthree,hfour,hsecond,htail',htail'',Bool.false_eq_true,
    Bool.not_true,↓reduceIte,hc,Char.ofNat_toNat]

theorem toNat_ofNat_of_lt {n : Nat} (h : n < 256) : (UInt8.ofNat n).toNat = n := by
  rw [UInt8.toNat_ofNat',Nat.mod_eq_of_lt h]

theorem decodeChars_utf8EncodeChar (c : Char) (rest : Bytes) :
    decodeChars (String.utf8EncodeChar c ++ rest) = c :: decodeChars rest := by
  have hc : c.val.toNat = c.toNat := rfl
  have hvalid : c.toNat < 55296 ∨ 57343 < c.toNat ∧ c.toNat < 1114112 := c.valid
  unfold String.utf8EncodeChar
  simp only [hc]
  split
  · rw [List.singleton_append,decodeChars,scan_one (c := c) (by omega) (toNat_ofNat_of_lt (by omega))]
    rfl
  · split
    · rw [List.cons_append,List.singleton_append,decodeChars,
        scan_two (c := c) (by omega) (by omega) (toNat_ofNat_of_lt (by omega))
          (toNat_ofNat_of_lt (by omega))]
      rfl
    · split
      · rw [List.cons_append,List.cons_append,List.singleton_append,decodeChars,
          scan_three (c := c) (by omega) (by omega) (toNat_ofNat_of_lt (by omega))
            (toNat_ofNat_of_lt (by omega)) (toNat_ofNat_of_lt (by omega))]
        rfl
      · rw [List.cons_append,List.cons_append,List.cons_append,List.singleton_append,decodeChars,
          scan_four (c := c) (by omega) (toNat_ofNat_of_lt (by omega))
            (toNat_ofNat_of_lt (by omega)) (toNat_ofNat_of_lt (by omega))
            (toNat_ofNat_of_lt (by omega))]
        rfl

theorem decodeChars_flatMap (cs : List Char) :
    decodeChars (cs.flatMap String.utf8EncodeChar) = cs := by
  induction cs with
  | nil => simp [decodeChars]
  | cons c rest ih => rw [List.flatMap_cons,decodeChars_utf8EncodeChar,ih]

theorem decode_encode_self (text : String) : decode (encode text) = text := by
  rw [decode,encode,decodeChars_flatMap,String.ofList_toList]

/-- The bytes of a text hold an ASCII byte only where the text holds its character. -/
theorem mem_encode_of_lt {text : String} (hb : b.toNat < 128) (h : b ∈ encode text) :
    Char.ofNat b.toNat ∈ text.toList := by
  obtain ⟨c,hc,hbc⟩ := List.mem_flatMap.mp h
  suffices hv : c.toNat = b.toNat by rwa [← hv,Char.ofNat_toNat]
  have hval : c.val.toNat = c.toNat := rfl
  unfold String.utf8EncodeChar at hbc
  simp only [hval] at hbc
  split at hbc
  · rw [List.mem_singleton.mp hbc,toNat_ofNat_of_lt (by omega)]
  · exfalso
    split at hbc
    · simp only [List.mem_cons,List.not_mem_nil,or_false] at hbc
      rcases hbc with rfl | rfl <;> rw [UInt8.toNat_ofNat'] at hb <;> omega
    · split at hbc <;> simp only [List.mem_cons,List.not_mem_nil,or_false] at hbc
      · rcases hbc with rfl | rfl | rfl <;> rw [UInt8.toNat_ofNat'] at hb <;> omega
      · rcases hbc with rfl | rfl | rfl | rfl <;> rw [UInt8.toNat_ofNat'] at hb <;> omega

end RemotePyMite.Utf8
