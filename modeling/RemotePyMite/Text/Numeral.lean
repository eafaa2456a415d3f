import RemotePyMite.Bytes

/-! # Numerals

Decimal and hexadecimal numerals, written and read.  A decimal numeral has no
leading zero, so it is the only one of its number.
-/
namespace RemotePyMite.Numeral

/-- The decimal digit of `d`, for `d` below ten. -/
def digit (d : Nat) : Char :=
  Char.ofNat (48 + d)

/-- The decimal numeral of `n`, without leading zeros. -/
def decimal (n : Nat) : List Char :=
  if n < 10 then [digit n] else decimal (n / 10) ++ [digit (n % 10)]
termination_by n
decreasing_by omega

/-- The decimal numeral of an integer; a negative one carries a minus sign. -/
def integer (i : Int) : List Char :=
  if i < 0 then '-' :: decimal i.natAbs else decimal i.natAbs

/-- The number a row of decimal digits denotes, leading zeros allowed. -/
def value (digits : List Char) : Nat :=
  digits.foldl (fun n c => 10 * n + (c.toNat - 48)) 0

/-- The number a row of decimal digits denotes behind those of `n`, unless it is above
`max`; the first digit that takes it there ends the reading. -/
def upTo? (max n : Nat) (digits : List Char) : Option Nat :=
  digits.foldlM (fun n c =>
    if 10 * n + (c.toNat - 48) ≤ max then some (10 * n + (c.toNat - 48)) else none) n

/-- More digits make no smaller number. -/
theorem le_foldl (n : Nat) (digits : List Char) :
    n ≤ digits.foldl (fun n c => 10 * n + (c.toNat - 48)) n := by
  induction digits generalizing n with
  | nil => exact Nat.le_refl n
  | cons c rest ih =>
    rw [List.foldl_cons]
    exact Nat.le_trans (show n ≤ 10 * n + (c.toNat - 48) by omega) (ih _)

/-- The early end changes nothing. -/
theorem upTo?_eq {max n : Nat} (h : n ≤ max) (digits : List Char) :
    upTo? max n digits =
      let m := digits.foldl (fun n c => 10 * n + (c.toNat - 48)) n
      if m ≤ max then some m else none := by
  induction digits generalizing n with
  | nil => simp [upTo?, h]
  | cons c rest ih =>
    rw [upTo?, List.foldlM_cons]
    split
    · rename_i hle
      exact ih hle
    · rename_i hgt
      have hfold := le_foldl (10 * n + (c.toNat - 48)) rest
      rw [List.foldl_cons]
      dsimp only
      rw [if_neg (by omega)]
      rfl

/-- The number a nonempty row of decimal digits denotes, if it is at most `max`. -/
def read? (max : Nat) (digits : List Char) : Option Nat :=
  if digits.isEmpty || digits.any (fun c => !c.isDigit) then none else upTo? max 0 digits

/-- What is read is the number that the digits denote. -/
theorem read?_eq (max : Nat) (digits : List Char) :
    read? max digits =
      if digits.isEmpty || digits.any (fun c => !c.isDigit) then none
      else if value digits ≤ max then some (value digits) else none := by
  rw [read?, upTo?_eq (Nat.zero_le max)]
  rfl

theorem toNat_digit : ∀ {d : Nat}, d < 10 → (digit d).toNat = 48 + d := by
  decide

theorem isDigit_digit : ∀ {d : Nat}, d < 10 → (digit d).isDigit = true := by
  decide

theorem isDigit_of_mem_decimal {n : Nat} {c : Char} (h : c ∈ decimal n) : c.isDigit = true := by
  fun_induction decimal n with
  | case1 n hn => rw [List.mem_singleton.mp h]; exact isDigit_digit hn
  | case2 n hn ih =>
    rcases List.mem_append.mp h with h | h
    · exact ih h
    · rw [List.mem_singleton.mp h]
      exact isDigit_digit (Nat.mod_lt n (by omega))

/-- A decimal numeral denotes its number. -/
theorem value_decimal (n : Nat) : value (decimal n) = n := by
  fun_induction decimal n with
  | case1 n hn => simp [value, toNat_digit hn]
  | case2 n hn ih =>
    have hd := toNat_digit (Nat.mod_lt n (show 10 > 0 by omega))
    unfold value at ih ⊢
    rw [List.foldl_append, ih, List.foldl_cons, List.foldl_nil, hd]
    omega

theorem decimal_ne_nil (n : Nat) : decimal n ≠ [] := by
  unfold decimal
  split <;> simp

/-- The number an argument denotes: digits after an optional plus sign, at most `max`. -/
def argument? (max : Nat) : List Char → Option Nat
  | '+' :: digits => read? max digits
  | digits => read? max digits

/-- As `argument?`, but a zero may carry a minus sign too. -/
def signedArgument? (max : Nat) : List Char → Option Nat
  | '-' :: digits => read? 0 digits
  | text => argument? max text

/-- The lower case hexadecimal digit of `d`, for `d` below sixteen. -/
def hexDigit (d : Nat) : Char :=
  if d < 10 then Char.ofNat (48 + d) else Char.ofNat (87 + d)

/-- The upper case hexadecimal digit of `d`, for `d` below sixteen. -/
def upperHexDigit (d : Nat) : Char :=
  if d < 10 then Char.ofNat (48 + d) else Char.ofNat (55 + d)

/-- The two lower case hexadecimal digits of a byte. -/
def hexByte (b : UInt8) : List Char :=
  [hexDigit (b.toNat / 16), hexDigit (b.toNat % 16)]

/-- The two upper case hexadecimal digits of a byte. -/
def upperHexByte (b : UInt8) : List Char :=
  [upperHexDigit (b.toNat / 16), upperHexDigit (b.toNat % 16)]

/-- The last `width` upper case hexadecimal digits of `n`. -/
def upperHex : Nat → Nat → List Char
  | 0, _ => []
  | width + 1, n => upperHex width (n / 16) ++ [upperHexDigit (n % 16)]

/-- How many hexadecimal digits the numeral of `n` has without leading zeros. -/
def hexLength (n : Nat) : Nat :=
  if n < 16 then 1 else hexLength (n / 16) + 1
termination_by n
decreasing_by omega

/-- The bytes in upper case hexadecimal, a blank between any two. -/
def hexdump (bytes : Bytes) : String :=
  String.ofList (List.intercalate [' '] (bytes.map upperHexByte))

/-- A number at the prompt of a machine word: `width` bytes, at least one and at most
eight of them written, more digits only where the number needs them. -/
def address (n : UInt64) (width : Nat) : String :=
  let digits := max (2 * min 8 (max 1 width)) (hexLength n.toNat)
  "0x" ++ String.ofList (upperHex digits n.toNat)

end RemotePyMite.Numeral
