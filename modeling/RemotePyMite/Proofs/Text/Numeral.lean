import RemotePyMite.Text.Numeral

/-! # Numerals in a text

A numeral ends where its digits end.  So if no digit stands behind it, the numeral in front of a text says
its number and what follows it (`integer_append_inj`).
-/
namespace RemotePyMite.Numeral

theorem isDigit_iff {c : Char} : c.isDigit = true ↔ 48 ≤ c.toNat ∧ c.toNat ≤ 57 := by
  rw [Char.isDigit,Bool.and_eq_true,decide_eq_true_eq,decide_eq_true_eq,ge_iff_le,
    UInt32.le_iff_toNat_le,UInt32.le_iff_toNat_le]
  rfl

/-- No numeral goes on in this text. -/
def Stops (rest : List Char) : Prop :=
  ∀ c ∈ rest.head?, c.isDigit = false

theorem stops_cons {c : Char} (h : c.isDigit = false) (rest : List Char) : Stops (c :: rest) := by
  intro d hd
  rw [List.head?_cons,Option.mem_some_iff] at hd
  rwa [← hd]

theorem takeWhile_decimal (n : Nat) {rest : List Char} (h : Stops rest) :
    (decimal n ++ rest).takeWhile Char.isDigit = decimal n := by
  have hrest : rest.takeWhile Char.isDigit = [] := by
    cases rest with
    | nil => rfl
    | cons c rest => rw [List.takeWhile_cons,h c rfl,if_neg (by decide)]
  rw [List.takeWhile_append_of_pos fun c => isDigit_of_mem_decimal,hrest,List.append_nil]

theorem decimal_append_inj {m n : Nat} {r s : List Char} (hr : Stops r) (hs : Stops s)
    (h : decimal m ++ r = decimal n ++ s) : m = n ∧ r = s := by
  have hdigits : decimal m = decimal n := by
    rw [← takeWhile_decimal m hr,h,takeWhile_decimal n hs]
  refine ⟨?_,List.append_cancel_left (hdigits ▸ h)⟩
  rw [← value_decimal m,hdigits,value_decimal]

theorem exists_digit (n : Nat) : ∃ c rest, decimal n = c :: rest ∧ c.isDigit = true := by
  obtain ⟨c,rest,h⟩ := List.exists_cons_of_ne_nil (decimal_ne_nil n)
  exact ⟨c,rest,h,isDigit_of_mem_decimal (h ▸ List.mem_cons_self)⟩

theorem decimal_append_ne_minus (n : Nat) (r s : List Char) : decimal n ++ r ≠ '-' :: s := by
  obtain ⟨c,rest,h,hc⟩ := exists_digit n
  rw [h,List.cons_append]
  intro heq
  rw [(List.cons.inj heq).1] at hc
  cases hc

theorem integer_append_inj {i j : Int} {r s : List Char} (hr : Stops r) (hs : Stops s)
    (h : integer i ++ r = integer j ++ s) : i = j ∧ r = s := by
  unfold integer at h
  split at h <;> split at h
  · obtain ⟨habs,hrest⟩ := decimal_append_inj hr hs (List.cons.inj h).2
    exact ⟨by omega,hrest⟩
  · exact absurd h.symm (decimal_append_ne_minus _ _ _)
  · exact absurd h (decimal_append_ne_minus _ _ _)
  · obtain ⟨habs,hrest⟩ := decimal_append_inj hr hs h
    exact ⟨by omega,hrest⟩

/-- The number below sixteen that a lower case hexadecimal digit denotes. -/
def hexValue (c : Char) : Nat :=
  if c.isDigit then c.toNat - 48 else c.toNat - 87

theorem hexValue_hexDigit : ∀ {d : Nat}, d < 16 → hexValue (hexDigit d) = d := by
  decide

end RemotePyMite.Numeral
