import RemotePyMite.Cursor
import RemotePyMite.Message.Error
import RemotePyMite.Text.Numeral
import RemotePyMite.Text.Utf8

/-! # The memory spaces of a target

A target tells its memory spaces as a text such as `{ 0:("ram",4096,1), }`.  Blanks and
zero bytes may stand between any two parts, a comma may follow the last entry, and of two
entries with one number the later counts.  An error tells where in the data it arose.
-/
namespace RemotePyMite

structure MemorySpace where
  name : String
  size : UInt32
  writeable : Bool
  deriving DecidableEq, Repr

/-- The memory spaces by their numbers, in ascending order. -/
structure MemoryMap where
  spaces : List (UInt8 × MemorySpace)
  sorted : (spaces.map Prod.fst).Pairwise (· < ·) := by simp

namespace MemoryMap

def empty : MemoryMap := ⟨[], List.Pairwise.nil⟩

/-- The list with `space` under `index`, in place of an earlier one or where it belongs. -/
def insertSpace (index : UInt8) (space : MemorySpace) :
    List (UInt8 × MemorySpace) → List (UInt8 × MemorySpace)
  | [] => [(index, space)]
  | (i, s) :: rest =>
    if index < i then (index, space) :: (i, s) :: rest
    else if index = i then (index, space) :: rest
    else (i, s) :: insertSpace index space rest

theorem mem_insertSpace {index i : UInt8} {space : MemorySpace}
    {spaces : List (UInt8 × MemorySpace)}
    (h : i ∈ (insertSpace index space spaces).map Prod.fst) :
    i = index ∨ i ∈ spaces.map Prod.fst := by
  induction spaces with
  | nil => simpa [insertSpace] using h
  | cons p rest ih =>
    unfold insertSpace at h
    grind

theorem insertSpace_sorted {spaces : List (UInt8 × MemorySpace)}
    (h : (spaces.map Prod.fst).Pairwise (· < ·)) (index : UInt8) (space : MemorySpace) :
    ((insertSpace index space spaces).map Prod.fst).Pairwise (· < ·) := by
  induction spaces with
  | nil => simp [insertSpace]
  | cons p rest ih =>
    obtain ⟨i, s⟩ := p
    simp only [List.map_cons, List.pairwise_cons] at h
    unfold insertSpace
    split
    · next hlt =>
      simp only [List.map_cons, List.pairwise_cons, List.mem_cons]
      refine ⟨?_, h⟩
      rintro j (rfl | hj)
      · exact hlt
      · exact UInt8.lt_trans hlt (h.1 j hj)
    · split
      · next heq =>
        simp only [List.map_cons, List.pairwise_cons]
        exact heq ▸ h
      · next hlt hne =>
        simp only [List.map_cons, List.pairwise_cons]
        refine ⟨fun j hj => ?_, ih h.2⟩
        rcases mem_insertSpace hj with rfl | hj
        · exact UInt8.lt_of_le_of_ne (UInt8.not_lt.mp hlt) (Ne.symm hne)
        · exact h.1 j hj

/-- The map with `space` under `index`. -/
def insert (map : MemoryMap) (index : UInt8) (space : MemorySpace) : MemoryMap :=
  ⟨insertSpace index space map.spaces, insertSpace_sorted map.sorted index space⟩

def get? (map : MemoryMap) (index : UInt8) : Option MemorySpace :=
  map.spaces.lookup index

/-- Reads a part of the text. -/
abbrev Scan := StateT Cursor (Except MessageError)

/-- Blanks between two parts: the ASCII ones without the vertical tab, and zero bytes. -/
def isBlank (b : UInt8) : Bool :=
  b = 0x20 || b = 0x09 || b = 0x0A || b = 0x0C || b = 0x0D || b = 0

def isDigit (b : UInt8) : Bool :=
  0x30 ≤ b && b ≤ 0x39

/-- The place of the next byte that is not blank. -/
def skipBlanks (c : Cursor) : Cursor :=
  c.advance (c.rest.takeWhile isBlank).length

def errorAt (c : Cursor) (reason : String) : MessageError :=
  .malformed .memList s!"{reason} at offset {c.offset}"

/-- Skips blanks and then the byte `b`, if it comes next. -/
def accept (b : UInt8) (c : Cursor) : Bool × Cursor :=
  let c := skipBlanks c
  if c.rest.head? = some b then (true, c.advance 1) else (false, c)

/-- Skips blanks and the byte `b`, which has to come next. -/
def expect (b : UInt8) : Scan Unit := fun c =>
  match accept b c with
  | (true, c) => .ok ((), c)
  | (false, c) =>
    let wanted := Char.ofNat b.toNat
    .error (errorAt c s!"expected '{wanted}'")

/-- A number of at most 32 bits. -/
def number : Scan UInt32 := fun c =>
  let c := skipBlanks c
  let digits := c.rest.takeWhile isDigit
  let c := c.advance digits.length
  match Numeral.read? 4294967295 (digits.map fun b => Char.ofNat b.toNat) with
  | some n => .ok (UInt32.ofNat n, c)
  | none => .error (errorAt c "expected a number")

def spaceNumber : Scan UInt8 := do
  let n ← number
  if n.toNat ≤ 255 then return UInt8.ofNat n.toNat
  else throw (errorAt (← get) s!"memory space index {n} out of range")

def yesNo : Scan Bool := fun c =>
  let c := skipBlanks c
  if (Utf8.encode "True").isPrefixOf c.rest then .ok (true, c.advance 4)
  else if (Utf8.encode "False").isPrefixOf c.rest then .ok (false, c.advance 5)
  else do
    let (n, c) ← number c
    return (n ≠ 0, c)

/-- A name between two quotes of one kind. -/
def quoted : Scan String := fun c =>
  let c := skipBlanks c
  match c.rest with
  | [] => .error (errorAt c "expected a quoted name")
  | quote :: rest =>
    if quote = 0x22 ∨ quote = 0x27 then
      let name := rest.takeWhile (· ≠ quote)
      if (rest.drop name.length).isEmpty then .error (errorAt c "unterminated name")
      else .ok (Utf8.decode name, c.advance (name.length + 2))
    else .error (errorAt c "expected a quoted name")

/-- One entry: a number, and in brackets a name, a size and whether it can be written. -/
def entry : Scan (UInt8 × MemorySpace) := do
  let index ← spaceNumber
  expect 0x3A
  expect 0x28
  let name ← quoted
  expect 0x2C
  let size ← number
  expect 0x2C
  let writeable ← yesNo
  expect 0x29
  return (index, ⟨name, size, writeable⟩)

/-- A part that never goes back. -/
def Advances {α : Type} (scan : Scan α) : Prop :=
  ∀ c a c', scan c = .ok (a, c') → c'.rest.length ≤ c.rest.length

/-- A part that takes at least one byte. -/
def Consumes {α : Type} (scan : Scan α) : Prop :=
  ∀ c a c', scan c = .ok (a, c') → c'.rest.length < c.rest.length

theorem length_skipBlanks_le (c : Cursor) : (skipBlanks c).rest.length ≤ c.rest.length := by
  simp [skipBlanks]

theorem length_accept_le (b : UInt8) (c : Cursor) :
    (accept b c).2.rest.length ≤ c.rest.length := by
  have h := length_skipBlanks_le c
  unfold accept
  dsimp only
  split
  · simp only [Cursor.length_advance]; omega
  · exact h

theorem Consumes.advances {α : Type} {scan : Scan α} (h : Consumes scan) : Advances scan :=
  fun c a c' hc => Nat.le_of_lt (h c a c' hc)

theorem bind_eq_ok {α β : Type} {scan : Scan α} {next : α → Scan β} {c c' : Cursor} {b : β}
    (h : (scan >>= next) c = .ok (b, c')) :
    ∃ a d, scan c = .ok (a, d) ∧ next a d = .ok (b, c') := by
  change (scan c >>= fun p => next p.1 p.2) = _ at h
  match hs : scan c with
  | .error e => rw [hs] at h; cases h
  | .ok (a, d) => rw [hs] at h; exact ⟨a, d, rfl, h⟩

theorem Advances.bind {α β : Type} {scan : Scan α} {next : α → Scan β} (hs : Advances scan)
    (hn : ∀ a, Advances (next a)) : Advances (scan >>= next) := by
  intro c b c' h
  obtain ⟨a, d, ha, hb⟩ := bind_eq_ok h
  exact Nat.le_trans (hn a d b c' hb) (hs c a d ha)

theorem Consumes.bind {α β : Type} {scan : Scan α} {next : α → Scan β} (hs : Consumes scan)
    (hn : ∀ a, Advances (next a)) : Consumes (scan >>= next) := by
  intro c b c' h
  obtain ⟨a, d, ha, hb⟩ := bind_eq_ok h
  exact Nat.lt_of_le_of_lt (hn a d b c' hb) (hs c a d ha)

theorem advances_pure {α : Type} (a : α) : Advances (pure a : Scan α) := by
  intro c b c' h
  cases h
  exact Nat.le_refl _

theorem advances_expect (b : UInt8) : Advances (expect b) := by
  intro c a c' h
  have hl := length_accept_le b c
  unfold expect at h
  split at h
  · next d hd => cases h; rw [hd] at hl; exact hl
  · cases h

theorem consumes_number : Consumes number := by
  intro c n c' h
  have hl := length_skipBlanks_le c
  unfold number at h
  dsimp only at h
  split at h
  · next n hn =>
    cases h
    have hd : (skipBlanks c).rest.takeWhile isDigit ≠ [] := by
      intro he
      rw [he] at hn
      simp [Numeral.read?] at hn
    have hp := List.length_pos_iff.mpr hd
    have hle := (List.takeWhile_sublist (l := (skipBlanks c).rest) isDigit).length_le
    simp only [Cursor.length_advance]
    omega
  · cases h

theorem consumes_spaceNumber : Consumes spaceNumber := by
  refine consumes_number.bind fun n => ?_
  intro c b c' h
  split at h
  · exact advances_pure _ c b c' h
  · obtain ⟨a, d, ha, hb⟩ := bind_eq_ok h
    cases hb

theorem advances_yesNo : Advances yesNo := by
  intro c b c' h
  have hl := length_skipBlanks_le c
  unfold yesNo at h
  dsimp only at h
  split at h
  · cases h; simp only [Cursor.length_advance]; omega
  · split at h
    · cases h; simp only [Cursor.length_advance]; omega
    · match hn : number (skipBlanks c) with
      | .error e => rw [hn] at h; cases h
      | .ok (n, d) =>
        rw [hn] at h
        cases h
        exact Nat.le_trans (consumes_number.advances _ _ _ hn) hl

theorem advances_quoted : Advances quoted := by
  intro c b c' h
  have hl := length_skipBlanks_le c
  unfold quoted at h
  dsimp only at h
  split at h
  · cases h
  · split at h
    · split at h
      · cases h
      · cases h; simp only [Cursor.length_advance]; omega
    · cases h

theorem consumes_entry : Consumes entry :=
  consumes_spaceNumber.bind fun _ => (advances_expect _).bind fun _ =>
    (advances_expect _).bind fun _ => advances_quoted.bind fun _ =>
    (advances_expect _).bind fun _ => consumes_number.advances.bind fun _ =>
    (advances_expect _).bind fun _ => advances_yesNo.bind fun _ =>
    (advances_expect _).bind fun _ => advances_pure _

/-- The entries up to the closing brace, put into `map`. -/
def entries (map : MemoryMap) (c : Cursor) : Except MessageError (MemoryMap × Cursor) :=
  if (accept 0x7D c).1 then .ok (map, (accept 0x7D c).2)
  else
    match _h : entry (accept 0x7D c).2 with
    | .error e => .error e
    | .ok ((index, space), d) =>
      if (accept 0x2C d).1 then entries (map.insert index space) (accept 0x2C d).2
      else do
        let (_, d) ← expect 0x7D (accept 0x2C d).2
        return (map.insert index space, d)
termination_by c.rest.length
decreasing_by
  have h₁ := length_accept_le 0x7D c
  have h₂ := consumes_entry _ _ _ _h
  have h₃ := length_accept_le 0x2C d
  omega

/-- The memory spaces that a text tells. -/
def ofBytes (data : Bytes) : Except MessageError MemoryMap := do
  let (_, c) ← expect 0x7B (.start data)
  let (map, c) ← entries empty c
  let c := skipBlanks c
  if c.rest.isEmpty then return map
  else throw (errorAt c "trailing data after closing brace")

end MemoryMap

/-- The memory spaces of a target as it tells them, or without data the request for
them. -/
structure MemoryList where
  data : Bytes
  deriving DecidableEq, Repr

namespace MemoryList

def request : MemoryList := ⟨[]⟩

def ofText (text : String) : MemoryList := ⟨Utf8.encode text⟩

/-- The memory spaces in the message. -/
def spaces (list : MemoryList) : Except MessageError MemoryMap :=
  MemoryMap.ofBytes list.data

end MemoryList

end RemotePyMite
