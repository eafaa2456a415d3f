import Mathlib.Data.List.TakeWhile
import RemotePyMite.Message.MemoryMap
import RemotePyMite.Proofs.Text.Numeral
import RemotePyMite.Proofs.Text.Utf8

/-! # The grammar of a memory map

The text of a memory map is a row of parts with blanks between them: numbers, quoted names, words and
punctuation (`Spells`).  Each reader takes the parts it is made for and leaves the others, so what the
grammar spells is read however its blanks stand, and of two entries with one number the later counts
(`ofBytes_of_spells`, `get?_insertAll`).
-/
namespace RemotePyMite.MemoryMap

/-- A text made of these parts, with blanks anywhere before, between and behind them. -/
inductive Spaced : List Bytes → Bytes → Prop
  | nil {blanks : Bytes} (hb : ∀ b ∈ blanks, isBlank b = true) : Spaced [] blanks
  | cons {blanks token rest : Bytes} {tokens : List Bytes} (hb : ∀ b ∈ blanks, isBlank b = true)
      (hr : Spaced tokens rest) : Spaced (token :: tokens) (blanks ++ token ++ rest)

/-- The number that a row of digits says. -/
def digitsValue (token : Bytes) : Nat :=
  token.foldl (fun n b => 10 * n + (b.toNat - 48)) 0

/-- A row of digits that says a number, with leading zeros or without. -/
structure Digits (n : Nat) (token : Bytes) : Prop where
  ne_nil : token ≠ []
  all : ∀ b ∈ token, isDigit b = true
  value : digitsValue token = n

/-- The words for whether a memory space can be written: a word, or a number that is not zero. -/
inductive Flag : Bool → Bytes → Prop
  | yes : Flag true (Utf8.encode "True")
  | no : Flag false (Utf8.encode "False")
  | number {n : UInt32} {token : Bytes} (h : Digits n.toNat token) : Flag (n ≠ 0) token

/-- A name is any bytes between quotes of a kind that is not among them. -/
inductive Quoted : String → Bytes → Prop
  | mk {quote : UInt8} {name : Bytes} (hq : quote = 0x22 ∨ quote = 0x27) (hn : quote ∉ name) :
      Quoted (Utf8.decode name) (quote :: name ++ [quote])

/-- The parts of an entry. -/
inductive Entry : UInt8 × MemorySpace → List Bytes → Prop
  | mk {index : UInt8} {name : String} {size : UInt32} {writeable : Bool}
      {number label length flag : Bytes} (hi : Digits index.toNat number) (hn : Quoted name label)
      (hs : Digits size.toNat length) (hf : Flag writeable flag) :
      Entry (index,⟨name,size,writeable⟩)
        [number,[0x3A],[0x28],label,[0x2C],length,[0x2C],flag,[0x29]]

/-- The parts of a row of entries and of the closing brace.  The last entry may have a comma
behind it. -/
inductive Row : List (UInt8 × MemorySpace) → List Bytes → Prop
  | close : Row [] [[0x7D]]
  | last {space : UInt8 × MemorySpace} {tokens : List Bytes} (h : Entry space tokens) :
      Row [space] (tokens ++ [[0x7D]])
  | comma {space : UInt8 × MemorySpace} {tokens more : List Bytes}
      {spaces : List (UInt8 × MemorySpace)} (h : Entry space tokens) (hr : Row spaces more) :
      Row (space :: spaces) (tokens ++ [0x2C] :: more)

/-- The text is a row of these entries in braces. -/
def Spells (spaces : List (UInt8 × MemorySpace)) (text : Bytes) : Prop :=
  ∃ tokens, Row spaces tokens ∧ Spaced ([0x7B] :: tokens) text

theorem forall_mem_nil_isBlank : ∀ b ∈ ([] : Bytes), isBlank b = true :=
  List.forall_mem_nil _

/-- There need not be any blanks. -/
theorem Spaced.flatten (tokens : List Bytes) : Spaced tokens tokens.flatten := by
  induction tokens with
  | nil => exact .nil forall_mem_nil_isBlank
  | cons token rest ih => exact .cons forall_mem_nil_isBlank ih

/-- A reader finds `a` in front of a text with the parts `tokens`, and leaves the parts `more`. -/
def Finds {α : Type} (scan : Scan α) (a : α) (tokens more : List Bytes) : Prop :=
  ∀ c : Cursor, Spaced tokens c.rest → ∃ d, scan c = .ok (a,d) ∧ Spaced more d.rest

variable {c : Cursor} {token : Bytes} {tokens more : List Bytes}

theorem Finds.bind {α β : Type} {scan : Scan α} {next : α → Scan β} {a : α} {b : β}
    {rest : List Bytes} (h : Finds scan a tokens more) (hn : Finds (next a) b more rest) :
    Finds (scan >>= next) b tokens rest := by
  intro c hc
  obtain ⟨d,hd,hm⟩ := h c hc
  obtain ⟨e,he,hr⟩ := hn d hm
  refine ⟨e,?_,hr⟩
  change (scan c >>= fun p => next p.1 p.2) = _
  rw [hd]
  exact he

theorem finds_pure {α : Type} (a : α) : Finds (pure a) a tokens tokens :=
  fun c hc => ⟨c,rfl,hc⟩

theorem takeWhile_blanks {blanks : Bytes} (hb : ∀ b ∈ blanks, isBlank b = true) {b : UInt8}
    (h : isBlank b = false) (rest : Bytes) : (blanks ++ b :: rest).takeWhile isBlank = blanks := by
  rw [List.takeWhile_append_of_pos hb,List.takeWhile_cons_of_neg (by simp [h]),List.append_nil]

/-- Behind the blanks stands the first part, if it does not start with a blank itself. -/
theorem rest_skipBlanks {b : UInt8} (h : isBlank b = false)
    (hc : Spaced ((b :: token) :: tokens) c.rest) :
    ∃ rest, (skipBlanks c).rest = b :: token ++ rest ∧ Spaced tokens rest := by
  generalize ht : c.rest = text at hc
  cases hc with
  | @cons blanks _ rest _ hb hr =>
    refine ⟨rest,?_,hr⟩
    have hw : (c.rest.takeWhile isBlank).length = blanks.length := by
      rw [ht,List.append_assoc,List.cons_append,takeWhile_blanks hb h]
    rw [skipBlanks,hw,Cursor.advance,ht,List.append_assoc,List.drop_left]

theorem spaced_skipBlanks {b : UInt8} (h : isBlank b = false)
    (hc : Spaced ((b :: token) :: tokens) c.rest) :
    Spaced ((b :: token) :: tokens) (skipBlanks c).rest := by
  obtain ⟨rest,hrest,hr⟩ := rest_skipBlanks h hc
  rw [hrest]
  exact Spaced.cons forall_mem_nil_isBlank hr

theorem accept_of_eq {b : UInt8} (h : isBlank b = false) (hc : Spaced ([b] :: tokens) c.rest) :
    (accept b c).1 = true ∧ Spaced tokens (accept b c).2.rest := by
  obtain ⟨rest,hrest,hr⟩ := rest_skipBlanks h hc
  unfold accept
  simp only [hrest,List.cons_append,List.head?_cons,↓reduceIte,true_and]
  simpa [Cursor.advance,hrest] using hr

theorem accept_of_ne {a b : UInt8} (h : isBlank a = false) (hab : a ≠ b)
    (hc : Spaced ((a :: token) :: tokens) c.rest) :
    (accept b c).1 = false ∧ Spaced ((a :: token) :: tokens) (accept b c).2.rest := by
  obtain ⟨rest,hrest,-⟩ := rest_skipBlanks h hc
  have hhead : (skipBlanks c).rest.head? ≠ some b := by
    rw [hrest]
    simpa using hab
  unfold accept
  rw [if_neg hhead]
  exact ⟨rfl,spaced_skipBlanks h hc⟩

theorem finds_expect {b : UInt8} (h : isBlank b = false) :
    Finds (expect b) () ([b] :: tokens) tokens := by
  intro c hc
  obtain ⟨ht,hr⟩ := accept_of_eq h hc
  refine ⟨(accept b c).2,?_,hr⟩
  unfold expect
  split
  · next d hd => rw [hd]
  · next d hd => rw [hd] at ht; cases ht

theorem not_isBlank_of_isDigit {b : UInt8} (h : isDigit b = true) : isBlank b = false := by
  have hl := (Utf8.between_iff.mp h).1
  rw [Bool.eq_false_iff]
  intro hb
  simp only [isBlank,Bool.or_eq_true,decide_eq_true_eq] at hb
  rcases hb with ((((rfl | rfl) | rfl) | rfl) | rfl) | rfl <;> exact absurd hl (by decide)

theorem isDigit_ofNat_toNat (b : UInt8) : (Char.ofNat b.toNat).isDigit = isDigit b := by
  rw [Bool.eq_iff_iff,Numeral.isDigit_iff,Utf8.toNat_ofNat_toNat,isDigit,Utf8.between_iff]
  rfl

theorem value_map (digits : Bytes) :
    Numeral.value (digits.map fun b => Char.ofNat b.toNat) = digitsValue digits := by
  simp only [Numeral.value,digitsValue,List.foldl_map,Utf8.toNat_ofNat_toNat]

/-- A numeral is read if it has a digit and is not too large. -/
theorem read?_map (max : Nat) {digits : Bytes} (h : ∀ b ∈ digits, isDigit b = true) :
    Numeral.read? max (digits.map fun b => Char.ofNat b.toNat) =
      if digits ≠ [] ∧ digitsValue digits ≤ max then some (digitsValue digits) else none := by
  have hany : ((digits.map fun b => Char.ofNat b.toNat).any fun c => !c.isDigit) = false := by
    rw [List.any_map,List.any_eq_false]
    intro b hb
    simp [isDigit_ofNat_toNat,h b hb]
  rw [Numeral.read?_eq,hany,value_map,Bool.or_false,List.isEmpty_map]
  by_cases hne : digits = []
  · simp [hne]
  · simp [hne]

theorem number_eq (c : Cursor) :
    number c =
      let digits := (skipBlanks c).rest.takeWhile isDigit
      if digits ≠ [] ∧ digitsValue digits ≤ 4294967295 then
        .ok (UInt32.ofNat (digitsValue digits),(skipBlanks c).advance digits.length)
      else .error (errorAt ((skipBlanks c).advance digits.length) "expected a number") := by
  unfold number
  simp only [read?_map 4294967295 fun _ => List.mem_takeWhile_imp]
  split
  · next n hn =>
    split at hn
    · next h =>
      cases hn
      exact (if_pos h).symm
    · cases hn
  · next hn =>
    split at hn
    · cases hn
    · next h => exact (if_neg h).symm

theorem Digits.cases {n : Nat} (h : Digits n token) :
    ∃ b rest, token = b :: rest ∧ isDigit b = true := by
  cases token with
  | nil => exact absurd rfl h.ne_nil
  | cons b rest => exact ⟨b,rest,rfl,h.all b List.mem_cons_self⟩

/-- The first part of what is read behind a numeral is no digit. -/
theorem Digits.takeWhile {n : Nat} (h : Digits n token) {b : UInt8} (hb : isDigit b = false)
    {rest : Bytes} (hr : Spaced ([b] :: tokens) rest) :
    (token ++ rest).takeWhile isDigit = token := by
  rw [List.takeWhile_append_of_pos h.all]
  cases hr with
  | @cons blanks _ rest _ hbl _ =>
    cases blanks with
    | nil => simp [hb]
    | cons blank blanks =>
      have hn : isDigit blank = false := by
        by_contra hd
        have := not_isBlank_of_isDigit (Bool.not_eq_false _ ▸ hd)
        rw [hbl blank List.mem_cons_self] at this
        cases this
      simp [hn]

theorem finds_number {n : UInt32} (h : Digits n.toNat token) {b : UInt8} (hb : isDigit b = false) :
    Finds number n (token :: [b] :: tokens) ([b] :: tokens) := by
  intro c hc
  obtain ⟨d,digits,hd,hdigit⟩ := h.cases
  rw [hd] at hc
  obtain ⟨rest,hrest,hr⟩ := rest_skipBlanks (not_isBlank_of_isDigit hdigit) hc
  rw [← hd] at hrest
  have htaken : (skipBlanks c).rest.takeWhile isDigit = token := by rw [hrest,h.takeWhile hb hr]
  have hmax : n.toNat ≤ 4294967295 := Nat.le_of_lt_succ n.toNat_lt
  refine ⟨(skipBlanks c).advance token.length,?_,?_⟩
  · simp only [number_eq,htaken,h.value,h.ne_nil,ne_eq,not_false_eq_true,hmax,and_self,↓reduceIte,
      UInt32.ofNat_toNat]
  · simpa [Cursor.advance,hrest] using hr

theorem finds_spaceNumber {index : UInt8} (h : Digits index.toNat token) {b : UInt8}
    (hb : isDigit b = false) : Finds spaceNumber index (token :: [b] :: tokens) ([b] :: tokens) := by
  have hi := index.toNat_lt
  have hn : index.toUInt32.toNat = index.toNat := UInt8.toNat_toUInt32 index
  refine (finds_number (hn.symm ▸ h) hb).bind ?_
  rw [hn,if_pos (by omega),UInt8.ofNat_toNat]
  exact finds_pure index

theorem finds_quoted {name : String} (h : Quoted name token) :
    Finds quoted name (token :: tokens) tokens := by
  intro c hc
  obtain @⟨quote,name,hq,hn⟩ := h
  have hblank : isBlank quote = false := by
    rcases hq with rfl | rfl <;> decide
  obtain ⟨rest,hrest,hr⟩ := rest_skipBlanks hblank hc
  have hall : ∀ b ∈ name, decide (b ≠ quote) = true := by
    intro b hb
    rw [decide_eq_true_iff]
    rintro rfl
    exact hn hb
  have hname : (name ++ quote :: rest).takeWhile (· ≠ quote) = name := by
    rw [List.takeWhile_append_of_pos hall,List.takeWhile_cons_of_neg (by simp),List.append_nil]
  have hcons : (skipBlanks c).rest = quote :: (name ++ quote :: rest) := by
    simpa using hrest
  refine ⟨(skipBlanks c).advance (name.length + 2),?_,?_⟩
  · unfold quoted
    simp only [hcons,hq,↓reduceIte,hname,List.drop_left,List.isEmpty_cons,Bool.false_eq_true]
  · have hdrop : ((skipBlanks c).advance (name.length + 2)).rest = rest := by
      rw [Cursor.advance,hrest]
      exact List.drop_left' (by simp)
    rwa [hdrop]

theorem not_isPrefixOf_cons {a b : UInt8} (h : a ≠ b) (word rest : Bytes) :
    (a :: word).isPrefixOf (b :: rest) = false := by
  simp [List.isPrefixOf,h]

theorem finds_yesNo {writeable : Bool} {flag : Bytes} (hf : Flag writeable flag) {b : UInt8}
    (hb : isDigit b = false) : Finds yesNo writeable (flag :: [b] :: tokens) ([b] :: tokens) := by
  intro c hc
  cases hf with
  | yes =>
    obtain ⟨rest,hrest,hr⟩ := rest_skipBlanks (b := 0x54) (by decide) hc
    have htrue : (Utf8.encode "True").isPrefixOf (skipBlanks c).rest = true := by
      rw [hrest,List.isPrefixOf_iff_prefix]
      exact List.prefix_append _ _
    refine ⟨(skipBlanks c).advance 4,?_,?_⟩
    · unfold yesNo
      simp only [htrue,↓reduceIte]
    · rwa [Cursor.advance,hrest]
  | no =>
    obtain ⟨rest,hrest,hr⟩ := rest_skipBlanks (b := 0x46) (by decide) hc
    have htrue : (Utf8.encode "True").isPrefixOf (skipBlanks c).rest = false := by
      rw [hrest]
      exact not_isPrefixOf_cons (by decide) _ _
    have hfalse : (Utf8.encode "False").isPrefixOf (skipBlanks c).rest = true := by
      rw [hrest,List.isPrefixOf_iff_prefix]
      exact List.prefix_append _ _
    refine ⟨(skipBlanks c).advance 5,?_,?_⟩
    · unfold yesNo
      simp only [htrue,hfalse,Bool.false_eq_true,↓reduceIte]
    · rwa [Cursor.advance,hrest]
  | number h =>
    obtain ⟨d,digits,hd,hdigit⟩ := h.cases
    rw [hd] at hc
    obtain ⟨rest,hrest,-⟩ := rest_skipBlanks (not_isBlank_of_isDigit hdigit) hc
    have hword : ∀ a word, isDigit a = false → (a :: word).isPrefixOf (skipBlanks c).rest = false := by
      intro a word ha
      rw [hrest]
      refine not_isPrefixOf_cons ?_ word _
      rintro rfl
      cases hdigit.symm.trans ha
    have hs := spaced_skipBlanks (not_isBlank_of_isDigit hdigit) hc
    rw [← hd] at hs
    obtain ⟨e,he,hr⟩ := finds_number h hb _ hs
    refine ⟨e,?_,hr⟩
    have htrue := hword 0x54 [0x72,0x75,0x65] (by decide)
    have hfalse := hword 0x46 [0x61,0x6C,0x73,0x65] (by decide)
    unfold yesNo
    simp only [show Utf8.encode "True" = [0x54,0x72,0x75,0x65] from rfl,
      show Utf8.encode "False" = [0x46,0x61,0x6C,0x73,0x65] from rfl,htrue,hfalse,Bool.false_eq_true,
      ↓reduceIte,he]
    rfl

theorem finds_entry {space : UInt8 × MemorySpace} {parts : List Bytes} (h : Entry space parts) :
    Finds entry space (parts ++ tokens) tokens := by
  cases h with
  | mk hi hn hs hf =>
    refine (finds_spaceNumber hi (by decide)).bind ?_
    refine (finds_expect (by decide)).bind ?_
    refine (finds_expect (by decide)).bind ?_
    refine (finds_quoted hn).bind ?_
    refine (finds_expect (by decide)).bind ?_
    refine (finds_number hs (by decide)).bind ?_
    refine (finds_expect (by decide)).bind ?_
    refine (finds_yesNo hf (by decide)).bind ?_
    refine (finds_expect (by decide)).bind ?_
    exact finds_pure _

/-- An entry is not taken for the end of its row, and stands where that was looked for. -/
theorem entry_of_spaced {space : UInt8 × MemorySpace} {parts : List Bytes} (h : Entry space parts)
    (hc : Spaced (parts ++ tokens) c.rest) :
    (accept 0x7D c).1 = false ∧
      ∃ d, entry (accept 0x7D c).2 = .ok (space,d) ∧ Spaced tokens d.rest := by
  have hfirst : (accept 0x7D c).1 = false ∧ Spaced (parts ++ tokens) (accept 0x7D c).2.rest := by
    cases h with
    | mk hi hn hs hf =>
      obtain ⟨d,digits,rfl,hdigit⟩ := hi.cases
      refine accept_of_ne (not_isBlank_of_isDigit hdigit) ?_ hc
      rintro rfl
      exact absurd hdigit (by decide)
  exact ⟨hfirst.1,finds_entry h _ hfirst.2⟩

/-- The map with all of these entries. -/
def insertAll (map : MemoryMap) (spaces : List (UInt8 × MemorySpace)) : MemoryMap :=
  spaces.foldl (fun map space => map.insert space.1 space.2) map

theorem entries_of_row {spaces : List (UInt8 × MemorySpace)} {parts : List Bytes}
    (h : Row spaces parts) (map : MemoryMap) (hc : Spaced parts c.rest) :
    ∃ d, entries map c = .ok (map.insertAll spaces,d) ∧ Spaced [] d.rest := by
  induction h generalizing c map with
  | close =>
    obtain ⟨hyes,hr⟩ := accept_of_eq (by decide) hc
    refine ⟨_,?_,hr⟩
    rw [entries,if_pos hyes]
    rfl
  | @last space tokens h =>
    obtain ⟨hno,d,hd,hr⟩ := entry_of_spaced h hc
    obtain ⟨hcomma,hr⟩ := accept_of_ne (b := 0x2C) (by decide) (by decide) hr
    obtain ⟨e,he,hr⟩ := finds_expect (by decide) _ hr
    refine ⟨e,?_,hr⟩
    rw [entries,if_neg (by simp [hno])]
    split
    · next e he => cases he.symm.trans hd
    · next index found d' hd' =>
      cases hd'.symm.trans hd
      rw [if_neg (by simp [hcomma]),he]
      rfl
  | @comma space tokens more spaces h hr ih =>
    obtain ⟨hno,d,hd,hr⟩ := entry_of_spaced h hc
    obtain ⟨hcomma,hr⟩ := accept_of_eq (by decide) hr
    obtain ⟨e,he,hr⟩ := ih (map.insert space.1 space.2) hr
    refine ⟨e,?_,hr⟩
    rw [entries,if_neg (by simp [hno])]
    split
    · next e he => cases he.symm.trans hd
    · next index found d' hd' =>
      cases hd'.symm.trans hd
      rw [if_pos hcomma]
      exact he

/-- What the grammar spells is read, entry by entry. -/
theorem ofBytes_of_spells {spaces : List (UInt8 × MemorySpace)} {text : Bytes}
    (h : Spells spaces text) : ofBytes text = .ok (empty.insertAll spaces) := by
  obtain ⟨tokens,hrow,htext⟩ := h
  obtain ⟨d,hd,hs⟩ := finds_expect (by decide) (.start text) htext
  obtain ⟨e,he,hr⟩ := entries_of_row hrow empty hs
  have hend : (skipBlanks e).rest.isEmpty = true := by
    generalize ht : e.rest = rest at hr
    cases hr with
    | nil hb =>
      simp only [skipBlanks,Cursor.advance,ht,List.takeWhile_eq_self_iff.mpr hb,List.drop_length,
        List.isEmpty_nil]
  unfold ofBytes
  rw [hd]
  change (entries empty d >>= _) = _
  rw [he]
  change (if (skipBlanks e).rest.isEmpty then _ else _) = _
  rw [if_pos hend]
  rfl

theorem get?_insert (map : MemoryMap) (index i : UInt8) (space : MemorySpace) :
    (map.insert index space).get? i = if i = index then some space else map.get? i := by
  simp only [get?,insert]
  induction map.spaces with
  | nil => grind [insertSpace]
  | cons first rest ih => grind [insertSpace]

/-- Of the entries with one number the last one counts. -/
theorem get?_insertAll (map : MemoryMap) (spaces : List (UInt8 × MemorySpace)) (i : UInt8) :
    (map.insertAll spaces).get? i = (spaces.reverse.lookup i).or (map.get? i) := by
  induction spaces generalizing map with
  | nil => rfl
  | cons space rest ih =>
    have hfirst : (map.insert space.1 space.2).get? i = ([space].lookup i).or (map.get? i) := by
      rw [get?_insert]
      grind
    rw [List.reverse_cons,List.lookup_append,Option.or_assoc,← hfirst]
    exact ih _

end RemotePyMite.MemoryMap
