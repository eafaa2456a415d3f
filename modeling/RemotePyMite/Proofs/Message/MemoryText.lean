import RemotePyMite.Proofs.Message.MemoryGrammar

/-! # A memory map is read as it was written

A map is written with numerals that have no leading zeros, with names that are text, and with every
number once.  What is written so is spelled by the grammar, and the entries make the map again in
whatever order they stand (`ofBytes_of_writes`).
-/
namespace RemotePyMite.MemoryMap

def numeral (n : Nat) : Bytes :=
  (Numeral.decimal n).map fun c => UInt8.ofNat c.toNat

/-- The words for whether a memory space can be written: a word, or a number that is not zero. -/
inductive FlagWord : Bool → Bytes → Prop
  | yes : FlagWord true (Utf8.encode "True")
  | no : FlagWord false (Utf8.encode "False")
  | number {n : Nat} (hn : n < UInt32.size) : FlagWord (n ≠ 0) (numeral n)

/-- The parts of an entry.  Its name stands between quotes of a kind that it does not contain. -/
inductive EntryParts : UInt8 × MemorySpace → List Bytes → Prop
  | mk {index : UInt8} {name : String} {size : UInt32} {writeable : Bool} {flag : Bytes}
      {quote : UInt8} (hq : quote = 0x22 ∨ quote = 0x27) (hn : quote ∉ Utf8.encode name)
      (hf : FlagWord writeable flag) :
      EntryParts (index,⟨name,size,writeable⟩) [numeral index.toNat,[0x3A],[0x28],
        quote :: Utf8.encode name ++ [quote],[0x2C],numeral size.toNat,[0x2C],flag,[0x29]]

/-- The parts of a row of entries and of the closing brace.  The last entry may have a comma
behind it. -/
inductive RowParts : List (UInt8 × MemorySpace) → List Bytes → Prop
  | close : RowParts [] [[0x7D]]
  | last {space : UInt8 × MemorySpace} {tokens : List Bytes} (h : EntryParts space tokens) :
      RowParts [space] (tokens ++ [[0x7D]])
  | comma {space : UInt8 × MemorySpace} {tokens more : List Bytes}
      {spaces : List (UInt8 × MemorySpace)} (h : EntryParts space tokens)
      (hr : RowParts spaces more) : RowParts (space :: spaces) (tokens ++ [0x2C] :: more)

/-- The text writes the map, its entries in any order. -/
def Writes (text : Bytes) (map : MemoryMap) : Prop :=
  ∃ spaces tokens, spaces.Perm map.spaces ∧ RowParts spaces tokens ∧
    Spaced ([0x7B] :: tokens) text

theorem digit_of_mem_decimal {n : Nat} {c : Char} (h : c ∈ Numeral.decimal n) :
    isDigit (UInt8.ofNat c.toNat) = true ∧ Char.ofNat (UInt8.ofNat c.toNat).toNat = c := by
  obtain ⟨hl,hu⟩ := Numeral.isDigit_iff.mp (Numeral.isDigit_of_mem_decimal h)
  have hm : (UInt8.ofNat c.toNat).toNat = c.toNat := by
    rw [UInt8.toNat_ofNat']
    exact Nat.mod_eq_of_lt (by omega)
  rw [hm,Char.ofNat_toNat]
  refine ⟨?_,rfl⟩
  simp only [isDigit,Bool.and_eq_true,decide_eq_true_eq,UInt8.le_iff_toNat_le,hm]
  exact ⟨hl,hu⟩

theorem isDigit_of_mem_numeral {n : Nat} {b : UInt8} (h : b ∈ numeral n) : isDigit b = true := by
  obtain ⟨c,hc,rfl⟩ := List.mem_map.mp h
  exact (digit_of_mem_decimal hc).1

theorem chars_numeral (n : Nat) :
    ((numeral n).map fun b => Char.ofNat b.toNat) = Numeral.decimal n := by
  rw [numeral,List.map_map]
  exact (List.map_congr_left fun c hc => (digit_of_mem_decimal hc).2).trans (List.map_id _)

theorem digits_numeral (n : Nat) : Digits n (numeral n) where
  ne_nil h := Numeral.decimal_ne_nil n (List.map_eq_nil_iff.mp h)
  all _ := isDigit_of_mem_numeral
  value := by rw [← value_map,chars_numeral,Numeral.value_decimal]

theorem FlagWord.flag {writeable : Bool} {word : Bytes} (h : FlagWord writeable word) :
    Flag writeable word := by
  cases h with
  | yes => exact .yes
  | no => exact .no
  | @number n hn =>
    have hval : (UInt32.ofNat n).toNat = n := UInt32.toNat_ofNat_of_lt' hn
    have hzero : (UInt32.ofNat n ≠ 0 : Bool) = (n ≠ 0 : Bool) := by
      rw [decide_eq_decide,ne_eq,← UInt32.toNat_inj,hval]
      rfl
    rw [← hzero]
    exact .number (hval.symm ▸ digits_numeral n)

theorem EntryParts.entry {space : UInt8 × MemorySpace} {parts : List Bytes}
    (h : EntryParts space parts) : Entry space parts := by
  cases h with
  | @mk index name size writeable flag quote hq hn hf =>
    have hname := Quoted.mk hq hn
    rw [Utf8.decode_encode_self] at hname
    exact .mk (digits_numeral index.toNat) hname (digits_numeral size.toNat) hf.flag

theorem RowParts.row {spaces : List (UInt8 × MemorySpace)} {parts : List Bytes}
    (h : RowParts spaces parts) : Row spaces parts := by
  induction h with
  | close => exact .close
  | last h => exact .last h.entry
  | comma h _ ih => exact .comma h.entry ih

/-- A map has a text if each of its names lacks one of the two quotes. -/
theorem exists_rowParts {spaces : List (UInt8 × MemorySpace)}
    (h : ∀ s ∈ spaces, ∃ quote, (quote = 0x22 ∨ quote = 0x27) ∧ quote ∉ Utf8.encode s.2.name) :
    ∃ tokens, RowParts spaces tokens := by
  induction spaces with
  | nil => exact ⟨_,.close⟩
  | cons space rest ih =>
    obtain ⟨⟨quote,hq,hn⟩,hr⟩ := List.forall_mem_cons.mp h
    obtain ⟨more,hmore⟩ := ih hr
    have hflag : ∃ word, FlagWord space.2.writeable word := by
      cases space.2.writeable with
      | true => exact ⟨_,.yes⟩
      | false => exact ⟨_,.no⟩
    obtain ⟨word,hword⟩ := hflag
    exact ⟨_,.comma (.mk hq hn hword) hmore⟩

theorem insertSpace_perm {index : UInt8} (space : MemorySpace)
    {spaces : List (UInt8 × MemorySpace)} (h : index ∉ spaces.map Prod.fst) :
    (insertSpace index space spaces).Perm ((index,space) :: spaces) := by
  induction spaces with
  | nil => exact .refl _
  | cons first rest ih =>
    rw [List.map_cons,List.mem_cons,not_or] at h
    unfold insertSpace
    split
    · exact .refl _
    · rw [if_neg h.1]
      exact ((ih h.2).cons first).trans (.swap _ _ _)

theorem insertAll_perm {map : MemoryMap} {spaces : List (UInt8 × MemorySpace)}
    (h : ((spaces ++ map.spaces).map Prod.fst).Nodup) :
    (map.insertAll spaces).spaces.Perm (spaces ++ map.spaces) := by
  induction spaces generalizing map with
  | nil => exact .refl _
  | cons space rest ih =>
    rw [List.cons_append,List.map_cons,List.nodup_cons] at h
    have hnew : space.1 ∉ map.spaces.map Prod.fst := by
      intro hm
      exact h.1 (by rw [List.map_append]; exact List.mem_append_right _ hm)
    have hp := insertSpace_perm space.2 hnew
    have hmid : (rest ++ (map.insert space.1 space.2).spaces).Perm (space :: rest ++ map.spaces) :=
      (hp.append_left rest).trans List.perm_middle
    refine (ih ?_).trans hmid
    exact ((hmid.map Prod.fst).nodup_iff).mpr (List.nodup_cons.mpr h)

theorem nodup_fst (map : MemoryMap) : (map.spaces.map Prod.fst).Nodup :=
  map.sorted.imp fun h => UInt8.ne_of_lt h

theorem eq_of_perm {a b : MemoryMap} (h : a.spaces.Perm b.spaces) : a = b := by
  have hs : ∀ map : MemoryMap, map.spaces.Pairwise fun s t => s.1 < t.1 :=
    fun map => List.pairwise_map.mp map.sorted
  have he : a.spaces = b.spaces := by
    refine List.Perm.eq_of_pairwise ?_ (hs a) (hs b) h
    intro s t _ _ hst hts
    exact absurd (UInt8.lt_trans hst hts) (UInt8.lt_irrefl _)
  cases a
  cases b
  cases he
  rfl

/-- The map that a text writes is read from it. -/
theorem ofBytes_of_writes {text : Bytes} {map : MemoryMap} (h : Writes text map) :
    ofBytes text = .ok map := by
  obtain ⟨spaces,tokens,hp,hrow,htext⟩ := h
  have hall : empty.insertAll spaces = map := by
    have hnodup : (spaces.map Prod.fst).Nodup := (hp.map Prod.fst).nodup_iff.mpr map.nodup_fst
    refine eq_of_perm ((insertAll_perm ?_).trans ?_)
    · simpa [empty] using hnodup
    · simpa [empty] using hp
  rw [ofBytes_of_spells ⟨tokens,hrow.row,htext⟩,hall]

end RemotePyMite.MemoryMap
