import RemotePyMite.Value.Encode

/-! # What a value is written as

Whatever is written to a buffer is put behind what it holds, in the same way for every buffer
(`appends_write`).  So a value is written as its tag, what the tag calls for and the values in it,
one output behind another.
-/
namespace RemotePyMite

namespace Output

/-- The first output, and behind it the second if the first did not end early. -/
def append (a b : Output) : Output :=
  match a.error with
  | some e => ⟨a.bytes,some e⟩
  | none => ⟨a.bytes ++ b.bytes,b.error⟩

instance : Append Output := ⟨append⟩

@[simp] theorem ok_append (bytes : Bytes) (b : Output) :
    ok bytes ++ b = ⟨bytes ++ b.bytes,b.error⟩ := rfl

theorem result_eq_ok {a : Output} {w : Bytes} : a.result = .ok w ↔ a = .ok w := by
  obtain ⟨bytes,error⟩ := a
  cases error <;> simp [result,ok]

theorem ok_inj {v w : Bytes} : Output.ok v = .ok w ↔ v = w := by
  simp [ok]

theorem append_eq_ok {a b : Output} {w : Bytes} :
    a ++ b = .ok w ↔ ∃ u v, a = .ok u ∧ b = .ok v ∧ w = u ++ v := by
  obtain ⟨bytes,error⟩ := a
  constructor
  · intro h
    cases error with
    | some e => cases h
    | none =>
      have hw : (⟨bytes ++ b.bytes,b.error⟩ : Output) = .ok w := h
      obtain ⟨hbytes,herror⟩ := Output.mk.inj hw
      refine ⟨bytes,b.bytes,rfl,?_,hbytes.symm⟩
      rw [ok,← herror]
  · rintro ⟨u,v,ha,rfl,rfl⟩
    rw [ha]
    rfl

theorem append_assoc (a b c : Output) : a ++ b ++ c = a ++ (b ++ c) := by
  obtain ⟨bytes,error⟩ := a
  cases error with
  | some e => rfl
  | none =>
    obtain ⟨more,error⟩ := b
    cases error with
    | some e => rfl
    | none => exact congrArg (Output.mk · c.error) (List.append_assoc bytes more c.bytes)

theorem append_empty (a : Output) : a ++ .ok [] = a := by
  obtain ⟨bytes,error⟩ := a
  cases error with
  | some e => rfl
  | none => exact congrArg (Output.mk · none) (List.append_nil bytes)

theorem empty_append (a : Output) : .ok [] ++ a = a :=
  rfl

end Output

namespace Writing

/-- The writing puts the same behind everything. -/
def Appends (w : Writing) : Prop :=
  ∀ buffer, w.output buffer = .ok buffer ++ w.output []

@[simp] theorem output_put (bytes buffer : Bytes) : (put bytes).output buffer = .ok (buffer ++ bytes) := by
  change Output.ok (buffer.toArray ++ bytes).toList = _
  rw [Array.toList_appendList]

@[simp] theorem output_throw (e : ValueError) (buffer : Bytes) :
    output (throw e) buffer = ⟨buffer,some e⟩ :=
  rfl

@[simp] theorem output_return (buffer : Bytes) : output (return) buffer = .ok buffer :=
  rfl

theorem appends_put (bytes : Bytes) : Appends (put bytes) := by
  intro buffer
  rw [output_put,output_put]
  rfl

theorem appends_throw (e : ValueError) : Appends (throw e) := by
  intro buffer
  simp

theorem appends_return : Appends (return) := by
  intro buffer
  rw [output_return,output_return,Output.append_empty]

/-- Two writings, one after the other. -/
theorem output_seq {v w : Writing} (hw : w.Appends) (buffer : Bytes) :
    output (do v; w) buffer = v.output buffer ++ w.output [] := by
  cases hv : v buffer.toArray with
  | ok _ after =>
    simp only [output,EStateM.run,bind,EStateM.bind,hv]
    exact hw after.toList
  | error e after =>
    simp only [output,EStateM.run,bind,EStateM.bind,hv]
    rfl

theorem Appends.seq {v w : Writing} (hv : v.Appends) (hw : w.Appends) : Appends (do v; w) := by
  intro buffer
  rw [output_seq hw,output_seq hw,hv,Output.append_assoc]

end Writing

namespace Word

theorem unsigned_lt (width : Nat) (i : Int) : unsigned width i < Nat.pow 256 width := by
  have hpos : 0 < (256 ^ width : Nat) := Nat.pow_pos (by decide)
  have hlt : i % (256 ^ width : Nat) < (256 ^ width : Nat) :=
    Int.emod_lt_of_pos i (by exact_mod_cast hpos)
  rw [unsigned,Nat.pow_eq]
  omega

/-- A number in a range around zero is what its word says in two's complement. -/
theorem signed_unsigned {width : Nat} {i : Int} (hl : -(Nat.pow 256 width : Nat) ≤ i * 2)
    (hu : i * 2 < (Nat.pow 256 width : Nat)) : signed width (unsigned width i) = i := by
  have hpos : 0 < (256 ^ width : Nat) := Nat.pow_pos (by decide)
  have hmod : 0 ≤ i % (256 ^ width : Nat) := Int.emod_nonneg i (by omega)
  rw [signed,unsigned,Nat.pow_eq,Int.toNat_of_nonneg hmod,Int.emod_bmod]
  exact Int.bmod_eq_of_le_mul_two hl hu

theorem littleEndian_ofLittleEndian (bytes : Bytes) :
    littleEndian bytes.length (ofLittleEndian bytes) = bytes := by
  induction bytes with
  | nil => rfl
  | cons b rest ih =>
    have hb := b.toNat_lt
    have hlow : UInt8.ofNat (b.toNat + 256 * ofLittleEndian rest) = b := by
      apply UInt8.toNat_inj.mp
      rw [UInt8.toNat_ofNat']
      omega
    have hhigh : (b.toNat + 256 * ofLittleEndian rest) / 256 = ofLittleEndian rest := by omega
    rw [List.length_cons,ofLittleEndian,littleEndian,hlow,hhigh,ih]

theorem unsigned_signed {width n : Nat} (h : n < Nat.pow 256 width) :
    unsigned width (signed width n) = n := by
  have hmod : (n : Int) % (Nat.pow 256 width : Nat) = n :=
    Int.emod_eq_of_lt (Int.natCast_nonneg n) (by exact_mod_cast h)
  rw [unsigned,signed,Int.bmod_emod,hmod,Int.toNat_natCast]

end Word

namespace Value

open Writing (Appends put)

theorem appends_writeLength (what : Counted) (tag : LengthForm → Tag) (length : Nat) :
    Appends (writeLength what tag length) := by
  unfold writeLength
  split
  · exact Writing.appends_put _
  · split
    · exact Writing.appends_put _
    · exact Writing.appends_throw _

theorem appends_writeStr (bytes : Bytes) : Appends (writeStr bytes) :=
  (appends_writeLength _ _ _).seq (Writing.appends_put _)

mutual
/-- A value is written behind whatever a buffer holds. -/
theorem appends_write (v : Value) : Appends v.write := by
  cases v with
  | bool b => cases b <;> exact Writing.appends_put _
  | str bytes => exact appends_writeStr bytes
  | tuple items => exact (appends_writeLength _ _ _).seq (appends_writeItems items)
  | list items => exact (appends_writeLength _ _ _).seq (appends_writeItems items)
  | dict entries => exact (appends_writeLength _ _ _).seq (appends_writeEntries entries)
  | code h names consts cellVars =>
    exact (Writing.appends_put _).seq <| (appends_writeStr _).seq <| (appends_writeStr _).seq <|
      (appends_writeStr _).seq <| (appends_writeStr _).seq <|
      (appends_writeLength _ _ _).seq <| (appends_writeItems names).seq <|
      (appends_writeLength _ _ _).seq <| (appends_writeItems consts).seq <|
      (appends_writeLength _ _ _).seq <| (appends_writeItems cellVars).seq (Writing.appends_put _)
  | _ => exact Writing.appends_put _

theorem appends_writeItems (items : List Value) : Appends (writeItems items) := by
  cases items with
  | nil => exact Writing.appends_return
  | cons item rest => exact (appends_write item).seq (appends_writeItems rest)

theorem appends_writeEntries (entries : List (Value × Value)) : Appends (writeEntries entries) := by
  cases entries with
  | nil => exact Writing.appends_return
  | cons entry rest =>
    obtain ⟨key,value⟩ := entry
    exact (appends_write key).seq <| (appends_write value).seq (appends_writeEntries rest)
end

theorem encodeInto_eq (v : Value) (buffer : Bytes) : v.encodeInto buffer = .ok buffer ++ v.encode :=
  appends_write v buffer

/-- What a length is written as. -/
def encodeLength (what : Counted) (tag : LengthForm → Tag) (length : Nat) : Output :=
  (writeLength what tag length).output []

/-- What values in a row are written as. -/
def encodeItems (items : List Value) : Output :=
  (writeItems items).output []

theorem encodeLength_eq (what : Counted) (tag : LengthForm → Tag) (length : Nat) :
    encodeLength what tag length =
      if length ≤ 255 then .ok ((tag .short).byte :: Word.littleEndian 1 length)
      else if length ≤ maxLength then .ok ((tag .long).byte :: Word.littleEndian 2 length)
      else ⟨[],some (.lengthOutOfRange what length maxLength)⟩ := by
  unfold encodeLength writeLength
  split
  · rw [Writing.output_put,List.nil_append]
  · split
    · rw [Writing.output_put,List.nil_append]
    · rw [Writing.output_throw]

theorem encodeItems_nil : encodeItems [] = .ok [] :=
  rfl

theorem encodeItems_cons (item : Value) (rest : List Value) :
    encodeItems (item :: rest) = item.encode ++ encodeItems rest :=
  Writing.output_seq (appends_writeItems rest) []

theorem encode_of_put {v : Value} {bytes : Bytes} (h : v.write = put bytes) : v.encode = .ok bytes := by
  rw [encode,encodeInto,h,Writing.output_put,List.nil_append]

theorem encode_int (i : Int32) : encode (.int i) = .ok (encodeInt i.toInt) :=
  encode_of_put rfl

theorem encode_float (x : Binary32) :
    encode (.float x) = .ok (Tag.float.byte :: Word.littleEndian 4 x.bits.toNat) :=
  encode_of_put rfl

theorem encode_str (bytes : Bytes) :
    encode (.str bytes) = encodeLength .string .str bytes.length ++ .ok bytes := by
  refine (Writing.output_seq (Writing.appends_put bytes) []).trans ?_
  rw [Writing.output_put,List.nil_append,encodeLength]

theorem encode_tuple (items : List Value) :
    encode (.tuple items) = encodeLength .tuple .tuple items.length ++ encodeItems items :=
  Writing.output_seq (appends_writeItems items) []

theorem encode_list (items : List Value) :
    encode (.list items) = encodeLength .list .list items.length ++ encodeItems items :=
  Writing.output_seq (appends_writeItems items) []

theorem writeEntries_eq (entries : List (Value × Value)) :
    writeEntries entries = writeItems (entries.flatMap fun e => [e.1,e.2]) := by
  induction entries with
  | nil => rfl
  | cons entry rest ih => rw [writeEntries,ih,List.flatMap_cons,List.cons_append,writeItems,
      List.cons_append,writeItems,List.nil_append]

/-- The entries of a dictionary are written as its keys and values in a row. -/
theorem encode_dict (entries : List (Value × Value)) :
    encode (.dict entries) = encodeLength .dict .dict entries.length ++
      encodeItems (entries.flatMap fun e => [e.1,e.2]) := by
  rw [encodeItems,← writeEntries_eq]
  exact Writing.output_seq (appends_writeEntries entries) []

theorem encodeLength_eq_ok {what : Counted} {tag : LengthForm → Tag} {length : Nat} {w : Bytes}
    (h : encodeLength what tag length = .ok w) :
    ∃ form, w = (tag form).byte :: Word.littleEndian form.width length ∧
      length < Nat.pow 256 form.width := by
  rw [encodeLength_eq] at h
  split at h
  · next hl =>
    have hlt : length < 256 := by omega
    exact ⟨.short,(Output.ok_inj.mp h).symm,hlt⟩
  · split at h
    · next hl =>
      rw [maxLength] at hl
      have hlt : length < 65536 := by omega
      exact ⟨.long,(Output.ok_inj.mp h).symm,hlt⟩
    · cases h

theorem encode_row_eq_ok {what : Counted} {tag : LengthForm → Tag} {length : Nat} {items : Output}
    {w : Bytes} (h : encodeLength what tag length ++ items = .ok w) :
    ∃ form v, items = .ok v ∧ length < Nat.pow 256 form.width ∧
      w = (tag form).byte :: (Word.littleEndian form.width length ++ v) := by
  obtain ⟨u,v,hu,hv,rfl⟩ := Output.append_eq_ok.mp h
  obtain ⟨form,rfl,hl⟩ := encodeLength_eq_ok hu
  exact ⟨form,v,hv,hl,rfl⟩

/-- The bytes a value is written as, up to the first error if there is one. -/
def image (v : Value) : Bytes :=
  v.encode.bytes

def entryImage (e : Value × Value) : Bytes :=
  e.1.image ++ e.2.image

theorem encode_eq_ok {v : Value} {w : Bytes} (h : v.encode = .ok w) : v.encode = .ok v.image := by
  rw [image,h]
  rfl

theorem encodeItems_eq_ok {items : List Value} {w : Bytes} (h : encodeItems items = .ok w) :
    (∀ v ∈ items, v.encode = .ok v.image) ∧ w = items.flatMap image := by
  induction items generalizing w with
  | nil =>
    rw [encodeItems_nil] at h
    exact ⟨List.forall_mem_nil _,(Output.ok_inj.mp h).symm⟩
  | cons item rest ih =>
    rw [encodeItems_cons] at h
    obtain ⟨u,v,hu,hv,rfl⟩ := Output.append_eq_ok.mp h
    obtain ⟨hrest,rfl⟩ := ih hv
    refine ⟨List.forall_mem_cons.mpr ⟨encode_eq_ok hu,hrest⟩,?_⟩
    rw [List.flatMap_cons,image,hu,Output.ok]

/-- So are the keys and values of a dictionary. -/
theorem encodeEntries_eq_ok {entries : List (Value × Value)} {w : Bytes}
    (h : encodeItems (entries.flatMap fun e => [e.1,e.2]) = .ok w) :
    (∀ e ∈ entries, e.1.encode = .ok e.1.image ∧ e.2.encode = .ok e.2.image) ∧
      w = entries.flatMap entryImage := by
  obtain ⟨hparts,rfl⟩ := encodeItems_eq_ok h
  refine ⟨fun e he => ⟨hparts _ ?_,hparts _ ?_⟩,?_⟩
  · exact List.mem_flatMap.mpr ⟨e,he,by simp⟩
  · exact List.mem_flatMap.mpr ⟨e,he,by simp⟩
  · simp only [List.flatMap_assoc,List.flatMap_cons,List.flatMap_nil,List.append_nil]
    rfl

theorem encodeItems_append (vs vs' : List Value) :
    encodeItems (vs ++ vs') = encodeItems vs ++ encodeItems vs' := by
  induction vs with
  | nil => rw [encodeItems_nil,List.nil_append,Output.empty_append]
  | cons v rest ih => rw [List.cons_append,encodeItems_cons,encodeItems_cons,ih,Output.append_assoc]

theorem encodeItems_singleton (v : Value) : encodeItems [v] = v.encode := by
  rw [encodeItems_cons,encodeItems_nil,Output.append_empty]

/-- A code object is its tag, its parts in a row and the plain fields behind them. -/
theorem encode_code (h : CodeHeader) (names consts cellVars : List Value) :
    encode (.code h names consts cellVars) = .ok [Tag.code.byte] ++ (.ok [] ++
      (encodeItems [.str h.name,.str h.filename,.str h.bytecode,.str h.lineTable,.tuple names,
        .tuple consts,.tuple cellVars] ++ .ok (encodeTrailer h))) := by
  let parts : List Value := [.str h.name,.str h.filename,.str h.bytecode,.str h.lineTable,.tuple names,
    .tuple consts,.tuple cellVars]
  let behind : Writing := do
    writeItems parts
    put (encodeTrailer h)
  have hback : Appends (put (encodeTrailer h)) := Writing.appends_put _
  have hbehind : behind.output [] = encodeItems parts ++ .ok (encodeTrailer h) := by
    rw [Writing.output_seq hback,Writing.output_put,List.nil_append,encodeItems]
  have hall : write (.code h names consts cellVars) = (do put [Tag.code.byte]; behind) := by
    simp only [behind,parts,write,writeItems,bind_assoc,pure_bind]
  have happends : Appends behind := (appends_writeItems parts).seq hback
  rw [encode,encodeInto,hall,Writing.output_seq happends,hbehind,Writing.output_put,
    Output.empty_append,List.nil_append]

theorem encode_str_eq_ok {bytes w : Bytes} (h : encode (.str bytes) = .ok w) :
    ∃ form, w = (Tag.str form).byte :: (Word.littleEndian form.width bytes.length ++ bytes) ∧
      bytes.length < Nat.pow 256 form.width := by
  rw [encode_str] at h
  obtain ⟨form,v,hv,hl,rfl⟩ := encode_row_eq_ok h
  rw [← Output.ok_inj.mp hv]
  exact ⟨form,rfl,hl⟩

theorem encode_code_eq_ok {h : CodeHeader} {names consts cellVars : List Value} {w : Bytes}
    (he : encode (.code h names consts cellVars) = .ok w) :
    ∃ w₁ w₂ w₃ w₄ w₅ w₆ w₇, encode (.str h.name) = .ok w₁ ∧ encode (.str h.filename) = .ok w₂ ∧
      encode (.str h.bytecode) = .ok w₃ ∧ encode (.str h.lineTable) = .ok w₄ ∧
      encode (.tuple names) = .ok w₅ ∧ encode (.tuple consts) = .ok w₆ ∧
      encode (.tuple cellVars) = .ok w₇ ∧
      w = Tag.code.byte :: (w₁ ++ (w₂ ++ (w₃ ++ (w₄ ++ (w₅ ++ (w₆ ++ (w₇ ++ encodeTrailer h))))))) := by
  simp only [encode_code,encodeItems_cons,encodeItems_nil,Output.append_assoc,Output.empty_append] at he
  obtain ⟨w₀,v₀,h₀,hv₀,rfl⟩ := Output.append_eq_ok.mp he
  obtain ⟨w₁,v₁,h₁,hv₁,rfl⟩ := Output.append_eq_ok.mp hv₀
  obtain ⟨w₂,v₂,h₂,hv₂,rfl⟩ := Output.append_eq_ok.mp hv₁
  obtain ⟨w₃,v₃,h₃,hv₃,rfl⟩ := Output.append_eq_ok.mp hv₂
  obtain ⟨w₄,v₄,h₄,hv₄,rfl⟩ := Output.append_eq_ok.mp hv₃
  obtain ⟨w₅,v₅,h₅,hv₅,rfl⟩ := Output.append_eq_ok.mp hv₄
  obtain ⟨w₆,v₆,h₆,hv₆,rfl⟩ := Output.append_eq_ok.mp hv₅
  obtain ⟨w₇,v₇,h₇,hv₇,rfl⟩ := Output.append_eq_ok.mp hv₆
  refine ⟨w₁,w₂,w₃,w₄,w₅,w₆,w₇,h₁,h₂,h₃,h₄,h₅,h₆,h₇,?_⟩
  rw [← Output.ok_inj.mp h₀,← Output.ok_inj.mp hv₇]
  rfl

end Value

end RemotePyMite
