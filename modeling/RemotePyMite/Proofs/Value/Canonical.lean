import RemotePyMite.Proofs.Value.RoundTrip
import RemotePyMite.Proofs.Value.Written

/-! # The byte form of a value is its shortest writing

Of all the bytes that a value can be read from, the byte form is the one in which each head is minimal,
and all others are longer.
-/
namespace RemotePyMite

/-- The bytes `w` are those used before if the heads in these are minimal, and fewer if not. -/
structure Shortens (used w : Bytes) (minimal : Bool) : Prop where
  same : minimal = true → w = used
  fewer : minimal = false → w.length < used.length

namespace Shortens
variable {used w used' w' : Bytes} {minimal minimal' : Bool}

theorem refl (w : Bytes) : Shortens w w true :=
  ⟨fun _ => rfl,fun h => absurd h (by decide)⟩

theorem of_lt (h : w.length < used.length) : Shortens used w false :=
  ⟨fun hm => absurd hm (by decide),fun _ => h⟩

theorem length_le (h : Shortens used w minimal) : w.length ≤ used.length := by
  cases minimal with
  | true => exact Nat.le_of_eq (congrArg List.length (h.same rfl))
  | false => exact Nat.le_of_lt (h.fewer rfl)

theorem eq_iff (h : Shortens used w minimal) : w = used ↔ minimal = true := by
  refine ⟨fun heq => ?_,h.same⟩
  by_contra hm
  have hlt := h.fewer (Bool.eq_false_iff.mpr hm)
  rw [heq] at hlt
  exact Nat.lt_irrefl _ hlt

theorem append (h : Shortens used w minimal) (h' : Shortens used' w' minimal') :
    Shortens (used ++ used') (w ++ w') (minimal && minimal') := by
  constructor
  · intro hm
    obtain ⟨ht,ht'⟩ := Bool.and_eq_true_iff.mp hm
    rw [h.same ht,h'.same ht']
  · intro hm
    have hlen := h.length_le
    have hlen' := h'.length_le
    rw [List.length_append,List.length_append]
    rcases Bool.and_eq_false_iff.mp hm with hf | hf
    · have hlt := h.fewer hf
      omega
    · have hlt := h'.fewer hf
      omega

end Shortens

theorem Word.signed_bounds (width n : Nat) :
    -((Nat.pow 256 width : Nat) / 2) ≤ signed width n ∧
      signed width n < ((Nat.pow 256 width : Nat) + 1) / 2 := by
  have hpos : 0 < Nat.pow 256 width := Nat.pow_pos (by decide)
  exact ⟨Int.le_bmod hpos,Int.bmod_lt hpos⟩

theorem Word.toInt_ofInt_signed {width : Nat} (hw : width ≤ 4) (n : Nat) :
    (Int32.ofInt (signed width n)).toInt = signed width n := by
  have hbounds := signed_bounds width n
  have hle : Nat.pow 256 width ≤ 4294967296 := Nat.pow_le_pow_right (by decide) hw
  exact Int32.toInt_ofInt_of_le (by omega) (by omega)

namespace Value

/-- The smallest form is that of the head if the head is minimal, and else it is shorter. -/
theorem exists_least_length (what : Counted) (tag : LengthForm → Tag) {form : LengthForm} {n : Nat}
    (hw : ∀ form, (tag form).width = form.width) (hn : n < Nat.pow 256 form.width)
    (hs : (Head.mk (tag .short) n).isMinimal = true)
    (hl : (Head.mk (tag .long) n).isMinimal = decide (255 < n)) :
    ∃ least, encodeLength what tag n = .ok least ∧
      Shortens (Head.mk (tag form) n).bytes least (Head.mk (tag form) n).isMinimal := by
  have hshort : (Head.mk (tag .short) n).bytes = (tag .short).byte :: Word.littleEndian 1 n := by
    rw [Head.bytes,hw,LengthForm.width]
  have hlong : (Head.mk (tag .long) n).bytes = (tag .long).byte :: Word.littleEndian 2 n := by
    rw [Head.bytes,hw,LengthForm.width]
  rw [encodeLength_eq]
  by_cases hle : n ≤ 255
  · refine ⟨_,if_pos hle,?_⟩
    rw [← hshort]
    cases form with
    | short =>
      rw [hs]
      exact .refl _
    | long =>
      rw [hl,decide_eq_false (by omega)]
      refine .of_lt ?_
      rw [hshort,hlong]
      simp
  · cases form with
    | short =>
      have hlt : n < 256 := hn
      omega
    | long =>
      have hlt : n < 65536 := hn
      have hmax : n ≤ maxLength := Nat.le_of_lt_succ hlt
      refine ⟨_,(if_neg hle).trans (if_pos hmax),?_⟩
      rw [← hlong,hl,decide_eq_true (by omega)]
      exact .refl _

theorem length_encodeInt_le {i : Int} :
    (-128 ≤ i ∧ i ≤ 127 → (encodeInt i).length ≤ 2) ∧
      (-32768 ≤ i ∧ i ≤ 32767 → (encodeInt i).length ≤ 3) := by
  unfold encodeInt
  split
  · simp
  · split
    · simp
    · split <;> simp [*]

theorem shortens_int8 {n : Nat} (hn : n < Nat.pow 256 1) :
    Shortens (Head.mk .int8 n).bytes (encodeInt (Word.signed 1 n)) (Head.mk .int8 n).isMinimal := by
  have hbounds : -128 ≤ Word.signed 1 n ∧ Word.signed 1 n < 128 := Word.signed_bounds 1 n
  by_cases h : 0 ≤ Word.signed 1 n ∧ Word.signed 1 n < 10
  · have hm : (Head.mk .int8 n).isMinimal = false := by simp [Head.isMinimal,h]
    rw [hm,encodeInt,dif_pos h]
    exact .of_lt (Nat.lt_succ_self 1)
  · have hm : (Head.mk .int8 n).isMinimal = true := by rw [Head.isMinimal,decide_eq_true h]
    rw [hm,encodeInt,dif_neg h,if_pos (by omega),Word.unsigned_signed hn]
    exact .refl _

theorem shortens_int16 {n : Nat} (hn : n < Nat.pow 256 2) :
    Shortens (Head.mk .int16 n).bytes (encodeInt (Word.signed 2 n)) (Head.mk .int16 n).isMinimal := by
  have hbounds : -32768 ≤ Word.signed 2 n ∧ Word.signed 2 n < 32768 := Word.signed_bounds 2 n
  by_cases h : -128 ≤ Word.signed 2 n ∧ Word.signed 2 n ≤ 127
  · have hm : (Head.mk .int16 n).isMinimal = false := by simp [Head.isMinimal,h]
    rw [hm]
    exact .of_lt (Nat.lt_succ_of_le (length_encodeInt_le.1 h))
  · have hm : (Head.mk .int16 n).isMinimal = true := by rw [Head.isMinimal,decide_eq_true h]
    rw [hm,encodeInt,dif_neg (by omega),if_neg h,if_pos (by omega),Word.unsigned_signed hn]
    exact .refl _

theorem shortens_int32 {n : Nat} (hn : n < Nat.pow 256 4) :
    Shortens (Head.mk .int32 n).bytes (encodeInt (Word.signed 4 n)) (Head.mk .int32 n).isMinimal := by
  by_cases h : -32768 ≤ Word.signed 4 n ∧ Word.signed 4 n ≤ 32767
  · have hm : (Head.mk .int32 n).isMinimal = false := by simp [Head.isMinimal,h]
    rw [hm]
    exact .of_lt (Nat.lt_succ_of_lt (Nat.lt_succ_of_le (length_encodeInt_le.2 h)))
  · have hm : (Head.mk .int32 n).isMinimal = true := by rw [Head.isMinimal,decide_eq_true h]
    rw [hm,encodeInt,dif_neg (by omega),if_neg (by omega),if_neg h,Word.unsigned_signed hn]
    exact .refl _

/-- A value is written with its least head in front of what the head calls for. -/
theorem Layout.exists_least {v : Value} {head : Head} {text trailer : Bytes} {parts : List Value}
    (h : Layout v head text parts trailer) (hn : head.number < Nat.pow 256 head.tag.width) :
    ∃ least, v.encode = .ok least ++ (.ok text ++ (encodeItems parts ++ .ok trailer)) ∧
      Shortens head.bytes least head.isMinimal := by
  have hleaf {w : Bytes} : Output.ok w ++ (.ok [] ++ (encodeItems [] ++ .ok [])) = .ok w := by
    rw [encodeItems_nil]
    exact Output.append_empty _
  cases h with
  | none => exact ⟨[Tag.none.byte],by rw [hleaf,encode_of_put rfl],.refl _⟩
  | true => exact ⟨[Tag.true.byte],by rw [hleaf,encode_of_put rfl],.refl _⟩
  | false => exact ⟨[Tag.false.byte],by rw [hleaf,encode_of_put rfl],.refl _⟩
  | digit d =>
    have hd : (Int32.ofNat d).toInt = d := by
      revert d
      decide
    have hw : encodeInt d = (Head.mk (.digit d) 0).bytes := by
      revert d
      decide
    exact ⟨_,by rw [hleaf,encode_int,hd,hw],.refl _⟩
  | int8 n => exact ⟨_,by rw [hleaf,encode_int,Word.toInt_ofInt_signed (by decide)],shortens_int8 hn⟩
  | int16 n => exact ⟨_,by rw [hleaf,encode_int,Word.toInt_ofInt_signed (by decide)],shortens_int16 hn⟩
  | int32 n => exact ⟨_,by rw [hleaf,encode_int,Word.toInt_ofInt_signed (by decide)],shortens_int32 hn⟩
  | float n =>
    have hbits : (UInt32.ofNat n).toNat = n := UInt32.toNat_ofNat_of_lt hn
    refine ⟨_,?_,.refl _⟩
    rw [hleaf,encode_float,hbits]
    rfl
  | str form text =>
    obtain ⟨least,hl,hs⟩ := exists_least_length .string .str (fun _ => rfl) hn rfl rfl
    refine ⟨least,?_,hs⟩
    rw [encode_str,hl,encodeItems_nil,Output.append_empty]
    exact congrArg (Output.ok least ++ ·) (Output.append_empty _).symm
  | tuple form items =>
    obtain ⟨least,hl,hs⟩ := exists_least_length .tuple .tuple (fun _ => rfl) hn rfl rfl
    refine ⟨least,?_,hs⟩
    rw [encode_tuple,hl,Output.empty_append,Output.append_empty]
  | list form items =>
    obtain ⟨least,hl,hs⟩ := exists_least_length .list .list (fun _ => rfl) hn rfl rfl
    refine ⟨least,?_,hs⟩
    rw [encode_list,hl,Output.empty_append,Output.append_empty]
  | dict form entries =>
    obtain ⟨least,hl,hs⟩ := exists_least_length .dict .dict (fun _ => rfl) hn rfl rfl
    refine ⟨least,?_,hs⟩
    rw [encode_dict,hl,Output.empty_append,Output.append_empty]
  | code h names consts cellVars => exact ⟨_,encode_code h names consts cellVars,.refl _⟩

/-- So are values in a row. -/
theorem Written.exists_shortens {k : Nat} {vs : List Value} {heads : List Head} {used : Bytes}
    (h : Written k vs heads used) :
    ∃ w, encodeItems vs = .ok w ∧ Shortens used w (heads.all Head.isMinimal) := by
  induction h with
  | nil k => exact ⟨[],encodeItems_nil,.refl []⟩
  | append _ _ ih ih' =>
    obtain ⟨w,hw,hs⟩ := ih
    obtain ⟨w',hw',hs'⟩ := ih'
    refine ⟨w ++ w',?_,?_⟩
    · rw [encodeItems_append,hw,hw']
      rfl
    · rw [List.all_append]
      exact hs.append hs'
  | @value k v head text trailer parts heads inner hl hn _ ih =>
    obtain ⟨w,hw,hs⟩ := ih
    obtain ⟨least,hv,hleast⟩ := hl.exists_least hn
    refine ⟨least ++ (text ++ (w ++ trailer)),?_,?_⟩
    · rw [encodeItems_singleton,hv,hw]
      rfl
    · have hall := hleast.append ((Shortens.refl text).append (hs.append (.refl trailer)))
      rwa [Bool.true_and,Bool.and_true,← List.all_cons] at hall

/-- Any bytes from which a value is read are as long as its byte form at least, and they are its byte
form if and only if each head in them is minimal. -/
theorem encode_of_decode {input : Bytes} {v : Value} {n : Nat} (h : decode input = .ok (v,n)) :
    ∃ w heads, v.encode.result = .ok w ∧ decode w = .ok (v,w.length) ∧ w.length ≤ n ∧
      Value.heads (input.take n) = .ok (heads,n) ∧
      (w = input.take n ↔ ∀ head ∈ heads, head.isMinimal) ∧
      ((¬∀ head ∈ heads, head.isMinimal) → w.length < n) := by
  unfold decode at h
  cases hr : (Reader.value (maxDepth + 1)).run (.start input) with
  | error e =>
    rw [hr] at h
    cases h
  | ok p =>
    obtain ⟨u,c⟩ := p
    obtain ⟨used,hinput,hoffset,heads,hwritten⟩ := Reader.reads_value _ _ u c hr
    rw [hr] at h
    cases h
    have hrest : input = used ++ c.rest := hinput
    have hn : c.offset = used.length := hoffset.trans (Nat.zero_add _)
    have htake : input.take c.offset = used := by rw [hrest,hn,List.take_left]
    obtain ⟨w,hw,hs⟩ := hwritten.exists_shortens
    obtain ⟨rows,hrows,rfl⟩ := Reader.gives_heads hwritten
    obtain ⟨found,rfl,hg⟩ := hrows.of_times_one
    rw [encodeItems_singleton] at hw
    have hrank : v.rank ≤ maxDepth := by
      have hlevels := levels_le_iff.mp hwritten.levels_le
      exact Nat.le_of_lt_succ (hlevels v (List.mem_singleton_self v))
    have hagain := decode_append hw []
    rw [List.append_nil,if_pos hrank] at hagain
    have hheads : Value.heads used = .ok (found,c.offset) := by
      have hfound := hg.found trivial 0 []
      rw [List.append_nil,Nat.zero_add] at hfound
      rw [Value.heads,StateT.run,Cursor.start,hfound,hn]
      rfl
    rw [List.flatten_singleton] at hs
    have hall : found.all Head.isMinimal = true ↔ ∀ head ∈ found, head.isMinimal = true :=
      List.all_eq_true
    rw [htake]
    refine ⟨w,found,Output.result_eq_ok.mpr hw,hagain,hn ▸ hs.length_le,hheads,hs.eq_iff.trans hall,?_⟩
    intro hnot
    rw [hn]
    exact hs.fewer (Bool.eq_false_iff.mpr fun ht => hnot (hall.mp ht))

/-- A tuple of two in the form for long ones, of a code object with a long name and of an integer in two
bytes too many. -/
theorem encode_of_decode_code :
    let input : Bytes := [41,2,0,67,83,1,0,98,115,0,115,0,115,0,40,0,40,1,66,7,40,0,1,0,0,0,0,0,0,
      72,5,0,99]
    let v : Value := .tuple [.code ⟨[98],[],[],[],1,0,0,0,0,0⟩ [] [.int 7] [],.int 5]
    decode input = .ok (v,32) ∧
      ∃ w heads, v.encode.result = .ok w ∧ decode w = .ok (v,w.length) ∧ w.length ≤ 32 ∧
        Value.heads (input.take 32) = .ok (heads,32) ∧
        (w = input.take 32 ↔ ∀ head ∈ heads, head.isMinimal) ∧
        ((¬∀ head ∈ heads, head.isMinimal) → w.length < 32) := by
  intro input v
  have hv : v.encode = .ok [40,2,67,115,1,98,115,0,115,0,115,0,40,0,40,1,55,40,0,1,0,0,0,0,0,0,53] := by
    decide +kernel
  have hsame : (decode input).toOption.map (fun p => (p.1.encode,p.2)) = some (v.encode,32) := by
    decide +kernel
  have h : decode input = .ok (v,32) := by
    cases hd : decode input with
    | error e =>
      rw [hd] at hsame
      cases hsame
    | ok p =>
      rw [hd] at hsame
      obtain ⟨hencode,hoffset⟩ := Prod.mk.inj (Option.some.inj hsame)
      have hp : p = (v,32) := Prod.ext (encode_injective (hencode.trans hv) hv) hoffset
      rw [hp]
  exact ⟨h,encode_of_decode h⟩

end Value

end RemotePyMite
