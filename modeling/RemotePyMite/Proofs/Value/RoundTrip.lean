import Mathlib.Data.List.Forall2
import RemotePyMite.Proofs.Value.Consumption
import RemotePyMite.Proofs.Value.Rank
import RemotePyMite.Proofs.Value.Reading

/-! # A value comes back from its byte form

The reader of a value that may open some levels gives back any value of a smaller rank from its
byte form, whatever follows, and finds any other value nested too deeply.  The induction is on
the value, for any number of levels: an item of a tuple has one level less than the tuple.
-/
namespace RemotePyMite

namespace Value
open Reader

/-- The reader of values gives this one back from its byte form if its rank allows. -/
def Returns (v : Value) : Prop :=
  ∀ levels w, v.encode = .ok w → Gives (value levels) w (v.rank < levels) v

/-- It is enough to look behind the tag. -/
theorem returns_of_content {v : Value} (h : ∀ w, v.encode = .ok w → ∃ (tag : Tag) (body : Bytes),
    w = tag.byte :: body ∧
      ∀ levels, Gives (content (value levels) tag) body (v.rank ≤ levels) v) : Returns v := by
  intro levels w hw
  cases levels with
  | zero => exact (gives_value_zero w v).congr (by simp)
  | succ levels =>
    obtain ⟨tag,body,rfl,hbody⟩ := h w hw
    exact (hbody levels).value.congr Nat.lt_succ_iff.symm

theorem gives_row {α : Type} {read : Reader α} {image : α → Bytes} {fits : α → Prop} {xs : List α}
    (h : ∀ x ∈ xs, Gives read (image x) (fits x) x) {form : LengthForm}
    (hl : xs.length < Nat.pow 256 form.width) (f : List α → Value) :
    Gives (do return f (← times (← word form.width) read))
      (Word.littleEndian form.width xs.length ++ xs.flatMap image) (∀ x ∈ xs, fits x) (f xs) := by
  refine Gives.congr ?_ (iff_of_eq (true_and (∀ x ∈ xs, fits x)))
  exact (gives_word _ hl).bind ((gives_times h).map f)

theorem gives_signed (width : Nat) {i : Int32} (hl : -(Nat.pow 256 width : Nat) ≤ i.toInt * 2)
    (hu : i.toInt * 2 < (Nat.pow 256 width : Nat)) :
    Gives (do return Value.int (Int32.ofInt (Word.signed width (← word width))))
      (Word.littleEndian width (Word.unsigned width i.toInt)) True (.int i) := by
  have hg := (gives_word width (Word.unsigned_lt width i.toInt)).map
    fun n => Value.int (Int32.ofInt (Word.signed width n))
  rwa [Word.signed_unsigned hl hu,Int32.ofInt_toInt] at hg

/-- An integer comes back from the smallest form it has. -/
theorem exists_int_form (i : Int32) : ∃ (tag : Tag) (body : Bytes),
    encodeInt i.toInt = tag.byte :: body ∧
      ∀ read, Gives (content read tag) body True (.int i) := by
  have hl := i.le_toInt
  have hu := i.toInt_lt
  have hone : Nat.pow 256 1 = 256 := rfl
  have htwo : Nat.pow 256 2 = 65536 := rfl
  have hfour : Nat.pow 256 4 = 4294967296 := rfl
  unfold encodeInt
  split
  · next h =>
    have hd : Int32.ofNat i.toInt.toNat = i := by
      rw [← Int32.ofInt_eq_ofNat,Int.toNat_of_nonneg h.1,Int32.ofInt_toInt]
    refine ⟨_,[],rfl,fun read => ?_⟩
    change Gives (pure (Value.int (Int32.ofNat i.toInt.toNat))) [] True (.int i)
    rw [hd]
    exact gives_pure _
  · split
    · exact ⟨.int8,_,rfl,fun read => gives_signed 1 (by omega) (by omega)⟩
    · split
      · exact ⟨.int16,_,rfl,fun read => gives_signed 2 (by omega) (by omega)⟩
      · exact ⟨.int32,_,rfl,fun read => gives_signed 4 (by omega) (by omega)⟩

theorem returns_int (i : Int32) : Returns (.int i) := by
  refine returns_of_content fun w hw => ?_
  rw [encode_int] at hw
  obtain ⟨tag,body,he,hbody⟩ := exists_int_form i
  refine ⟨tag,body,(Output.ok_inj.mp hw).symm.trans he,fun levels => ?_⟩
  exact (hbody _).congr (by simp [rank])

theorem returns_float (x : Binary32) : Returns (.float x) := by
  refine returns_of_content fun w hw => ?_
  rw [encode_float] at hw
  refine ⟨.float,_,(Output.ok_inj.mp hw).symm,fun levels => ?_⟩
  have hg := (gives_word 4 x.bits.toNat_lt).map fun n => Value.float ⟨UInt32.ofNat n⟩
  rw [UInt32.ofNat_toNat] at hg
  exact hg.congr (by simp [rank])

theorem returns_str (bytes : Bytes) : Returns (.str bytes) := by
  refine returns_of_content fun w hw => ?_
  obtain ⟨form,rfl,hl⟩ := encode_str_eq_ok hw
  refine ⟨.str form,_,rfl,fun levels => ?_⟩
  have hg := (gives_word _ hl).bind (f := fun n => do return Value.str (← take n))
    ((gives_take bytes).map Value.str)
  exact hg.congr (by simp [rank])

theorem returns_tuple {items : List Value} (h : ∀ v ∈ items, Returns v) :
    Returns (.tuple items) := by
  refine returns_of_content fun w hw => ?_
  rw [encode_tuple] at hw
  obtain ⟨form,v,hv,hl,rfl⟩ := encode_row_eq_ok hw
  obtain ⟨hitems,rfl⟩ := encodeItems_eq_ok hv
  refine ⟨.tuple form,_,rfl,fun levels => ?_⟩
  have hg := gives_row (fun v hv => h v hv levels v.image (hitems v hv)) hl Value.tuple
  exact hg.congr levels_le_iff.symm

theorem returns_list {items : List Value} (h : ∀ v ∈ items, Returns v) :
    Returns (.list items) := by
  refine returns_of_content fun w hw => ?_
  rw [encode_list] at hw
  obtain ⟨form,v,hv,hl,rfl⟩ := encode_row_eq_ok hw
  obtain ⟨hitems,rfl⟩ := encodeItems_eq_ok hv
  refine ⟨.list form,_,rfl,fun levels => ?_⟩
  have hg := gives_row (fun v hv => h v hv levels v.image (hitems v hv)) hl Value.list
  exact hg.congr levels_le_iff.symm

theorem returns_dict {entries : List (Value × Value)}
    (h : ∀ e ∈ entries, Returns e.1 ∧ Returns e.2) : Returns (.dict entries) := by
  refine returns_of_content fun w hw => ?_
  rw [encode_dict] at hw
  obtain ⟨form,v,hv,hl,rfl⟩ := encode_row_eq_ok hw
  obtain ⟨hentries,rfl⟩ := encodeEntries_eq_ok hv
  refine ⟨.dict form,_,rfl,fun levels => ?_⟩
  have hentry (e : Value × Value) (he : e ∈ entries) :
      Gives (do let key ← value levels; let item ← value levels; return (key,item))
        (entryImage e) (e.1.rank < levels ∧ e.2.rank < levels) e := by
    obtain ⟨hk,hi⟩ := h e he
    obtain ⟨hkey,hitem⟩ := hentries e he
    exact (hk levels _ hkey).bind ((hi levels _ hitem).map fun item => (e.1,item))
  exact (gives_row hentry hl Value.dict).congr entryLevels_le_iff.symm

theorem returns_code {h : CodeHeader} {names consts cellVars : List Value}
    (hn : ∀ v ∈ names, Returns v) (hc : ∀ v ∈ consts, Returns v)
    (hv : ∀ v ∈ cellVars, Returns v) : Returns (.code h names consts cellVars) := by
  refine returns_of_content fun w hw => ?_
  obtain ⟨w₁,w₂,w₃,w₄,w₅,w₆,w₇,h₁,h₂,h₃,h₄,h₅,h₆,h₇,rfl⟩ := encode_code_eq_ok hw
  refine ⟨.code,_,rfl,fun levels => ?_⟩
  have hg := (gives_codeObject (returns_str _ levels _ h₁) (returns_str _ levels _ h₂)
    (returns_str _ levels _ h₃) (returns_str _ levels _ h₄) (returns_tuple hn levels _ h₅)
    (returns_tuple hc levels _ h₆) (returns_tuple hv levels _ h₇)).map CodeObject.toValue
  refine hg.congr ?_
  simp only [rank]
  omega

theorem returns (v : Value) : Returns v := by
  induction v using Value.induction with
  | none =>
    refine returns_of_content fun w hw => ⟨.none,[],(Output.ok_inj.mp hw).symm,fun levels => ?_⟩
    exact (gives_pure _).congr (by simp [rank])
  | bool b =>
    cases b with
    | true =>
      refine returns_of_content fun w hw => ⟨.true,[],(Output.ok_inj.mp hw).symm,fun levels => ?_⟩
      exact (gives_pure _).congr (by simp [rank])
    | false =>
      refine returns_of_content fun w hw => ⟨.false,[],(Output.ok_inj.mp hw).symm,fun levels => ?_⟩
      exact (gives_pure _).congr (by simp [rank])
  | int i => exact returns_int i
  | float x => exact returns_float x
  | str bytes => exact returns_str bytes
  | tuple items ih => exact returns_tuple ih
  | list items ih => exact returns_list ih
  | dict entries ih => exact returns_dict ih
  | code h names consts cellVars hn hc hv => exact returns_code hn hc hv

/-- No two values have one byte form. -/
theorem encode_injective {u v : Value} {w : Bytes} (hu : u.encode = .ok w) (hv : v.encode = .ok w) :
    u = v := by
  let levels := max u.rank v.rank + 1
  have hru : u.rank < levels := Nat.lt_succ_of_le (Nat.le_max_left ..)
  have hrv : v.rank < levels := Nat.lt_succ_of_le (Nat.le_max_right ..)
  have hfu := (returns u levels w hu).found hru 0 []
  have hfv := (returns v levels w hv).found hrv 0 []
  have hpair := Except.ok.inj (hfu.symm.trans hfv)
  exact congrArg Prod.fst hpair

/-- The values of an input that holds nothing but values, each taken off the front of what the
ones before it leave. -/
def decodeSeq (input : Bytes) : Except ValueError (List Value) :=
  if input = [] then .ok []
  else
    match _h : decode input with
    | .error e => .error e
    | .ok (v,n) => do
      let more ← decodeSeq (input.drop n)
      return v :: more
termination_by input.length
decreasing_by
  obtain ⟨used,rest,rfl,hl,hn⟩ := exists_of_decode _h
  rw [List.length_drop,List.length_append]
  omega

theorem decodeSeq_of_decode {input : Bytes} {v : Value} {n : Nat}
    (h : decode input = .ok (v,n)) :
    decodeSeq input = (do return v :: (← decodeSeq (input.drop n))) := by
  obtain ⟨used,rest,rfl,hl,hn⟩ := exists_of_decode h
  have hne : used ++ rest ≠ [] := List.append_ne_nil_of_left_ne_nil (List.length_pos_iff.mp (hl ▸ hn)) _
  rw [decodeSeq,if_neg hne]
  split
  · next e he => rw [h] at he; cases he
  · next u m hu => rw [h] at hu; cases hu; rfl

theorem decode_append {v : Value} {w : Bytes} (h : v.encode = .ok w) (rest : Bytes) :
    decode (w ++ rest) =
      if v.rank ≤ maxDepth then .ok (v,w.length) else .error (.tooDeep maxDepth) := by
  have hg := returns v (maxDepth + 1) w h
  unfold decode
  split
  · next hr =>
    have hf : (value (maxDepth + 1)).run (.start (w ++ rest)) = _ :=
      hg.found (Nat.lt_succ_of_le hr) 0 rest
    rw [hf,Nat.zero_add]
    rfl
  · next hr =>
    have hf : (value (maxDepth + 1)).run (.start (w ++ rest)) = _ :=
      hg.refused (fun h => hr (Nat.le_of_lt_succ h)) 0 rest
    rw [hf]
    rfl

/-- A value of rank up to the limit comes back from its byte form, whatever follows, and any
other is refused for its depth.  So values of such ranks, written one behind another, come back
one after another. -/
theorem decode_encode :
    (∀ v w rest, v.encode.result = .ok w → decode (w ++ rest) =
      if v.rank ≤ 64 then .ok (v,w.length) else .error (.tooDeep 64)) ∧
    ∀ vs ws, List.Forall₂ (fun v w => v.encode.result = .ok w ∧ v.rank ≤ 64) vs ws →
      decodeSeq ws.flatten = .ok vs := by
  have hone (v : Value) (w rest : Bytes) (h : v.encode.result = .ok w) : decode (w ++ rest) =
      if v.rank ≤ 64 then .ok (v,w.length) else .error (.tooDeep 64) :=
    decode_append (Output.result_eq_ok.mp h) rest
  refine ⟨hone,?_⟩
  intro vs ws h
  induction h with
  | nil => rw [List.flatten_nil,decodeSeq,if_pos rfl]
  | @cons v w vs ws hv _ ih =>
    have hd := hone v w ws.flatten hv.1
    rw [if_pos hv.2] at hd
    rw [List.flatten_cons,decodeSeq_of_decode hd,List.drop_left,ih]
    rfl

/-- A value with a code object in it, written twice, and sixty-five lists in each other. -/
theorem decode_encode_code :
    let header : CodeHeader := ⟨[],[98],[],[],1,0,0,0,0,0⟩
    let v : Value := .tuple [.int (-129),.dict [(.str [97],.code header [] [.int 7] [])]]
    let w : Bytes := [40,2,72,127,255,123,1,115,1,97,67,115,0,115,1,98,115,0,115,0,40,0,40,1,55,
      40,0,1,0,0,0,0,0,0]
    let deep := (List.replicate 65 ()).foldr (fun _ inner => Value.list [inner]) .none
    let image : Bytes := (List.replicate 65 [91,1]).flatten ++ [78]
    v.encode.result = .ok w ∧ v.rank = 4 ∧ decode (w ++ [0]) = .ok (v,34) ∧
      decodeSeq (w ++ w) = .ok [v,v] ∧ deep.encode.result = .ok image ∧ deep.rank = 65 ∧
      decode image = .error (.tooDeep 64) := by
  intro header v w deep image
  have hv : v.encode.result = .ok w := by decide +kernel
  have hr : v.rank = 4 := by decide
  have hd : deep.encode.result = .ok image := by decide +kernel
  have hn : deep.rank = 65 := by decide +kernel
  have hle : v.rank ≤ 64 := by omega
  have hone := decode_encode.1 v w [0] hv
  have htwo := decode_encode.2 [v,v] [w,w] (.cons ⟨hv,hle⟩ (.cons ⟨hv,hle⟩ .nil))
  have hdeep := decode_encode.1 deep image [] hd
  rw [if_pos hle] at hone
  rw [if_neg (by omega),List.append_nil] at hdeep
  exact ⟨hv,hr,hone,htwo,hd,hn,hdeep⟩

end Value

end RemotePyMite
