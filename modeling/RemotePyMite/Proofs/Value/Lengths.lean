import RemotePyMite.Proofs.Value.Encoding

/-! # The lengths in a value

A value is written piece by piece: its length behind a tag if it has one, bytes that need no length, and
in their order the pieces of the values in it (`encode_eq_concat`).  A length of more than two bytes has no
form.  The first of these ends the writing in front of its tag, so that what stands in front of it is
written and nothing else (`encodeInto_exact`).
-/
namespace RemotePyMite

namespace Output

/-- Outputs one behind another. -/
def concat (outputs : List Output) : Output :=
  outputs.foldr (· ++ ·) (.ok [])

@[simp] theorem concat_nil : concat [] = .ok [] := rfl

@[simp] theorem concat_cons (a : Output) (rest : List Output) :
    concat (a :: rest) = a ++ concat rest := rfl

theorem concat_append (xs ys : List Output) : concat (xs ++ ys) = concat xs ++ concat ys := by
  induction xs with
  | nil => rfl
  | cons x rest ih => rw [List.cons_append,concat_cons,concat_cons,ih,append_assoc]

theorem concat_flatMap {α : Type} (f : α → List Output) (xs : List α) :
    concat (xs.flatMap f) = concat (xs.map fun x => concat (f x)) := by
  induction xs with
  | nil => rfl
  | cons x rest ih => rw [List.flatMap_cons,concat_append,ih,List.map_cons,concat_cons]

end Output

/-- The tags that a length of this kind can have. -/
def Counted.tag : Counted → LengthForm → Tag
  | .string => .str
  | .tuple => .tuple
  | .list => .list
  | .dict => .dict

namespace Value

/-- A part of a byte form: a length, or bytes that need none. -/
inductive Piece where
  | length (what : Counted) (n : Nat)
  | plain (bytes : Bytes)
  deriving DecidableEq, Repr

namespace Piece

/-- The piece can be written. -/
def Fits : Piece → Prop
  | .length _ n => n ≤ 65535
  | .plain _ => True

/-- A length stands behind its tag, in one byte if that is enough and else in two. -/
def bytes : Piece → Bytes
  | .length what n =>
    if n ≤ 255 then [(what.tag .short).byte,UInt8.ofNat n]
    else [(what.tag .long).byte,UInt8.ofNat n,UInt8.ofNat (n / 256)]
  | .plain bytes => bytes

def output : Piece → Output
  | .length what n => encodeLength what what.tag n
  | .plain bytes => .ok bytes

theorem output_of_fits {p : Piece} (h : p.Fits) : p.output = .ok p.bytes := by
  cases p with
  | plain bytes => rfl
  | length what n =>
    rw [output,encodeLength_eq,bytes]
    split
    · rfl
    · exact if_pos h

theorem output_of_lt {what : Counted} {n : Nat} (h : 65535 < n) :
    (Piece.length what n).output = ⟨[],some (.lengthOutOfRange what n 65535)⟩ := by
  rw [output,encodeLength_eq,if_neg (by omega),if_neg (by rw [maxLength]; omega)]
  rfl

theorem concat_of_fits {ps : List Piece} (h : ∀ p ∈ ps, p.Fits) :
    Output.concat (ps.map output) = .ok (ps.flatMap bytes) := by
  induction ps with
  | nil => rfl
  | cons p rest ih =>
    obtain ⟨hp,hr⟩ := List.forall_mem_cons.mp h
    rw [List.map_cons,Output.concat_cons,output_of_fits hp,ih hr,Output.ok_append,List.flatMap_cons]
    rfl

/-- The first length that cannot be written ends the output in front of its tag. -/
theorem concat_of_lt {before after : List Piece} {what : Counted} {n : Nat}
    (h : ∀ p ∈ before, p.Fits) (hn : 65535 < n) :
    Output.concat ((before ++ .length what n :: after).map output) =
      ⟨before.flatMap bytes,some (.lengthOutOfRange what n 65535)⟩ := by
  rw [List.map_append,Output.concat_append,concat_of_fits h,List.map_cons,Output.concat_cons,
    output_of_lt hn,Output.ok_append]
  change (⟨before.flatMap bytes ++ [],_⟩ : Output) = _
  rw [List.append_nil]
  rfl

/-- If not all of the pieces can be written, one of them is the first that cannot. -/
theorem exists_first {ps : List Piece} (h : ¬∀ p ∈ ps, p.Fits) :
    ∃ before what n after, ps = before ++ .length what n :: after ∧ (∀ p ∈ before, p.Fits) ∧
      65535 < n := by
  induction ps with
  | nil => exact absurd (List.forall_mem_nil _) h
  | cons p rest ih =>
    by_cases hp : p.Fits
    · have hrest : ¬∀ p ∈ rest, p.Fits := fun hr => h (List.forall_mem_cons.mpr ⟨hp,hr⟩)
      obtain ⟨before,what,n,after,rfl,hb,hn⟩ := ih hrest
      exact ⟨p :: before,what,n,after,rfl,List.forall_mem_cons.mpr ⟨hp,hb⟩,hn⟩
    · cases p with
      | plain bytes => exact absurd trivial hp
      | length what n =>
        exact ⟨[],what,n,rest,rfl,List.forall_mem_nil _,Nat.lt_of_not_le hp⟩

end Piece

/-- The values in a value, one level down and in the order in which they are written.  The fields of a
code object that have a length are strings and tuples. -/
def children : Value → List Value
  | .tuple items | .list items => items
  | .dict entries => entries.flatMap fun e => [e.1,e.2]
  | .code h names consts cellVars =>
    [.str h.name,.str h.filename,.str h.bytecode,.str h.lineTable,.tuple names,.tuple consts,
      .tuple cellVars]
  | _ => []

/-- The length that a value of its own has. -/
def length? : Value → Option (Counted × Nat)
  | .str bytes => some (.string,bytes.length)
  | .tuple items => some (.tuple,items.length)
  | .list items => some (.list,items.length)
  | .dict entries => some (.dict,entries.length)
  | _ => Option.none

/-- The value stands in another one, at any depth, or is that one itself. -/
inductive Within (part : Value) : Value → Prop
  | self : Within part part
  | child {v whole : Value} (hv : v ∈ whole.children) (h : Within part v) : Within part whole

/-- All of the lengths in the value can be written. -/
def Fits (v : Value) : Prop :=
  ∀ part what n, Within part v → part.length? = some (what,n) → n ≤ 65535

/-- What is written of a value in front of the values in it. -/
def front : Value → List Piece
  | .none => [.plain [Tag.none.byte]]
  | .bool true => [.plain [Tag.true.byte]]
  | .bool false => [.plain [Tag.false.byte]]
  | .int i => [.plain (encodeInt i.toInt)]
  | .float x => [.plain (Tag.float.byte :: Word.littleEndian 4 x.bits.toNat)]
  | .str bytes => [.length .string bytes.length,.plain bytes]
  | .tuple items => [.length .tuple items.length]
  | .list items => [.length .list items.length]
  | .dict entries => [.length .dict entries.length]
  | .code .. => [.plain [Tag.code.byte]]

/-- What is written of a value behind the values in it. -/
def back : Value → List Piece
  | .code h _ _ _ => [.plain (encodeTrailer h)]
  | _ => []

theorem sizeOf_lt_of_mem_children {c v : Value} (h : c ∈ v.children) : sizeOf c < sizeOf v := by
  cases v with
  | tuple items =>
    have hc : sizeOf c < sizeOf items := List.sizeOf_lt_of_mem h
    rw [tuple.sizeOf_spec]
    omega
  | list items =>
    have hc : sizeOf c < sizeOf items := List.sizeOf_lt_of_mem h
    rw [list.sizeOf_spec]
    omega
  | dict entries =>
    obtain ⟨e,he,hc⟩ := List.mem_flatMap.mp h
    have hentry := List.sizeOf_lt_of_mem he
    have hparts : sizeOf e = 1 + sizeOf e.1 + sizeOf e.2 := rfl
    rw [dict.sizeOf_spec]
    simp only [List.mem_cons,List.not_mem_nil,or_false] at hc
    rcases hc with rfl | rfl <;> omega
  | code header names consts cellVars =>
    obtain ⟨name,filename,bytecode,lineTable,_,_,_,_,_,_⟩ := header
    simp only [children,List.mem_cons,List.not_mem_nil,or_false] at h
    rcases h with rfl | rfl | rfl | rfl | rfl | rfl | rfl <;>
      simp only [str.sizeOf_spec,tuple.sizeOf_spec,code.sizeOf_spec,CodeHeader.mk.sizeOf_spec] <;> omega
  | _ => cases h

/-- The pieces of a value in the order in which they are written. -/
def pieces (v : Value) : List Piece :=
  v.front ++ v.children.attach.flatMap (fun c => pieces c.1) ++ v.back
termination_by sizeOf v
decreasing_by exact sizeOf_lt_of_mem_children c.2

theorem pieces_eq (v : Value) : v.pieces = v.front ++ v.children.flatMap pieces ++ v.back := by
  have h : v.children.attach.flatMap (fun c => pieces c.1) = v.children.flatMap pieces := by
    rw [List.flatMap_def,List.flatMap_def,List.attach_map_val]
  rw [pieces,h]

theorem encodeItems_eq_concat (items : List Value) :
    encodeItems items = Output.concat (items.map encode) := by
  induction items with
  | nil => rfl
  | cons item rest ih => rw [encodeItems_cons,ih,List.map_cons,Output.concat_cons]

/-- The values in a value are written between what is in front of them and what is behind. -/
theorem encode_eq_children (v : Value) :
    v.encode = Output.concat (v.front.map Piece.output) ++
      (encodeItems v.children ++ Output.concat (v.back.map Piece.output)) := by
  have hnone : encodeItems [] = .ok [] := rfl
  cases v with
  | bool b => cases b <;> exact encode_of_put rfl
  | code h names consts cellVars =>
    rw [encode_code]
    rfl
  | none => exact encode_of_put rfl
  | _ =>
    simp only [encode_int,encode_float,encode_str,encode_tuple,encode_list,encode_dict,front,children,
      back,Piece.output,Counted.tag,List.map_cons,List.map_nil,Output.concat_cons,Output.concat_nil,Output.append_empty,hnone]

theorem encode_eq_concat (v : Value) : v.encode = Output.concat (v.pieces.map Piece.output) := by
  induction v using pieces.induct with
  | case1 v ih =>
    have hchildren : v.children.map encode =
        v.children.map fun c => Output.concat (c.pieces.map Piece.output) :=
      List.map_congr_left fun c hc => ih ⟨c,hc⟩
    rw [encode_eq_children,encodeItems_eq_concat,hchildren,pieces_eq]
    simp only [List.map_append,Output.concat_append,List.map_flatMap,Output.concat_flatMap,
      Output.append_assoc]

/-- The lengths that are written are those of the values in a value. -/
theorem length_mem_pieces_iff {v : Value} {what : Counted} {n : Nat} :
    .length what n ∈ v.pieces ↔ ∃ part, Within part v ∧ part.length? = some (what,n) := by
  induction v using pieces.induct with
  | case1 v ih =>
    have hfront : .length what n ∈ v.front ↔ v.length? = some (what,n) := by
      cases v with
      | bool b => cases b <;> simp [front,length?]
      | _ => simp [front,length?,eq_comm]
    have hback : .length what n ∉ v.back := by
      cases v <;> simp [back]
    rw [pieces_eq,List.mem_append,List.mem_append,hfront,List.mem_flatMap,or_iff_left hback]
    constructor
    · rintro (h | ⟨c,hc,h⟩)
      · exact ⟨v,.self,h⟩
      · obtain ⟨part,hp,hl⟩ := (ih ⟨c,hc⟩).mp h
        exact ⟨part,.child hc hp,hl⟩
    · rintro ⟨part,hp,hl⟩
      cases hp with
      | self => exact .inl hl
      | child hc hp => exact .inr ⟨_,hc,(ih ⟨_,hc⟩).mpr ⟨part,hp,hl⟩⟩

theorem fits_iff {v : Value} : v.Fits ↔ ∀ p ∈ v.pieces, p.Fits := by
  constructor
  · intro h p hp
    cases p with
    | plain bytes => trivial
    | length what n =>
      obtain ⟨part,hw,hl⟩ := length_mem_pieces_iff.mp hp
      exact h part what n hw hl
  · intro h part what n hw hl
    exact h _ (length_mem_pieces_iff.mpr ⟨part,hw,hl⟩)

/-- A value is written behind what a buffer holds exactly if all the lengths in it are at most 65535, and
then as its byte form.  Otherwise the error tells the first longer length, and the buffer has got the
pieces in front of it. -/
theorem encodeInto_exact (v : Value) (buffer : Bytes) :
    ((v.encodeInto buffer).error = Option.none ↔ v.Fits) ∧
    (v.Fits → v.encode.result = .ok (v.pieces.flatMap Piece.bytes) ∧
      v.encodeInto buffer = .ok (buffer ++ v.pieces.flatMap Piece.bytes)) ∧
    (¬v.Fits → ∃ before what n after, v.pieces = before ++ .length what n :: after ∧
      (∀ p ∈ before, p.Fits) ∧ 65535 < n ∧
      v.encodeInto buffer =
        ⟨buffer ++ before.flatMap Piece.bytes,some (.lengthOutOfRange what n 65535)⟩) := by
  have hfits : v.Fits → v.encode = .ok (v.pieces.flatMap Piece.bytes) := by
    intro h
    rw [encode_eq_concat,Piece.concat_of_fits (fits_iff.mp h)]
  have hfails : ¬v.Fits → ∃ before what n after, v.pieces = before ++ .length what n :: after ∧
      (∀ p ∈ before, p.Fits) ∧ 65535 < n ∧
      v.encode = ⟨before.flatMap Piece.bytes,some (.lengthOutOfRange what n 65535)⟩ := by
    intro h
    obtain ⟨before,what,n,after,hp,hb,hn⟩ := Piece.exists_first (mt fits_iff.mpr h)
    exact ⟨before,what,n,after,hp,hb,hn,by rw [encode_eq_concat,hp,Piece.concat_of_lt hb hn]⟩
  refine ⟨⟨fun h => ?_,fun h => ?_⟩,fun h => ?_,fun h => ?_⟩
  · refine Classical.byContradiction fun hv => ?_
    obtain ⟨before,what,n,after,-,-,-,he⟩ := hfails hv
    rw [encodeInto_eq,he] at h
    cases h
  · rw [encodeInto_eq,hfits h]
    rfl
  · rw [encodeInto_eq,hfits h]
    exact ⟨rfl,rfl⟩
  · obtain ⟨before,what,n,after,hp,hb,hn,he⟩ := hfails h
    exact ⟨before,what,n,after,hp,hb,hn,by rw [encodeInto_eq,he]; rfl⟩

end Value

end RemotePyMite
