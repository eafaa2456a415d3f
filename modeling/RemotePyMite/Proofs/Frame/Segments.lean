import RemotePyMite.Proofs.Frame.Assembly

/-! # The segments of a message

A sender cuts the data of a message into full segments and ends them with a shorter one,
which is empty if the data fills all the others.  A row of such segments is put together to
that message and to nothing else (`assemble_segments`).
-/
namespace RemotePyMite

namespace Bytes

/-- Data in segments of `size` bytes, ended by a shorter one. -/
def segments (size : Nat) (data : Bytes) : List Bytes :=
  if 0 < size ∧ size ≤ data.length then data.take size :: segments size (data.drop size)
  else [data]
termination_by data.length
decreasing_by
  rw [List.length_drop]
  omega

theorem flatten_segments (size : Nat) (data : Bytes) : (segments size data).flatten = data := by
  fun_induction segments size data with
  | case1 data h ih => simp [ih]
  | case2 data h => simp

/-- All segments but the last are full, and the last is not. -/
theorem exists_segments {size : Nat} (hsize : 0 < size) (data : Bytes) :
    ∃ front last, segments size data = front ++ [last] ∧
      (∀ segment ∈ front, segment.length = size) ∧ last.length < size := by
  fun_induction segments size data with
  | case1 data h ih =>
    obtain ⟨front,last,he,hf,hl⟩ := ih
    refine ⟨data.take size :: front,last,by rw [he]; rfl,?_,hl⟩
    intro segment hs
    rcases List.mem_cons.mp hs with rfl | hs
    · rw [List.length_take]
      omega
    · exact hf segment hs
  | case2 data h => exact ⟨[],data,rfl,by simp,by omega⟩

theorem length_le_of_mem_segments {size : Nat} (hsize : 0 < size) {data segment : Bytes}
    (hs : segment ∈ segments size data) : segment.length ≤ size := by
  obtain ⟨front,last,he,hf,hl⟩ := exists_segments hsize data
  rw [he] at hs
  rcases List.mem_append.mp hs with hs | hs
  · exact (hf segment hs).le
  · rw [List.mem_singleton.mp hs]
    exact hl.le

theorem pieces_of_le {size : Nat} {data : Bytes} (hsize : 0 < size) (h : size ≤ data.length) :
    data.pieces size = data.take size :: pieces size (data.drop size) := by
  obtain ⟨n,rfl⟩ : ∃ n, size = n + 1 := ⟨size - 1,by omega⟩
  cases data with
  | nil => simp at h
  | cons b rest => rw [pieces]; rfl

theorem pieces_of_lt {size : Nat} {data : Bytes} (hne : data ≠ []) (h : data.length < size) :
    data.pieces size = [data] := by
  cases data with
  | nil => exact absurd rfl hne
  | cons b rest =>
    rw [List.length_cons] at h
    rw [pieces,List.take_of_length_le (by omega),List.drop_of_length_le (by omega),pieces]

theorem segments_of_le {size : Nat} {data : Bytes} (hsize : 0 < size) (h : size ≤ data.length) :
    data.segments size = data.take size :: segments size (data.drop size) := by
  rw [segments,if_pos ⟨hsize,h⟩]

theorem segments_of_lt {size : Nat} {data : Bytes} (h : data.length < size) :
    data.segments size = [data] := by
  rw [segments,if_neg (by omega)]

/-- The pieces of data and, where all of them are full, an empty one are its segments. -/
theorem segments_eq_pieces {size : Nat} (hsize : 0 < size) (data : Bytes) :
    data.segments size =
      data.pieces size ++ if data.length % size = 0 then [[]] else [] := by
  fun_induction segments size data with
  | case1 data h ih =>
    have hmod : (data.drop size).length % size = data.length % size := by
      rw [List.length_drop,← Nat.mod_eq_sub_mod h.2]
    rw [ih,pieces_of_le hsize h.2,hmod,List.cons_append]
  | case2 data h =>
    have hlt : data.length < size := by omega
    cases data with
    | nil => simp [pieces]
    | cons b rest =>
      have hmod : (b :: rest).length % size ≠ 0 := by
        rw [Nat.mod_eq_of_lt hlt]
        simp
      rw [pieces_of_lt (List.cons_ne_nil _ _) hlt,if_neg hmod,List.append_nil]

end Bytes

namespace Assembly
variable {α : Type} {view : α → Option Segment} {size : Nat} {kind : Kind}

def segmentsOf (size : Nat) (kind : Kind) (data : Bytes) : List Segment :=
  (data.segments size).map fun part => ⟨kind,part,0 < size && part.length = size⟩

theorem payload_eq_flatMap (xs : List α) {segments : List Segment}
    (hx : xs.map view = segments.map some) :
    payload view xs = segments.flatMap Segment.data := by
  induction xs generalizing segments with
  | nil =>
    rw [List.map_nil,eq_comm,List.map_eq_nil_iff] at hx
    rw [hx]
    rfl
  | cons x rest ih =>
    obtain ⟨s,more,rfl,hs,hm⟩ := List.map_eq_cons_iff.mp hx.symm
    have hp : payload view (x :: rest) = s.data ++ payload view rest := by
      simp [payload,← hs]
    rw [hp,ih hm.symm,List.flatMap_cons]

theorem payload_of_segmentsOf {xs : List α} {data : Bytes}
    (hx : xs.map view = (segmentsOf size kind data).map some) : payload view xs = data := by
  rw [payload_eq_flatMap xs hx,segmentsOf,List.flatMap_map]
  simpa using Bytes.flatten_segments size data

theorem assemble_segments_of_held (hsize : 0 < size) {data : Bytes} {held xs : List α}
    (hh : OfKind view kind held) (hx : xs.map view = (segmentsOf size kind data).map some)
    (hlen : (payload view held).length + data.length ≤ maxReassembled) (rest : List α) :
    assemble view held (xs ++ rest) =
      (.group kind (held ++ xs) :: (assemble view [] rest).1,(assemble view [] rest).2) := by
  unfold segmentsOf at hx
  fun_induction Bytes.segments size data generalizing held xs with
  | case1 data h ih =>
    obtain ⟨x,more,rfl,hv,hm⟩ := List.map_eq_cons_iff.mp hx
    have hp : payload view (held ++ [x]) = payload view held ++ data.take size := by
      rw [payload_append,payload_singleton hv]
    have hl : (payload view (held ++ [x])).length = (payload view held).length + size := by
      rw [hp,List.length_append,List.length_take]
      omega
    have hf := front_of_ofKind hh
    have hfull : (data.take size).length = size := by
      rw [List.length_take]
      omega
    rw [List.cons_append,assemble_full hv _ (by rw [hf,hl]; omega) (by simp [hsize,hfull]),hf,
      ih (hh.append (ofKind_singleton hv)) hm (by rw [hl,List.length_drop]; omega)]
    simp
  | case2 data h =>
    obtain ⟨x,more,rfl,hv,hm⟩ := List.map_eq_cons_iff.mp hx
    have hmore : more = [] := List.map_eq_nil_iff.mp hm
    subst hmore
    have hp : payload view (held ++ [x]) = payload view held ++ data := by
      rw [payload_append,payload_singleton hv]
    have hf := front_of_ofKind hh
    have hend : data.length ≠ size := by omega
    rw [List.singleton_append,assemble_end hv _ (by rw [hf,hp,List.length_append]; omega)
      (by simp [hend]),hf]

theorem assemble_segments (hsize : 0 < size) {data : Bytes} {xs : List α}
    (hx : xs.map view = (segmentsOf size kind data).map some)
    (hlen : data.length ≤ maxReassembled) (rest : List α) :
    assemble view [] (xs ++ rest) =
      (.group kind xs :: (assemble view [] rest).1,(assemble view [] rest).2) :=
  assemble_segments_of_held hsize (ofKind_nil kind) hx (by simpa using hlen) rest

end Assembly

/-- A name of sixteen bytes needs no padding. -/
theorem SyncParameters.padId_toList (id : Vector UInt8 16) : padId id.toList = id := by
  apply Vector.toList_inj.mp
  change (id.toList ++ List.replicate 16 0).take 16 = id.toList
  rw [List.take_append_of_le_length (by simp),List.take_of_length_le (by simp)]

theorem SyncParameters.ofBytes_toBytes (p : SyncParameters) : ofBytes p.toBytes = .ok p := by
  obtain ⟨reset,receiveBufferSize,wordSize,id⟩ := p
  have hl : syncIdLength ≤ id.toList.length := by simp [syncIdLength]
  simp only [ofBytes,toBytes,if_pos hl,padId_toList]
  cases reset <;> rfl

namespace Message

/-- A message of a kind that travels has a type byte and data, which give it back. -/
theorem exists_wire (m : Message) (hm : m.kind ≠ .invalid ∧ m.kind ≠ .defective) :
    ∃ id data, m.wireId = .ok id ∧ m.toBytes = .ok data ∧ Kind.ofWire? id = some m.kind ∧
      ofKind m.kind data = .ok m := by
  have wire {id : UInt8} {data : Bytes} (hw : m.kind.wireId? = some id)
      (hb : m.toBytes = .ok data) (ho : ofKind m.kind data = .ok m) :
      ∃ id data, m.wireId = .ok id ∧ m.toBytes = .ok data ∧ Kind.ofWire? id = some m.kind ∧
        ofKind m.kind data = .ok m :=
    ⟨id,data,by rw [wireId,hw],hb,Kind.ofWire?_eq_some_iff.mpr hw,ho⟩
  cases m with
  | invalid => exact absurd rfl hm.1
  | defective => exact absurd rfl hm.2
  | sync p =>
    refine wire rfl rfl ?_
    simp only [kind,ofKind,SyncParameters.ofBytes_toBytes]
    rfl
  | _ => exact wire rfl rfl rfl

def parts (size : Nat) (m : Message) : Except MessageError (List (UInt8 × Bytes)) := do
  let id ← m.wireId
  let data ← m.toBytes
  return (data.segments size).map fun part => (id,part)

end Message

end RemotePyMite
