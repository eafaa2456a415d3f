import RemotePyMite.Proofs.Frame.Blocks

/-! # Blocks are cut in one way only

A block that can be cut at all is cut into full segments and a shorter one behind them, and put together
these are the number of the space and the data, with the length in front if there is more than one.  One
segment is shorter than its size, and several are longer together, so the segments tell the two forms apart
and with them the space and the data (`segments_exact`).
-/
namespace RemotePyMite.Block
variable {space space' : UInt8} {data data' : Bytes} {size : Nat} {blocks : List Block}

theorem length_payload (space : UInt8) (data : Bytes) (size : Nat) :
    (payload space data size).length =
      if data.length + 1 < size then data.length + 1 else data.length + 3 := by
  unfold payload
  split
  · rfl
  · simp only [List.length_append,Word.length_littleEndian,List.length_cons]
    omega

/-- What travels is a single segment exactly if the length is not in front. -/
theorem length_payload_lt_iff : (payload space data size).length < size ↔ data.length + 1 < size := by
  rw [length_payload]
  split <;> omega

theorem payload_eq (space : UInt8) (data : Bytes) (size : Nat) :
    payload space data size = (if data.length + 1 < size then [space]
      else [UInt8.ofNat (data.length % 256),UInt8.ofNat (data.length / 256),space]) ++ data := by
  have hlow : UInt8.ofNat (data.length % 256) = UInt8.ofNat data.length :=
    UInt8.toNat_inj.mp (by simp)
  rw [payload,hlow]
  split <;> rfl

theorem payload_injective (h : payload space data size = payload space' data' size) :
    space = space' ∧ data = data' := by
  -- The length of what travels tells its form, so both have the same one.
  have hshort : data.length + 1 < size ↔ data'.length + 1 < size := by
    rw [← length_payload_lt_iff,h,length_payload_lt_iff]
  by_cases hl : data.length + 1 < size
  · rw [payload,payload,if_pos hl,if_pos (hshort.mp hl)] at h
    exact List.cons.inj h
  · rw [payload,payload,if_neg hl,if_neg (mt hshort.mpr hl)] at h
    have htail := (List.append_inj h (by simp only [Word.length_littleEndian])).2
    exact List.cons.inj htail

theorem flatMap_data (h : segments space data size = .ok blocks) :
    blocks.flatMap Block.data = payload space data size := by
  rw [List.flatMap_def,data_segments h,Bytes.flatten_segments]

theorem segments_injective (h : segments space data size = .ok blocks)
    (h' : segments space' data' size = .ok blocks) : space = space' ∧ data = data' :=
  payload_injective ((flatMap_data h).symm.trans (flatMap_data h'))

/-- The blocks of a cut, the last of them shorter than the others. -/
theorem exists_last (h : segments space data size = .ok blocks) :
    ∃ front last, blocks = front ++ [last] ∧ (∀ block ∈ front, block.data.length = size) ∧
      last.data.length < size := by
  obtain ⟨parts,part,hp,hfull,hlast⟩ :=
    Bytes.exists_segments (size_pos h) (payload space data size)
  rw [← data_segments h] at hp
  obtain ⟨front,rest,rfl,rfl,hrest⟩ := List.map_eq_append_iff.mp hp
  obtain ⟨last,rfl,rfl⟩ := List.map_eq_singleton_iff.mp hrest
  exact ⟨front,last,rfl,fun block hb => hfull _ (List.mem_map_of_mem hb),hlast⟩

/-- Several segments are longer together than one can be. -/
theorem front_eq_nil_iff {front : List Block} {last : Block}
    (h : segments space data size = .ok (front ++ [last]))
    (hfull : ∀ block ∈ front, block.data.length = size) (hlast : last.data.length < size) :
    front = [] ↔ data.length + 1 < size := by
  have hpayload : (payload space data size).length < size ↔ data.length + 1 < size :=
    length_payload_lt_iff
  rw [← hpayload,← flatMap_data h,List.flatMap_append,List.length_append]
  cases front with
  | nil => simpa using hlast
  | cons first rest =>
    have hfirst := hfull first List.mem_cons_self
    rw [List.flatMap_cons,List.length_append,hfirst]
    exact iff_of_false (List.cons_ne_nil _ _) (by omega)

theorem exists_blocks (space : UInt8) (hsize : ¬size ≤ 3)
    (hlen : ¬(size ≤ data.length + 1 ∧ maxBlockLength < data.length)) :
    ∃ blocks, segments space data size = .ok blocks := by
  rw [segments,if_neg hsize]
  by_cases hl : data.length + 1 < size
  · exact ⟨_,if_pos hl⟩
  · rw [if_neg hl,if_neg (fun hlong => hlen ⟨Nat.le_of_not_lt hl,hlong⟩)]
    exact ⟨_,rfl⟩

/-- A size of at most three cuts nothing, and what takes more than one segment and more than two bytes for
its length is not cut.  Everything else is cut into full segments and a shorter one, which put together are
the number of the space and the data, and the length in front of both if there is more than one.  The first
of several takes no more of the data than there is.  For one size no two blocks have the same segments. -/
theorem segments_exact (size : Nat) :
    (∀ (space : UInt8) (data : Bytes),
      if size ≤ 3 then
        ∃ reason, segments space data size = .error (.malformed .memAddBlock reason)
      else if size ≤ data.length + 1 ∧ 65535 < data.length then
        segments space data size = .error (.tooLong .memAddBlock data.length 65535)
      else ∃ front last, segments space data size = .ok (front ++ [last]) ∧
        (∀ block ∈ front, block.data.length = size) ∧ last.data.length < size ∧
        (front ++ [last]).flatMap Block.data = (if front = [] then [space]
          else [UInt8.ofNat (data.length % 256),UInt8.ofNat (data.length / 256),space]) ++ data ∧
        (front ≠ [] → size - 3 ≤ data.length)) ∧
    ∀ space data space' data' blocks, segments space data size = .ok blocks →
      segments space' data' size = .ok blocks → space = space' ∧ data = data' := by
  refine ⟨?_,fun _ _ _ _ _ => segments_injective⟩
  intro space data
  split
  · next hsize => exact ⟨_,by rw [segments,if_pos hsize]⟩
  · next hsize =>
    split
    · next hlong =>
      rw [segments,if_neg hsize,if_neg (Nat.not_lt.mpr hlong.1)]
      exact if_pos hlong.2
    · next hlen =>
      obtain ⟨blocks,h⟩ := exists_blocks space hsize hlen
      obtain ⟨front,last,rfl,hfull,hlast⟩ := exists_last h
      have hfront := front_eq_nil_iff h hfull hlast
      refine ⟨front,last,h,hfull,hlast,?_,fun hne => ?_⟩
      · rw [flatMap_data h,payload_eq]
        simp only [hfront]
      · have hl := mt hfront.mpr hne
        omega

end RemotePyMite.Block
