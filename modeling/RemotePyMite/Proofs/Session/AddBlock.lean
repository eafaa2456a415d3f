import RemotePyMite.Proofs.Session.Sections

/-! # The size a block is cut to

A session cuts a block before it sends anything, so before the handshake that the first send of
the same call may start.  It therefore cuts for the parameters it knew at the start of the
call, and for a target that has told none as if its receive buffer had the default size.
-/
namespace RemotePyMite

/-- A target that acknowledges all that is not an acknowledgment, and tells its parameters
whenever the host tells its own. -/
def Target.willing (p : SyncParameters) (answers : Nat) : Target where
  react _ frame :=
    let ack := (Frame.mk 0 ackId []).bytes
    match Kind.ofWire? frame.kind with
    | some .ack => .silent
    | some .sync => ⟨[ack ++ (Frame.mk 0 frame.kind p.toBytes).bytes],false⟩
    | _ => ⟨[ack],false⟩
  answers

namespace Block
variable {space : UInt8} {data : Bytes} {size : Nat} {segments : List Block}

theorem tail_ne_nil (size : Nat) (rest : Bytes) : tail size rest ≠ [] := by
  unfold tail
  cases rest with
  | nil => simp
  | cons b rest => simp [Bytes.pieces]

/-- A block is one segment, or starts with a full one and has more behind it. -/
theorem segments_cases (h : Block.segments space data size = .ok segments) :
    (data.length + 1 < size ∧ segments = [⟨space :: data⟩]) ∨
      (size ≤ data.length + 1 ∧ ∃ rest, rest ≠ [] ∧
        segments = ⟨Word.littleEndian 2 data.length ++ space :: data.take (size - 3)⟩ :: rest) := by
  unfold Block.segments at h
  split at h
  · cases h
  · split at h
    · next hl =>
      cases h
      exact .inl ⟨hl,rfl⟩
    · next hl =>
      split at h
      · cases h
      · cases h
        exact .inr ⟨Nat.le_of_not_lt hl,_,tail_ne_nil _ _,rfl⟩

/-- Two sizes cut a block alike only if they are the same, or if it is one segment for both. -/
theorem segments_eq_iff {other : Nat} (hs : 3 < size) (ho : 3 < other)
    (h : Block.segments space data size = .ok segments) :
    Block.segments space data other = .ok segments ↔
      size = other ∨ data.length + 1 < min size other := by
  constructor
  · intro h'
    rcases segments_cases h with ⟨hl,he⟩ | ⟨hl,rest,hne,he⟩
    · rcases segments_cases h' with ⟨hl',-⟩ | ⟨-,rest,hne,he'⟩
      · exact .inr (by omega)
      · exact absurd (List.cons.inj (he.symm.trans he')).2.symm hne
    · rcases segments_cases h' with ⟨-,he'⟩ | ⟨hl',rest',-,he'⟩
      · exact absurd (List.cons.inj (he.symm.trans he')).2 hne
      · have hd := congrArg Block.data (List.cons.inj (he.symm.trans he')).1
        have hlen := congrArg List.length (List.append_cancel_left hd)
        simp only [List.length_cons,List.length_take] at hlen
        exact .inl (by omega)
  · rintro (rfl | hlt)
    · exact h
    · rcases segments_cases h with ⟨-,he⟩ | ⟨hl,-⟩
      · rw [he,Block.segments,if_neg (by omega),if_pos (by omega)]
      · omega

end Block

namespace Session

/-- The size a session cuts blocks to, for a target with a receive buffer of `size` bytes if the
session knows it. -/
theorem outgoingSegmentSize_eq {s : Session} {size : UInt8} (hsize : 6 < size.toNat)
    (hs : ∀ p, s.state.parameters = some p → p.receiveBufferSize = size) :
    s.outgoingSegmentSize = if s.state.parameters.isSome then size.toNat - 6 else 44 := by
  unfold outgoingSegmentSize
  cases hp : s.state.parameters with
  | none => rfl
  | some p =>
    dsimp only
    rw [hs p hp,Frame.segmentSizeFor,Frame.overhead,if_pos hsize]
    rfl

/-- A call that adds a block to a memory space sends, but for repetitions, the segments for the
parameters that the session knew at its start.  For a target with a receive buffer of `size`
bytes these are the segments it can take exactly if the session knew its parameters, or it has
a buffer of the default size, or the block is one segment either way. -/
theorem addBlock_blocks {s s' : Session} {space : UInt8} {data : Bytes} {size : UInt8}
    (hsize : 10 ≤ size.toNat) (hfree : s.state.outstanding = none)
    (hs : ∀ p, s.state.parameters = some p → p.receiveBufferSize = size)
    (hok : (addBlock space data).run s = (.ok (),s')) :
    ∃ events, s'.channel.log = events ++ s.channel.log ∧
      Block.segments space data s.outgoingSegmentSize = .ok (blocks events) ∧
      (Block.segments space data (size.toNat - 6) = .ok (blocks events) ↔
        s.state.parameters.isSome ∨ size = 50 ∨ data.length + 1 < min 44 (size.toNat - 6)) := by
  have hstart : s.Since s.channel.log (Sent []) :=
    ⟨trivial,[],rfl,rfl,fun block ho => by cases hfree.symm.trans ho⟩
  have hrun := triple_addBlock space data s.outgoingSegmentSize s ⟨hstart,rfl⟩
  rw [hok] at hrun
  obtain ⟨segments,hseg,-,events,hlog,⟨hblocks,-⟩,-⟩ := hrun
  rw [← hblocks] at hseg
  refine ⟨events,hlog,hseg,?_⟩
  rw [outgoingSegmentSize_eq (by omega) hs] at hseg
  cases hp : s.state.parameters.isSome with
  | true =>
    rw [hp,if_pos rfl] at hseg
    simpa using hseg
  | false =>
    rw [hp,if_neg (by simp)] at hseg
    have hfifty : size = 50 ↔ 44 = size.toNat - 6 := by
      rw [← UInt8.toNat_inj]
      change size.toNat = 50 ↔ _
      omega
    rw [Block.segments_eq_iff (by omega) (by omega) hseg,hfifty]
    simp

/-- The target has a receive buffer of twenty bytes, and the session has done the handshake. -/
theorem addBlock_blocks_synchronized :
    let target := Target.willing ⟨false,20,4,SyncParameters.padId [109]⟩ 9
    let s := (synchronize.run (ofLink (.ofTarget target) 2)).2
    let data : Bytes := List.replicate 20 97
    s.state.outstanding = none ∧ ∃ s', (addBlock 3 data).run s = (.ok (),s') ∧
      ∃ events, s'.channel.log = events ++ s.channel.log ∧
        Block.segments 3 data 14 = .ok (blocks events) := by
  intro target s data
  have hfree : s.state.outstanding = none := by decide +kernel
  have hknown : s.state.parameters = some ⟨false,20,4,SyncParameters.padId [109]⟩ := by
    decide +kernel
  have hdone : ((addBlock 3 data).run s).1.toBool = true := by decide +kernel
  have hok : (addBlock 3 data).run s = (.ok (),((addBlock 3 data).run s).2) := by
    generalize (addBlock 3 data).run s = result at hdone ⊢
    obtain ⟨r,s'⟩ := result
    cases r with
    | error e => cases hdone
    | ok x => rfl
  have hs : ∀ p, s.state.parameters = some p → p.receiveBufferSize = 20 := by
    intro p hp
    rw [hknown] at hp
    rw [← Option.some.inj hp]
  obtain ⟨events,hlog,-,hiff⟩ := addBlock_blocks (by decide) hfree hs hok
  exact ⟨hfree,_,hok,events,hlog,hiff.mpr (.inl (by rw [hknown]; rfl))⟩

/-- The same block for the same target, in a session that has not done the handshake: the call
succeeds, and the only frame it sends is longer than the target can take. -/
theorem addBlock_blocks_fresh :
    let target := Target.willing ⟨false,20,4,SyncParameters.padId [109]⟩ 9
    let s := ofLink (.ofTarget target) 2
    let data : Bytes := List.replicate 20 97
    let run := (addBlock 3 data).run s
    s.state.outstanding = none ∧ run.1.toBool = true ∧
      run.2.state.parameters = some ⟨false,20,4,SyncParameters.padId [109]⟩ ∧
      s.channel.log = [] ∧ blocks run.2.channel.log = [⟨3 :: data⟩] ∧
      Block.segments 3 data (20 - 6) ≠ .ok (blocks run.2.channel.log) := by
  intro target s data run
  have hblocks : blocks run.2.channel.log = [⟨3 :: data⟩] := by decide +kernel
  refine ⟨by decide +kernel,by decide +kernel,by decide +kernel,rfl,hblocks,?_⟩
  intro h
  rw [hblocks] at h
  rcases Block.segments_cases h with ⟨hl,-⟩ | ⟨-,rest,hne,he⟩
  · exact absurd hl (by decide)
  · exact hne (List.cons.inj he).2.symm

end Session

end RemotePyMite
