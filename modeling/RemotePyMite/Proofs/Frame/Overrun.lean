import RemotePyMite.Proofs.Frame.RoundTrip

/-! # Messages that are too long

A decoder drops what it holds of a message as soon as that is more than it keeps, and takes the next
frame as the first one of a message.  So a message that is too long loses runs of full segments, and
what is behind the last of them comes out as a message of its own, unless that is too long again
(`feedAll_overlong`).
-/
namespace RemotePyMite

/-- The length of the shortest run of full segments that is more than a decoder keeps. -/
def overrun (size : Nat) : Nat :=
  (maxReassembled / size + 1) * size

theorem lt_overrun {size : Nat} (hsize : 0 < size) : maxReassembled < overrun size := by
  rw [overrun,Nat.mul_comm]
  exact Nat.lt_mul_div_succ maxReassembled hsize

/-- Full segments that are not too long, and one more that is not full, are shorter than a run that is
dropped. -/
theorem add_lt_overrun {size length rest : Nat} (hdvd : size ∣ length) (hle : length ≤ maxReassembled)
    (hrest : rest < size) : length + rest < overrun size := by
  obtain ⟨count,rfl⟩ := hdvd
  have hcount : count ≤ maxReassembled / size :=
    (Nat.le_div_iff_mul_le (by omega)).mpr (Nat.mul_comm size count ▸ hle)
  have hmul : size * count ≤ maxReassembled / size * size := by
    rw [Nat.mul_comm]
    exact Nat.mul_le_mul_right size hcount
  rw [overrun,Nat.succ_mul]
  omega

/-- The full segment with which a run becomes too long makes it the shortest that is. -/
theorem add_eq_overrun {size length : Nat} (hdvd : size ∣ length) (hle : length ≤ maxReassembled)
    (hlong : maxReassembled < length + size) : length + size = overrun size := by
  obtain ⟨count,rfl⟩ := hdvd
  have hsize : 0 < size := by omega
  have hge : count ≤ maxReassembled / size :=
    (Nat.le_div_iff_mul_le hsize).mpr (Nat.mul_comm size count ▸ hle)
  have hlt : maxReassembled / size < count + 1 :=
    (Nat.div_lt_iff_lt_mul hsize).mpr (by rwa [Nat.succ_mul,Nat.mul_comm count])
  have hcount : count = maxReassembled / size := by omega
  rw [overrun,← hcount,Nat.succ_mul,Nat.mul_comm]

namespace Bytes

/-- What is behind the runs of full segments that are too long. -/
def remainder (size : Nat) (data : Bytes) : Bytes :=
  data.drop (data.length / overrun size * overrun size)

theorem length_remainder (size : Nat) (data : Bytes) :
    (data.remainder size).length = data.length % overrun size := by
  have hsum := Nat.div_add_mod' data.length (overrun size)
  rw [remainder,List.length_drop]
  omega

theorem remainder_of_lt {size : Nat} {data : Bytes} (h : data.length < overrun size) :
    data.remainder size = data := by
  rw [remainder,Nat.div_eq_of_lt h,Nat.zero_mul,List.drop_zero]

theorem remainder_append {size : Nat} (hsize : 0 < size) {run : Bytes} (hrun : run.length = overrun size)
    (data : Bytes) : remainder size (run ++ data) = data.remainder size := by
  have hpos : 0 < overrun size := Nat.lt_of_le_of_lt (Nat.zero_le _) (lt_overrun hsize)
  have hcount : (run ++ data).length / overrun size = data.length / overrun size + 1 := by
    rw [List.length_append,hrun,Nat.add_div_left _ hpos]
  rw [remainder,hcount,Nat.succ_mul,Nat.add_comm,← List.drop_drop,← hrun,List.drop_left,remainder,hrun]

end Bytes

namespace Assembly
variable {α : Type} {view : α → Option Segment} {size : Nat} {kind : Kind}

/-- The group that is delivered if its data is not too long. -/
def delivered (view : α → Option Segment) (kind : Kind) (group : List α) : List (Delivery α) :=
  if (payload view group).length ≤ maxReassembled then [.group kind group] else []

/-- A row of segments behind full ones that are held leads to its remainder. -/
theorem assemble_overlong_of_held (hsize : 0 < size) {data : Bytes} {held xs : List α}
    (hh : OfKind view kind held) (hx : xs.map view = (segmentsOf size kind data).map some)
    (hdvd : size ∣ (payload view held).length) (hle : (payload view held).length ≤ maxReassembled)
    (rest : List α) :
    ∃ group, payload view group = (payload view held ++ data).remainder size ∧
      assemble view held (xs ++ rest) =
        (delivered view kind group ++ (assemble view [] rest).1,(assemble view [] rest).2) := by
  unfold segmentsOf at hx
  fun_induction Bytes.segments size data generalizing held xs with
  | case1 data h ih =>
    obtain ⟨x,more,rfl,hv,hm⟩ := List.map_eq_cons_iff.mp hx
    have hp : payload view (held ++ [x]) = payload view held ++ data.take size := by
      rw [payload_append,payload_singleton hv]
    have hfull : (data.take size).length = size := by
      rw [List.length_take]
      omega
    have hl : (payload view (held ++ [x])).length = (payload view held).length + size := by
      rw [hp,List.length_append,hfull]
    have hsplit : payload view held ++ data = payload view (held ++ [x]) ++ data.drop size := by
      rw [hp,List.append_assoc,List.take_append_drop]
    have hf := front_of_ofKind hh
    by_cases hlong : maxReassembled < (payload view (held ++ [x])).length
    · -- The run ends here, and the rest of the data is as if it stood alone.
      have hrun : (payload view (held ++ [x])).length = overrun size :=
        hl.trans (add_eq_overrun hdvd hle (hl ▸ hlong))
      obtain ⟨group,hgroup,ha⟩ := ih (ofKind_nil kind) hm (Nat.dvd_zero size) (Nat.zero_le _)
      refine ⟨group,?_,?_⟩
      · rw [hgroup,hsplit,Bytes.remainder_append hsize hrun]
        rfl
      · rw [List.cons_append,assemble_too_long hv _ (hf.symm ▸ hlong),ha]
    · obtain ⟨group,hgroup,ha⟩ := ih (hh.append (ofKind_singleton hv)) hm
        (hl ▸ Nat.dvd_add hdvd (Nat.dvd_refl size)) (Nat.le_of_not_lt hlong)
      refine ⟨group,?_,?_⟩
      · rw [hgroup,hsplit]
      · rw [List.cons_append,assemble_full hv _ (hf.symm ▸ hlong) (by simp [hsize,hfull]),hf,ha]
  | case2 data h =>
    obtain ⟨x,more,rfl,hv,hm⟩ := List.map_eq_cons_iff.mp hx
    have hmore : more = [] := List.map_eq_nil_iff.mp hm
    subst hmore
    have hp : payload view (held ++ [x]) = payload view held ++ data := by
      rw [payload_append,payload_singleton hv]
    have hf := front_of_ofKind hh
    have hend : data.length ≠ size := by omega
    have hshort : (payload view held ++ data).length < overrun size := by
      rw [List.length_append]
      exact add_lt_overrun hdvd hle (by omega)
    refine ⟨held ++ [x],?_,?_⟩
    · rw [hp,Bytes.remainder_of_lt hshort]
    · rw [List.singleton_append,delivered]
      by_cases hlong : maxReassembled < (payload view (held ++ [x])).length
      · rw [assemble_too_long hv _ (hf.symm ▸ hlong),if_neg (Nat.not_le.mpr hlong)]
        rfl
      · rw [assemble_end hv _ (hf.symm ▸ hlong) (by simp [hend]),hf,if_pos (Nat.le_of_not_lt hlong)]
        rfl

theorem assemble_overlong (hsize : 0 < size) {data : Bytes} {xs : List α}
    (hx : xs.map view = (segmentsOf size kind data).map some) (rest : List α) :
    ∃ group, payload view group = data.remainder size ∧
      assemble view [] (xs ++ rest) =
        (delivered view kind group ++ (assemble view [] rest).1,(assemble view [] rest).2) :=
  assemble_overlong_of_held hsize (ofKind_nil kind) hx (Nat.dvd_zero size) (Nat.zero_le _) rest

/-- What is held tells all about the reassembly of a decoder. -/
theorem Holding.unique {held : List α} {pending other : Option Reassembly}
    (h : Holding view pending held) (h' : Holding view other held) : pending = other := by
  cases pending with
  | none =>
    cases other with
    | none => rfl
    | some r => exact absurd (show held = [] from h) h'.1
  | some r =>
    cases other with
    | none => exact absurd (show held = [] from h') h.1
    | some r' =>
      obtain ⟨hne,hkind,hdata⟩ := h
      obtain ⟨-,hkind',hdata'⟩ := h'
      have hreversed : r.reversed = r'.reversed :=
        List.reverse_injective (hdata.trans hdata'.symm)
      obtain ⟨kind,reversed,size,hsize⟩ := r
      obtain ⟨kind',reversed',size',hsize'⟩ := r'
      cases hkind.unique hkind' hne
      cases hreversed
      cases hsize.trans hsize'.symm
      rfl

end Assembly

namespace Decoder
variable {size : Nat} {kind : Kind} {type : UInt8} {data : Bytes} {sent : List (Noise × Frame)}

/-- The frames hold the data in segments, in order and under any numbers. -/
def Segmented (size : Nat) (type : UInt8) (data : Bytes) (sent : List (Noise × Frame)) : Prop :=
  sent.map (fun p => p.2.part) = (data.segments size).map fun part => (type,part)

/-- The message that comes out of data in segments, if any does. -/
def messageOfSegments (size : Nat) (kind : Kind) (data : Bytes) : List Message :=
  if (data.remainder size).length ≤ maxReassembled then
    [.ofKindOrDefective kind (data.remainder size)]
  else []

theorem messageOfSegments_eq_nil_iff :
    messageOfSegments size kind data = [] ↔ maxReassembled < data.length % overrun size := by
  rw [messageOfSegments,← Bytes.length_remainder]
  split
  · next h => exact ⟨nofun,fun hl => absurd h (Nat.not_le.mpr hl)⟩
  · next h => exact ⟨fun _ => Nat.not_le.mp h,fun _ => rfl⟩

theorem messageOfSegments_append (hsize : 0 < size) {run : Bytes} (hrun : run.length = overrun size)
    (rest : Bytes) :
    messageOfSegments size kind (run ++ rest) = messageOfSegments size kind rest := by
  rw [messageOfSegments,Bytes.remainder_append hsize hrun,messageOfSegments]

theorem map_message_delivered {α : Type} {view : α → Option Segment} {group : List α}
    (hg : Assembly.payload view group = data.remainder size) :
    (Assembly.delivered view kind group).map (Assembly.message view) =
      messageOfSegments size kind data := by
  rw [Assembly.delivered,messageOfSegments,hg]
  split
  · rw [List.map_singleton,Assembly.message,hg]
  · rfl

/-- A frame that arrives as it was sent. -/
def intact (p : Noise × Frame) : Passage :=
  ⟨p.1,p.2,none⟩

theorem sendable_of_segmented (hsize : 0 < size) (hmax : size ≤ Frame.maxData)
    (hk : Kind.ofWire? type = some kind) (hs : Segmented size type data sent) :
    ∀ p ∈ sent, (intact p).Sendable := by
  intro p hp
  have hpart : p.2.part ∈ (data.segments size).map fun part => (type,part) :=
    hs ▸ List.mem_map_of_mem hp
  obtain ⟨segment,hsegment,hpart⟩ := List.mem_map.mp hpart
  obtain ⟨htype,hdata⟩ := Prod.mk.inj hpart
  refine ⟨?_,?_⟩
  · rw [intact,← htype,hk]
    rfl
  · rw [intact,← hdata]
    exact (Bytes.length_le_of_mem_segments hsize hsegment).trans hmax

theorem segment_of_segmented (hk : Kind.ofWire? type = some kind)
    (hs : Segmented size type data sent) :
    (sent.map intact).map (Passage.segment size) =
      (Assembly.segmentsOf size kind data).map some := by
  have hview : Passage.segment size ∘ intact = (fun p => (Kind.ofWire? p.1).map fun kind =>
      ⟨kind,p.2,0 < size && p.2.length = size⟩) ∘ fun p : Noise × Frame => p.2.part := rfl
  rw [List.map_map,hview,← List.map_map,hs]
  simp [Assembly.segmentsOf,hk,Function.comp_def]

/-- The segments of data, each in a frame of its own. -/
def frames (size : Nat) (type : UInt8) (data : Bytes) : List (Noise × Frame) :=
  (data.segments size).map fun part => (.silence,⟨0,type,part⟩)

theorem segmented_frames (size : Nat) (type : UInt8) (data : Bytes) :
    Segmented size type data (frames size type data) := by
  rw [Segmented,frames,List.map_map]
  rfl

/-- Data in segments and frames behind it, which meet a decoder that holds nothing. -/
theorem feedAll_segmented (hsize : 0 < size) (hmax : size ≤ Frame.maxData)
    (hk : Kind.ofWire? type = some kind) (hs : Segmented size type data sent) {later : List Passage}
    (hl : ∀ p ∈ later, p.Sendable) (tail : Noise) {chunks : List Bytes}
    (hc : chunks.flatten =
      Passage.wire (sent.map intact) ++ (Passage.wire later ++ tail.bytes)) :
    let told := Assembly.assemble (Passage.segment size) [] later
    let fed := empty.feedAll size chunks
    fed.1 = messageOfSegments size kind data ++ told.1.map (Assembly.message (Passage.segment size)) ∧
      fed.2.buffer = [] ∧ Assembly.Holding (Passage.segment size) fed.2.pending told.2 := by
  intro told fed
  have hsend : ∀ p ∈ sent.map intact ++ later, p.Sendable :=
    List.forall_mem_append.mpr
      ⟨List.forall_mem_map.mpr (sendable_of_segmented hsize hmax hk hs),hl⟩
  have hwire : chunks.flatten =
      Passage.wire ((sent.map intact ++ later).map fun p => p) ++ tail.bytes := by
    rw [hc,List.map_id',Passage.wire,Passage.wire,Passage.wire,List.flatMap_append,
      List.append_assoc]
  obtain ⟨hfed,hbuffer,hholding,-⟩ := Passage.feedAll_wire size _ hsend tail hwire
  obtain ⟨group,hgroup,ha⟩ := Assembly.assemble_overlong hsize (segment_of_segmented hk hs) later
  rw [show (fun p : Passage => p.segment size) = Passage.segment size from rfl,ha] at hfed hholding
  rw [List.map_append,map_message_delivered hgroup] at hfed
  exact ⟨hfed,hbuffer,hholding⟩

/-- Data that is more than a decoder keeps loses its runs of full segments.  What is behind them is
delivered as a message of its own, unless that is too long as well, which it is exactly if the data is
longer by more than the decoder keeps than some number of runs.  Whatever frames come behind the data
are taken as by a decoder that never saw the data. -/
theorem feedAll_overlong {size : Nat} (hsize : 1 ≤ size) (hmax : size ≤ 255) {type : UInt8}
    {kind : Kind} (hk : Kind.ofWire? type = some kind) {data : Bytes} {sent : List (Noise × Frame)}
    (hs : Segmented size type data sent) :
    ∃ wire, Frame.encodeAll sent = .ok wire ∧
      (messageOfSegments size kind data = [] ↔
        65535 < data.length % ((65535 / size + 1) * size)) ∧
      ∀ (later : List Passage) (tail : Noise) (chunks alone : List Bytes),
        (∀ p ∈ later, p.Sendable) →
        chunks.flatten = wire ++ (Passage.wire later ++ tail.bytes) →
        alone.flatten = Passage.wire later ++ tail.bytes →
        let fed := empty.feedAll size chunks
        let fresh := empty.feedAll size alone
        fed.1 = messageOfSegments size kind data ++ fresh.1 ∧
          fed.2.buffer = fresh.2.buffer ∧ fed.2.pending = fresh.2.pending := by
  have hsend := sendable_of_segmented hsize hmax hk hs
  refine ⟨_,Frame.encodeAll_eq_wire fun p hp => (hsend p hp).2,messageOfSegments_eq_nil_iff,?_⟩
  intro later tail chunks alone hl hc ha fed fresh
  obtain ⟨hfed,hbuffer,hholding⟩ := feedAll_segmented hsize hmax hk hs hl tail hc
  have halone : alone.flatten = Passage.wire (later.map fun p => p) ++ tail.bytes := by
    rw [ha,List.map_id']
  obtain ⟨hfresh,hempty,hheld,-⟩ := Passage.feedAll_wire size later hl tail halone
  refine ⟨?_,hbuffer.trans hempty.symm,hholding.unique hheld⟩
  rw [show fed.1 = _ from hfed,show fresh.1 = _ from hfresh]

/-- Of a list that is too long, but shorter than a run of full segments that is, nothing comes out; an
acknowledgment behind it does. -/
theorem feedAll_overlong_dropped :
    let data : Bytes := List.replicate 65600 120
    let later : List Passage := [⟨.silence,⟨7,1,[]⟩,none⟩]
    Kind.ofWire? 9 = some .autorunList ∧ 65535 < data.length ∧
      Segmented 255 9 data (frames 255 9 data) ∧ (∀ p ∈ later, p.Sendable) ∧
      ∃ wire, Frame.encodeAll (frames 255 9 data) = .ok wire ∧
        (empty.feedAll 255 [wire,Passage.wire later]).1 = [.ack] := by
  intro data later
  have hs := segmented_frames 255 9 data
  have hl : ∀ p ∈ later, p.Sendable :=
    List.forall_mem_singleton.mpr ⟨rfl,Nat.zero_le _⟩
  have hlength : data.length = 65600 := List.length_replicate
  obtain ⟨wire,hw,hnil,hfed⟩ := feedAll_overlong (by decide) (by decide) rfl hs
  have hdropped := hnil.mpr (by rw [hlength]; decide)
  have hwire : [Passage.wire later].flatten =
      Passage.wire (later.map fun p => p) ++ Noise.silence.bytes := by
    simp [Noise.silence]
  have hfresh := (Passage.feedAll_wire 255 later hl .silence hwire).1
  refine ⟨rfl,by rw [hlength]; decide,hs,hl,wire,hw,?_⟩
  rw [(hfed later .silence _ [Passage.wire later] hl (by simp [Noise.silence])
    (by simp [Noise.silence])).1,hdropped,hfresh]
  rfl

/-- A list that is longer by the four bytes of its last segment than a run of full segments that is too
long: these four bytes come out as a list. -/
theorem feedAll_overlong_tail :
    let data : Bytes := List.replicate 65790 120 ++ [109,97,105,110]
    65535 < data.length ∧ Segmented 255 9 data (frames 255 9 data) ∧
      ∃ wire, Frame.encodeAll (frames 255 9 data) = .ok wire ∧
        (empty.feedAll 255 [wire]).1 = [.autorunList ⟨[109,97,105,110]⟩] := by
  intro data
  have hs := segmented_frames 255 9 data
  have hk : Kind.ofWire? 9 = some .autorunList := rfl
  have hlength : data.length = 65794 := by
    rw [List.length_append,List.length_replicate]
    rfl
  have hsend := sendable_of_segmented (by decide) (by decide) hk hs
  have hwire : [Passage.wire ((frames 255 9 data).map intact)].flatten =
      Passage.wire ((frames 255 9 data).map intact) ++ (Passage.wire [] ++ Noise.silence.bytes) := by
    simp [Passage.wire,Noise.silence]
  have hfed := (feedAll_segmented (by decide) (by decide) hk hs (List.forall_mem_nil _) .silence hwire).1
  refine ⟨by rw [hlength]; decide,hs,_,
    Frame.encodeAll_eq_wire fun p hp => (hsend p hp).2,hfed.trans ?_⟩
  rw [messageOfSegments_append (by decide) (by rw [List.length_replicate]; decide)]
  rfl

end Decoder

end RemotePyMite
