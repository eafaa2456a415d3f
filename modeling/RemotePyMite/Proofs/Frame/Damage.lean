import RemotePyMite.Proofs.Frame.RoundTrip
import RemotePyMite.Proofs.Frame.Rows

/-! # What damaged frames do to messages

A decoder goes on with the data it holds when a damaged frame passes by.  So a message can come
out with a part of it missing, or with a part of an earlier message in front of it.  This is
ruled out exactly if each message that comes out had none of its frames damaged and met no
held data of its own kind; the messages are then some of those that were sent whole, in order.
-/
namespace RemotePyMite

namespace Passage

/-- Each frame with the number of the message that it belongs to. -/
def numbered (sent : List (List Passage)) : List (List (Nat × Passage)) :=
  sent.zipIdx.map fun p => p.1.map (p.2,·)

def view (size : Nat) (x : Nat × Passage) : Option Segment :=
  x.2.segment size

/-- What a decoder delivers of messages whose frames arrive one behind another. -/
def deliveries (size : Nat) (sent : List (List Passage)) : List (Delivery (Nat × Passage)) :=
  (Assembly.assemble (view size) [] (numbered sent).flatten).1

/-- Every message that is delivered consists of all the frames of one message and of no others,
or its data is not a message of its kind. -/
def Unforged (size : Nat) (sent : List (List Passage)) : Prop :=
  ∀ kind group, .group kind group ∈ deliveries size sent →
    Assembly.message (view size) (.group kind group) ≠ .defective → group ∈ numbered sent

variable {size : Nat} {sent : List (List Passage)}

theorem getElem?_numbered (sent : List (List Passage)) (i : Nat) :
    (numbered sent)[i]? = sent[i]?.map fun ps => ps.map (i,·) := by
  simp [numbered,Function.comp_def]

theorem take_numbered (sent : List (List Passage)) (i : Nat) :
    (numbered sent).take i = numbered (sent.take i) := by
  apply List.ext_getElem?
  intro j
  rw [List.getElem?_take,getElem?_numbered,getElem?_numbered,List.getElem?_take]
  split <;> rfl

theorem map_flatten_numbered (sent : List (List Passage)) :
    (numbered sent).flatten.map Prod.snd = sent.flatten := by
  rw [List.map_flatten,numbered,List.map_map]
  congr 1
  simp [Function.comp_def,List.zipIdx_map_fst]

theorem exists_of_mem_numbered {row : List (Nat × Passage)} (h : row ∈ numbered sent) :
    ∃ (i : Nat) (ps : List Passage), sent[i]? = some ps ∧ row = ps.map (i,·) := by
  obtain ⟨i,hi⟩ := List.mem_iff_getElem?.mp h
  rw [getElem?_numbered] at hi
  obtain ⟨ps,hps,hrow⟩ := Option.map_eq_some_iff.mp hi
  exact ⟨i,ps,hps,hrow.symm⟩

theorem eq_of_mem_numbered {row : List (Nat × Passage)} (h : row ∈ numbered sent) {i : Nat}
    {ps : List Passage} (hi : sent[i]? = some ps) {p : Passage} (hp : (i,p) ∈ row) :
    row = ps.map (i,·) := by
  obtain ⟨j,qs,hj,rfl⟩ := exists_of_mem_numbered h
  obtain ⟨q,-,hq⟩ := List.mem_map.mp hp
  have hij : j = i := congrArg Prod.fst hq
  subst hij
  rw [hi] at hj
  cases hj
  rfl

theorem sendable_of_parts (hsize : 0 < size) (hmax : size ≤ Frame.maxData)
    {messages : List Message}
    (h : List.Forall₂ (fun m ps => m.parts size = .ok ps) messages
      (sent.map fun ps => ps.map (·.frame.part))) : ∀ p ∈ sent.flatten, p.Sendable := by
  intro p hp
  refine Message.sendable_of_mem_parts hsize hmax ?_ h (p := p.frame.part) ?_
  · intro m hm
    obtain ⟨ps,-,hps⟩ := Assembly.exists_of_mem_forall₂ h hm
    exact Message.kind_of_parts hps
  · rw [← List.map_flatten]
    exact List.mem_map_of_mem hp

theorem carries_of_parts {m : Message} {ps : List Passage}
    (h : m.parts size = .ok (ps.map (·.frame.part))) (i : Nat) :
    Assembly.Carries (view size) size m (ps.map (i,·)) := by
  obtain ⟨id,data,hb,hk,ho,hparts⟩ := m.exists_parts size (Message.kind_of_parts h)
  have he := Except.ok.inj (h.symm.trans hparts)
  have hall : List.Forall₂ Eq (ps.map (·.frame.part)) ((data.segments size).map fun part => (id,part)) := by
    rw [List.forall₂_eq_eq_eq]
    exact he
  rw [List.forall₂_map_left_iff,List.forall₂_map_right_iff] at hall
  refine ⟨data,hb,ho,?_⟩
  rw [Assembly.Row,Assembly.segmentsOf,List.forall₂_map_left_iff,List.forall₂_map_right_iff]
  refine hall.imp ?_
  intro p part hp
  have hkind : p.frame.kind = id := congrArg Prod.fst hp
  have hdata : p.frame.data = part := congrArg Prod.snd hp
  cases hd : p.damage with
  | some damage => exact .inl (by simp [view,segment,hd])
  | none => exact .inr (by simp [view,segment,hd,hkind,hdata,hk])

theorem forall₂_numbered {messages : List Message} {R : Message → List Passage → Prop}
    {S : Message → List (Nat × Passage) → Prop} (h : List.Forall₂ R messages sent)
    (hs : ∀ i m ps, R m ps → S m (ps.map (i,·))) : List.Forall₂ S messages (numbered sent) := by
  rw [numbered,List.forall₂_map_right_iff]
  generalize 0 = n
  induction h generalizing n with
  | nil => exact .nil
  | cons hr _ ih =>
    rw [List.zipIdx_cons]
    exact .cons (hs n _ _ hr) (ih (n + 1))

/-- The end of a message shows which message a delivery belongs to. -/
theorem unforged_iff_complete (hsize : 0 < size) {messages : List Message}
    (h : List.Forall₂ (fun m ps => m.parts size = .ok (ps.map (·.frame.part))) messages sent) :
    Unforged size sent ↔ ∀ i ps, sent[i]? = some ps →
      Assembly.Complete (view size)
        (Assembly.assemble (view size) [] (numbered (sent.take i)).flatten).2 (ps.map (i,·)) := by
  constructor
  · intro hall i ps hi kind group hd hne
    have hmem : .group kind group ∈ deliveries size sent := by
      refine Assembly.mem_assemble_flatten.mpr ⟨i,ps.map (i,·),?_,?_⟩
      · rw [getElem?_numbered,hi,Option.map_some]
      · rwa [take_numbered]
    obtain ⟨m,-,hm⟩ := Assembly.exists_of_mem_forall₂ h.flip (List.mem_of_getElem? hi)
    obtain ⟨data,-,-,hrow⟩ := carries_of_parts hm i
    obtain ⟨xs,x,hx,hxs,hend⟩ := hrow.exists_ending hsize
    obtain ⟨-,-,hg⟩ := Assembly.group_of_row hxs hend (hx ▸ hd)
    have hlast : x ∈ ps.map (i,·) := by simp [hx]
    obtain ⟨p,-,hp⟩ := List.mem_map.mp hlast
    refine eq_of_mem_numbered (hall kind group hmem hne) hi (p := p) ?_
    rw [hg,hp]
    simp
  · intro hall kind group hd hne
    obtain ⟨i,row,hi,hd⟩ := Assembly.mem_assemble_flatten.mp hd
    rw [getElem?_numbered] at hi
    obtain ⟨ps,hps,rfl⟩ := Option.map_eq_some_iff.mp hi
    rw [take_numbered] at hd
    rw [hall i ps hps kind group hd hne]
    exact List.mem_of_getElem? (by rw [getElem?_numbered,hps,Option.map_some])

/-- A link that damages all frames of a message or none of them forges nothing; so messages
of one frame each are safe. -/
theorem unforged_of_whole_or_lost (hsize : 0 < size) (hmax : size ≤ Frame.maxData)
    {messages : List Message}
    (h : List.Forall₂ (fun m ps => m.parts size = .ok ps) messages
      (sent.map fun ps => ps.map (·.frame.part)))
    (hlen : ∀ m ∈ messages, ∀ data, m.toBytes = .ok data → data.length ≤ maxReassembled)
    (hsent : ∀ ps ∈ sent, (∀ p ∈ ps, p.damage ≠ none) ∨ ∀ p ∈ ps, p.damage = none) :
    Unforged size sent := by
  have hsend := sendable_of_parts hsize hmax h
  rw [List.forall₂_map_right_iff] at h
  have hview {i : Nat} {ps : List Passage} (hps : ps ∈ sent) :
      (∀ x ∈ ps.map (i,·), view size x = none) ∨ ∀ x ∈ ps.map (i,·), view size x ≠ none := by
    rw [List.forall_mem_map,List.forall_mem_map]
    refine (hsent ps hps).imp ?_ ?_ <;> intro hdam p hp <;>
      have hseen := segment_ne_none_iff size (hsend p (List.mem_flatten_of_mem hps hp))
    · exact not_not.mp fun hv => hdam p hp (hseen.mp hv)
    · exact hseen.mpr (hdam p hp)
  have hrow {i : Nat} {ps : List Passage} (hi : sent[i]? = some ps) :
      ∃ kind data, Assembly.Row (view size) size kind data (ps.map (i,·)) ∧
        data.length ≤ maxReassembled := by
    obtain ⟨m,hm,hparts⟩ := Assembly.exists_of_mem_forall₂ h.flip (List.mem_of_getElem? hi)
    obtain ⟨data,hb,-,hrow⟩ := carries_of_parts hparts i
    exact ⟨m.kind,data,hrow,hlen m hm data hb⟩
  rw [unforged_iff_complete hsize h]
  intro i ps hi kind group hd _
  have hheld : (Assembly.assemble (view size) [] (numbered (sent.take i)).flatten).2 = [] := by
    refine Assembly.held_of_whole_or_lost hsize ?_
    intro row hmem
    obtain ⟨j,qs,hj,rfl⟩ := exists_of_mem_numbered hmem
    have hj' : sent[j]? = some qs := by
      rw [List.getElem?_take] at hj
      split at hj
      · exact hj
      · cases hj
    exact (hview (List.mem_of_getElem? hj')).imp_right fun hw => ⟨hw,hrow hj'⟩
  rw [hheld] at hd
  obtain ⟨k,data,hr,hl⟩ := hrow hi
  rcases hview (i := i) (List.mem_of_getElem? hi) with hlost | hwhole
  · rw [Assembly.assemble_lost hlost] at hd
    simp at hd
  · have hnil : Assembly.OfKind (view size) k [] := Assembly.ofKind_nil k
    exact (Assembly.group_eq_row_iff hsize hr hd).mpr
      ⟨hwhole,Assembly.front_of_ofKind hnil,hl⟩

theorem feedAll_row {ps : List Passage} (hps : ∀ p ∈ ps, p.Sendable) (i : Nat) {d : Decoder}
    {held : List (Nat × Passage)} (hb : d.buffer = [])
    (hh : Assembly.Holding (view size) d.pending held) :
    (d.feedAll size [wire ps]).1 =
      (Assembly.assemble (view size) held (ps.map (i,·))).1.map
        (Assembly.message (view size)) := by
  have hsnd : (ps.map (i,·)).map Prod.snd = ps := by simp [Function.comp_def]
  have hxs : ∀ x ∈ ps.map (i,·), x.2.Sendable := by
    intro x hx
    obtain ⟨p,hp,rfl⟩ := List.mem_map.mp hx
    exact hps p hp
  have hd := drain_wire size (ps.map (i,·)) hxs Noise.silence (d := d.push (wire ps))
    (by simp [hb,hsnd,Noise.silence]) hh
  simp only [Decoder.feedAll,List.append_nil]
  exact hd.1

theorem feedAll_sent (size : Nat) (hsend : ∀ p ∈ sent.flatten, p.Sendable) (tail : Noise)
    (chunks : List Bytes) (hc : chunks.flatten = wire sent.flatten ++ tail.bytes) :
    let fed := Decoder.empty.feedAll size chunks
    fed.1 = (deliveries size sent).map (Assembly.message (view size)) ∧ fed.2.buffer = [] ∧
      Assembly.Holding (view size) fed.2.pending
        (Assembly.assemble (view size) [] (numbered sent).flatten).2 := by
  have hxs : ∀ x ∈ (numbered sent).flatten, x.2.Sendable := by
    intro x hx
    refine hsend x.2 ?_
    rw [← map_flatten_numbered]
    exact List.mem_map_of_mem hx
  rw [← map_flatten_numbered] at hc
  obtain ⟨hf,hb,hh,-⟩ := feedAll_wire size (numbered sent).flatten hxs tail hc
  exact ⟨hf,hb,hh⟩

/-- Seen by reassembly, the intact messages are those of which no frame was damaged. -/
theorem intact_numbered (size : Nat) (hsend : ∀ p ∈ sent.flatten, p.Sendable) (messages : List Message) :
    Assembly.intact (view size) messages (numbered sent) =
      ((messages.zip sent).filter fun p => p.2.all (·.damage.isNone)).map Prod.fst := by
  have hfst : messages.zip sent = (messages.zip sent.zipIdx).map fun p => (p.1,p.2.1) := by
    conv_lhs => rw [← List.zipIdx_map_fst 0 sent,List.zip_map_right]
    rfl
  have hall : ∀ p ∈ messages.zip sent.zipIdx,
      ((p.2.1.map (p.2.2,·)).all fun x => (view size x).isSome) = p.2.1.all (·.damage.isNone) := by
    intro p hp
    have hmem : p.2.1 ∈ sent := List.fst_mem_of_mem_zipIdx (List.of_mem_zip hp).2
    rw [List.all_map,Bool.eq_iff_iff,List.all_eq_true,List.all_eq_true]
    refine forall₂_congr fun q hq => ?_
    rw [Option.isNone_iff_eq_none,
      ← segment_ne_none_iff size (hsend q (List.mem_flatten_of_mem hmem hq))]
    exact Option.isSome_iff_ne_none
  rw [Assembly.intact,numbered,List.zip_map_right,hfst,List.filter_map,List.filter_map,List.map_map,
    List.map_map]
  exact congrArg _ (List.filter_congr hall)

/-- If a message comes out at the end of the frames of `m`, none of these was damaged, the
decoder had held no data of the same kind, and the data of `m` is not too long. -/
def Undisturbed (size : Nat) (before : Decoder) (m : Message) (ps : List Passage) : Prop :=
  (∃ found ∈ (before.feedAll size [wire ps]).1, found ≠ .defective) →
    (∀ p ∈ ps, p.damage = none) ∧ before.pending.map Reassembly.kind ≠ some m.kind ∧
      ∀ data, m.toBytes = .ok data → data.length ≤ 65535

theorem undisturbed_iff_complete (hsize : 0 < size) {m : Message} {ps : List Passage}
    (hm : m.parts size = .ok (ps.map (·.frame.part))) (hps : ∀ p ∈ ps, p.Sendable) (i : Nat)
    {before : Decoder} {held : List (Nat × Passage)} (hb : before.buffer = [])
    (hh : Assembly.Holding (view size) before.pending held) :
    Undisturbed size before m ps ↔ Assembly.Complete (view size) held (ps.map (i,·)) := by
  have hsound : Assembly.sound (view size)
      (Assembly.assemble (view size) held (ps.map (i,·))).1 =
        (before.feedAll size [wire ps]).1.filter (· ≠ .defective) := by
    rw [Assembly.sound,feedAll_row hps i hb hh]
  have hseen : (∀ x ∈ ps.map (i,·), view size x ≠ none) ↔ ∀ p ∈ ps, p.damage = none := by
    rw [List.forall_mem_map]
    exact forall₂_congr fun p hp => segment_ne_none_iff size (hps p hp)
  rw [(carries_of_parts hm i).complete_iff hsize,hsound,hseen,hh.front_eq_nil_iff,Undisturbed]
  simp only [List.mem_filter,decide_eq_true_eq,forall_exists_index,maxReassembled]

theorem undisturbed_iff_complete_sent (hsize : 0 < size) {messages : List Message}
    (h : List.Forall₂ (fun m ps => m.parts size = .ok (ps.map (·.frame.part))) messages sent)
    (hsend : ∀ p ∈ sent.flatten, p.Sendable) {i : Nat} {m : Message} {ps : List Passage}
    (hi : messages[i]? = some m) (hs : sent[i]? = some ps) :
    Undisturbed size (Decoder.empty.feedAll size [wire (sent.take i).flatten]).2 m ps ↔
      Assembly.Complete (view size)
        (Assembly.assemble (view size) [] (numbered (sent.take i)).flatten).2 (ps.map (i,·)) := by
  have htake : ∀ p ∈ (sent.take i).flatten, p.Sendable := by
    intro p hp
    obtain ⟨row,hrow,hp⟩ := List.mem_flatten.mp hp
    exact hsend p (List.mem_flatten_of_mem (List.mem_of_mem_take hrow) hp)
  have hps : ∀ p ∈ ps, p.Sendable := fun p hp =>
    hsend p (List.mem_flatten_of_mem (List.mem_of_getElem? hs) hp)
  obtain ⟨-,hb,hh⟩ := feedAll_sent size htake Noise.silence [wire (sent.take i).flatten]
    (by simp [Noise.silence])
  exact undisturbed_iff_complete hsize (Assembly.of_getElem?_forall₂ h hi hs) hps i hb hh

end Passage

/-- Messages of any kinds that travel are sent in full segments with a shorter one at the end,
and any of their frames are damaged on their way.  No message comes out forged exactly if, for
each message at whose end a message comes out, none of its frames was damaged, no data of its
own kind was held before its first frame and it is not too long.  Then what comes out, but for
the signs of damage, is some of the messages that arrived whole, in order. -/
theorem Decoder.feedAll_damaged {size : Nat} (hsize : 1 ≤ size) (hmax : size ≤ 255)
    {messages : List Message} {parts : List (List (UInt8 × Bytes))}
    (hparts : messages.mapM (Message.parts size) = .ok parts) {sent : List (List Passage)}
    (hsent : sent.map (fun ps => ps.map (·.frame.part)) = parts) (tail : Noise)
    (chunks : List Bytes) (hc : chunks.flatten = Passage.wire sent.flatten ++ tail.bytes) :
    let fed := empty.feedAll size chunks
    fed.1 = (Passage.deliveries size sent).map (Assembly.message (Passage.view size)) ∧
      (Passage.Unforged size sent ↔
        ∀ i m ps, messages[i]? = some m → sent[i]? = some ps →
          let before := (empty.feedAll size [Passage.wire (sent.take i).flatten]).2
          Passage.Undisturbed size before m ps) ∧
      (Passage.Unforged size sent →
        (fed.1.filter (· ≠ .defective)).Sublist
          (((messages.zip sent).filter fun p => p.2.all (·.damage.isNone)).map Prod.fst)) := by
  intro fed
  have hp := Message.forall₂_of_mapM_parts hparts
  rw [← hsent] at hp
  have hsend := Passage.sendable_of_parts hsize hmax hp
  rw [List.forall₂_map_right_iff] at hp
  obtain ⟨hfed,-,-⟩ := Passage.feedAll_sent size hsend tail chunks hc
  have hcomplete := Passage.unforged_iff_complete hsize hp
  refine ⟨hfed,?_,?_⟩
  · rw [hcomplete]
    constructor
    · intro hall i m ps hi hs
      exact (Passage.undisturbed_iff_complete_sent hsize hp hsend hi hs).mpr (hall i ps hs)
    · intro hall i ps hs
      have hlt : i < messages.length := by
        rw [hp.length_eq]
        exact (List.getElem?_eq_some_iff.mp hs).1
      have hi : messages[i]? = some messages[i] := List.getElem?_eq_getElem hlt
      exact (Passage.undisturbed_iff_complete_sent hsize hp hsend hi hs).mp (hall i _ ps hi hs)
  · intro hall
    rw [hfed,← Passage.intact_numbered size hsend messages]
    refine Assembly.sound_sublist_intact hsize
      (Passage.forall₂_numbered hp fun i m ps h => Passage.carries_of_parts h i) ?_
    intro i row hi
    rw [Passage.getElem?_numbered] at hi
    obtain ⟨ps,hs,rfl⟩ := Option.map_eq_some_iff.mp hi
    rw [Passage.take_numbered]
    exact hcomplete.mp hall i ps hs

/-- The end of the first message is damaged; its held segment is given up for a message of
another kind. -/
theorem Decoder.feedAll_damaged_other_kind :
    let messages : List Message := [.memList ⟨[97,98,99,100,120]⟩,.ack]
    let sent : List (List Passage) :=
      [[⟨.silence,⟨1,7,[97,98,99,100]⟩,none⟩,⟨.silence,⟨2,7,[120]⟩,some (.checksum _)⟩],
        [⟨.silence,⟨3,1,[]⟩,none⟩]]
    messages.mapM (Message.parts 4) = .ok (sent.map fun ps => ps.map (·.frame.part)) ∧
      Passage.Unforged 4 sent ∧
      ((empty.feedAll 4 [Passage.wire sent.flatten]).1.filter (· ≠ .defective)).Sublist [.ack] := by
  intro messages sent
  have hparts : messages.mapM (Message.parts 4) =
      .ok (sent.map fun ps => ps.map (·.frame.part)) := by cbv
  obtain ⟨-,-,h⟩ := feedAll_damaged (show 1 ≤ 4 by decide) (by decide) hparts rfl .silence
    [Passage.wire sent.flatten] (by simp [Noise.silence])
  have hun : Passage.Unforged 4 sent := by
    intro kind group hd _
    have hd' : .group kind group ∈
        [Delivery.damaged (0,_),.group .ack [(1,⟨.silence,⟨3,1,[]⟩,none⟩)]] := hd
    simp only [List.mem_cons,List.not_mem_nil,or_false,reduceCtorEq,false_or,
      Delivery.group.injEq] at hd'
    rw [hd'.2]
    exact List.mem_of_getElem? (i := 1) rfl
  exact ⟨hparts,hun,h hun⟩

/-- The end of a message is damaged, and the next message is of the same kind: it comes out
with the held segment in front of it. -/
theorem Decoder.feedAll_damaged_same_kind :
    let messages : List Message := [.memList ⟨[97,98,99,100,120]⟩,.memList ⟨[121]⟩]
    let sent : List (List Passage) :=
      [[⟨.silence,⟨1,7,[97,98,99,100]⟩,none⟩,⟨.silence,⟨2,7,[120]⟩,some (.checksum _)⟩],
        [⟨.silence,⟨3,7,[121]⟩,none⟩]]
    let found := (empty.feedAll 4 [Passage.wire sent.flatten]).1
    messages.mapM (Message.parts 4) = .ok (sent.map fun ps => ps.map (·.frame.part)) ∧
      found = [.defective,.memList ⟨[97,98,99,100,121]⟩] ∧
      ¬(found.filter (· ≠ .defective)).Sublist messages := by
  intro messages sent found
  have hparts : messages.mapM (Message.parts 4) =
      .ok (sent.map fun ps => ps.map (·.frame.part)) := by cbv
  have hsend := Passage.sendable_of_parts (show 1 ≤ 4 by decide) (by decide)
    (Message.forall₂_of_mapM_parts hparts)
  have hfound : found = [.defective,.memList ⟨[97,98,99,100,121]⟩] :=
    (Passage.feedAll_sent 4 hsend .silence _ (by simp [Noise.silence])).1.trans (by decide)
  refine ⟨hparts,hfound,?_⟩
  rw [hfound]
  decide

end RemotePyMite
