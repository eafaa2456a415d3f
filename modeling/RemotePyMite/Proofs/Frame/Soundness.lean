import RemotePyMite.Proofs.Frame.Taken

/-! # No message without its frames

Whatever bytes a decoder is fed and whatever length of full segments each call is given, each message
that comes out is made of frames of the stream, in one piece and of no other message.
-/
namespace RemotePyMite

theorem SyncParameters.length_of_error {data : Bytes} {e : MessageError}
    (h : ofBytes data = .error e) : data.length < syncDataLength := by
  unfold ofBytes at h
  split at h
  · next id =>
    split at h
    · cases h
    · next hl =>
      simp only [syncIdLength] at hl
      simp only [List.length_cons,syncDataLength]
      omega
  · next hne =>
    match data with
    | [] | [_] | [_,_] => simp [syncDataLength]
    | reset :: size :: word :: id => exact absurd rfl (hne reset size word id)

/-- Data has no meaning only for link parameters, and only if it is too short for them. -/
theorem Message.sync_of_error {kind : Kind} {data : Bytes} {e : MessageError}
    (h : ofKind kind data = .error e) : kind = .sync ∧ data.length < syncDataLength := by
  cases kind with
  | sync =>
    refine ⟨rfl,?_⟩
    simp only [ofKind] at h
    cases hp : SyncParameters.ofBytes data with
    | error e => exact SyncParameters.length_of_error hp
    | ok p =>
      rw [hp] at h
      cases h
  | _ => cases h

theorem Message.ne_defective_of_ofWire {id : UInt8} {data : Bytes} {m : Message}
    (h : ofWire id data = .ok m) : m ≠ .defective := by
  unfold ofWire at h
  cases hk : Kind.ofWire? id with
  | none =>
    rw [hk] at h
    cases h
  | some kind =>
    rw [hk] at h
    rintro rfl
    have hw := Kind.ofWire?_eq_some_iff.mp hk
    cases kind with
    | defective => cases hw
    | sync =>
      simp only [ofKind] at h
      cases hp : SyncParameters.ofBytes data <;> rw [hp] at h <;> cases h
    | _ => cases h

namespace Taken
open Assembly

/-- The frames of one message: all of its kind and with a right checksum, all but the last full, and
their data is that of the message. -/
structure Forms (kind : Kind) (front : List Taken) (last : Taken) (data : Bytes) : Prop where
  valid : ∀ t ∈ front ++ [last], t.Valid ∧ Kind.ofWire? t.frame.kind = some kind
  full : ∀ t ∈ front, t.IsFull
  ends : ¬last.IsFull
  data_eq : data = (front ++ [last]).flatMap fun t => t.frame.data
  length_le : data.length ≤ 65535

/-- What a message that comes out is made of. -/
inductive Makes : Delivery Taken → Message → Prop
  | corrupt {t : Taken} (h : ¬t.Valid) : Makes (.damaged t) .defective
  | whole {kind : Kind} {front : List Taken} {last : Taken} {data : Bytes} {m : Message}
      (h : Forms kind front last data) (hm : Message.ofWire last.frame.kind data = .ok m)
      (hne : m ≠ .defective) : Makes (.group kind (front ++ [last])) m
  /-- Link parameters that are too short. -/
  | short {front : List Taken} {last : Taken} {data : Bytes} (h : Forms .sync front last data)
      (hl : data.length < 19) : Makes (.group .sync (front ++ [last])) .defective

theorem segment_eq_some_iff {t : Taken} {s : Segment} :
    t.segment = some s ↔ t.Valid ∧ Kind.ofWire? t.frame.kind = some s.kind ∧ s.data = t.frame.data ∧
      s.full = decide t.IsFull := by
  unfold segment
  by_cases hv : t.Valid
  · rw [if_pos hv,Option.map_eq_some_iff]
    constructor
    · rintro ⟨kind,hk,rfl⟩
      exact ⟨hv,hk,rfl,rfl⟩
    · rintro ⟨-,hk,hd,hf⟩
      refine ⟨s.kind,hk,?_⟩
      rw [← hd,← hf]
  · rw [if_neg hv]
    simp [hv]

theorem segment_ne_none_iff {t : Taken} (hk : (Kind.ofWire? t.frame.kind).isSome) :
    t.segment.isSome = decide t.Valid := by
  unfold segment
  by_cases hv : t.Valid
  · rw [if_pos hv,Option.isSome_map,hk,decide_eq_true hv]
  · rw [if_neg hv,decide_eq_false hv]
    rfl

theorem payload_of_valid {ts : List Taken} (h : ∀ t ∈ ts, t.segment ≠ none) :
    payload segment ts = ts.flatMap fun t => t.frame.data := by
  refine List.flatMap_congr fun t ht => ?_
  obtain ⟨s,hs⟩ := Option.ne_none_iff_exists'.mp (h t ht)
  rw [hs,← (segment_eq_some_iff.mp hs).2.2.1]
  rfl

theorem valid_of_ofKind {kind : Kind} {ts : List Taken} (h : OfKind segment kind ts) :
    ∀ t ∈ ts, t.Valid ∧ Kind.ofWire? t.frame.kind = some kind := by
  intro t ht
  obtain ⟨s,hs,rfl⟩ := Option.map_eq_some_iff.mp (h t ht)
  obtain ⟨hv,hk,-⟩ := segment_eq_some_iff.mp hs
  exact ⟨hv,hk⟩

theorem isFull_of_segment {t : Taken} {full : Bool} (h : t.segment.map Segment.full = some full) :
    decide t.IsFull = full := by
  obtain ⟨s,hs,rfl⟩ := Option.map_eq_some_iff.mp h
  exact (segment_eq_some_iff.mp hs).2.2.2.symm

theorem payload_of_ofKind {kind : Kind} {ts : List Taken} (h : OfKind segment kind ts) :
    payload segment ts = ts.flatMap fun t => t.frame.data := by
  refine payload_of_valid fun t ht hnone => ?_
  simpa [hnone] using h t ht

theorem forms_of_forms {kind : Kind} {front : List Taken} {last : Taken}
    (h : Assembly.Forms segment kind front last) :
    Forms kind front last (payload segment (front ++ [last])) where
  valid := valid_of_ofKind h.ofKind
  full := fun t ht => of_decide_eq_true (isFull_of_segment (h.full t ht))
  ends := of_decide_eq_false (isFull_of_segment h.ends)
  data_eq := payload_of_ofKind h.ofKind
  length_le := h.length_le

theorem makes_group {kind : Kind} {front : List Taken} {last : Taken}
    (h : Assembly.Forms segment kind front last) :
    Makes (.group kind (front ++ [last])) (message segment (.group kind (front ++ [last]))) := by
  have hf := forms_of_forms h
  have hk := (hf.valid last (by simp)).2
  rw [message,Message.ofKindOrDefective]
  cases hm : Message.ofKind kind (payload segment (front ++ [last])) with
  | ok m =>
    have hw : Message.ofWire last.frame.kind (payload segment (front ++ [last])) = .ok m := by
      rw [Message.ofWire,hk]
      exact hm
    exact .whole hf hw (Message.ne_defective_of_ofWire hw)
  | error e =>
    obtain ⟨rfl,hl⟩ := Message.sync_of_error hm
    exact .short hf hl

end Taken

namespace Decoder
open Assembly

/-- What becomes of the frames that are taken out of a stream: some stand for messages, and `held` are
those of a message that has not ended. -/
structure Account (frames : List Taken) (deliveries : List (Delivery Taken)) (held : List Taken) :
    Prop where
  /-- No two frames overlap, and each lies behind those taken out before it. -/
  ordered : frames.Pairwise fun a b => a.stop ≤ b.position
  /-- Each message is made of frames that follow one another among those with a right checksum, and
  no frame is in two messages. -/
  pieces : PiecesOf (deliveries.filterMap Delivery.group? ++ [held])
    (frames.filter fun t => t.Valid)
  damaged : deliveries.filterMap Delivery.damaged? = frames.filter fun t => ¬t.Valid
  makes : ∀ delivery ∈ deliveries, Taken.Makes delivery (message Taken.segment delivery)

/-- The data that waits for the end of its message is that of full frames of one kind. -/
structure Waits (r : Reassembly) (held : List Taken) : Prop where
  valid : ∀ t ∈ held, t.Valid ∧ Kind.ofWire? t.frame.kind = some r.kind
  full : ∀ t ∈ held, t.IsFull
  data_eq : r.data = held.flatMap fun t => t.frame.data
  length_le : r.data.length ≤ 65535

theorem waits_of_holding {pending : Option Reassembly} {held : List Taken}
    (h : Holding Taken.segment pending held) (hu : Upheld Taken.segment held) {r : Reassembly}
    (hr : pending = some r) : Waits r held := by
  rw [hr] at h
  obtain ⟨-,hk,hd⟩ := h
  refine ⟨Taken.valid_of_ofKind hk,?_,hd.trans (Taken.payload_of_ofKind hk),hd ▸ hu.length_le⟩
  exact fun t ht => of_decide_eq_true (Taken.isFull_of_segment (hu.full t ht))

theorem account_of_assemble {frames : List Taken} (ho : frames.Pairwise fun a b => a.stop ≤ b.position)
    (hk : ∀ t ∈ frames, (Kind.ofWire? t.frame.kind).isSome) :
    Account frames (assemble Taken.segment [] frames).1 (assemble Taken.segment [] frames).2 := by
  refine ⟨ho,?_,?_,?_⟩
  · have hseen : seen Taken.segment frames = frames.filter fun t => t.Valid :=
      List.filter_congr fun t ht => Taken.segment_ne_none_iff (hk t ht)
    rw [← hseen]
    exact piecesOf_assemble [] frames
  · rw [damaged_assemble]
    refine List.filter_congr fun t ht => ?_
    rw [← Option.not_isSome,Taken.segment_ne_none_iff (hk t ht)]
    simp
  · intro delivery hd
    cases delivery with
    | damaged t =>
      have hmem : t ∈ (assemble Taken.segment [] frames).1.filterMap Delivery.damaged? :=
        List.mem_filterMap.mpr ⟨_,hd,rfl⟩
      rw [damaged_assemble,List.mem_filter] at hmem
      refine .corrupt fun hv => ?_
      have hsome := Taken.segment_ne_none_iff (hk t hmem.1)
      simp [decide_eq_true hv,← Option.not_isSome,hsome] at hmem
    | group kind group =>
      obtain ⟨front,last,rfl,hf⟩ := exists_forms (upheld_nil Taken.segment) hd
      exact Taken.makes_group hf

theorem Rounds.kinds {stream : Bytes} {requests : List Request} {rounds : List Round}
    (h : Rounds stream requests rounds) :
    ∀ t ∈ rounds.flatMap Round.taken, (Kind.ofWire? t.frame.kind).isSome := by
  induction h with
  | nil => exact List.forall_mem_nil _
  | cons h _ ih =>
    intro t ht
    rw [List.flatMap_cons] at ht
    rcases List.mem_append.mp ht with ht | ht
    · exact (h.liesIn t ht).kind
    · exact ih t ht

/-- However a decoder is called, it cuts the bytes it is fed into frames that lie one behind another,
and each message it returns stands for frames of its own: a defective one for a single frame with a
wrong checksum or for link parameters that are too short, any other for the frames whose data it is. -/
theorem exists_rounds (requests : List Request) :
    ∃ (rounds : List Round) (held : List Taken), Rounds [] requests rounds ∧
      (answers empty requests).1 = rounds.map Round.message ∧
      Account (rounds.flatMap Round.taken) (rounds.filterMap Round.delivery) held ∧
      ∀ r, (answers empty requests).2.pending = some r → Waits r held := by
  obtain ⟨rounds,stop,hrounds,-,hbetween,hanswers,htold,hheld⟩ :=
    exists_rounds_of_holding (d := empty) requests (show Holding Taken.segment none [] from rfl) []
  refine ⟨rounds,_,hrounds,hanswers,?_,fun r => waits_of_holding hheld ?_⟩
  · rw [← htold]
    exact account_of_assemble hbetween.ordered hrounds.kinds
  · exact upheld_assemble (upheld_nil Taken.segment) _

end Decoder

end RemotePyMite
