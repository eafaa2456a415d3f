import Mathlib.Data.List.Forall2
import RemotePyMite.Proofs.Frame.Grouping
import RemotePyMite.Proofs.Frame.Segments

/-! # Messages one after another, some of their frames damaged

The frames of each message stand in a row of their own, full segments first and a shorter one
at the end.  A row leads to at most one message, at its end.  That message is made of the
whole row and of nothing else exactly if no frame of the row is damaged and nothing that was
held before the row goes in front of it (`group_eq_row_iff`).
-/
namespace RemotePyMite.Assembly
variable {α : Type} {view : α → Option Segment} {kind : Kind} {held : List α}

theorem mem_assemble_flatten {rows : List (List α)} {delivery : Delivery α} :
    delivery ∈ (assemble view held rows.flatten).1 ↔
      ∃ i row, rows[i]? = some row ∧
        delivery ∈ (assemble view (assemble view held (rows.take i).flatten).2 row).1 := by
  induction rows generalizing held with
  | nil => simp [assemble]
  | cons row rest ih =>
    rw [List.flatten_cons,assemble_append,List.mem_append,ih]
    constructor
    · rintro (h | ⟨i,other,hi,h⟩)
      · exact ⟨0,row,rfl,h⟩
      · refine ⟨i + 1,other,hi,?_⟩
        rwa [List.take_succ_cons,List.flatten_cons,assemble_append]
    · rintro ⟨i,other,hi,h⟩
      cases i with
      | zero =>
        cases hi
        exact .inl h
      | succ i =>
        rw [List.take_succ_cons,List.flatten_cons,assemble_append] at h
        exact .inr ⟨i,other,hi,h⟩

/-- Full segments of a message, some of them damaged. -/
def Full (view : α → Option Segment) (kind : Kind) (xs : List α) : Prop :=
  ∀ x ∈ xs, view x = none ∨ ∃ data, view x = some ⟨kind,data,true⟩

/-- The end of a message, perhaps damaged. -/
def Ending (view : α → Option Segment) (kind : Kind) (x : α) : Prop :=
  view x = none ∨ ∃ data, view x = some ⟨kind,data,false⟩

theorem Full.eq_damaged {xs : List α} (h : Full view kind xs) {delivery : Delivery α}
    (hd : delivery ∈ (assemble view held xs).1) : ∃ x, delivery = .damaged x := by
  induction xs generalizing held with
  | nil => simp [assemble] at hd
  | cons x rest ih =>
    obtain ⟨hx,hrest⟩ := List.forall_mem_cons.mp h
    rcases hx with hx | ⟨data,hx⟩
    · rw [assemble_damaged hx] at hd
      rcases List.mem_cons.mp hd with rfl | hd
      · exact ⟨x,rfl⟩
      · exact ih hrest hd
    · by_cases hl : maxReassembled < (payload view (front view held kind ++ [x])).length
      · rw [assemble_too_long hx _ hl] at hd
        exact ih hrest hd
      · rw [assemble_full hx _ hl rfl] at hd
        exact ih hrest hd

theorem Ending.eq_group {x : α} (h : Ending view kind x) {k : Kind} {group : List α}
    (hd : .group k group ∈ (assemble view held [x]).1) :
    view x ≠ none ∧ k = kind ∧ group = front view held kind ++ [x] := by
  rcases h with hx | ⟨data,hx⟩
  · rw [assemble_damaged hx,assemble] at hd
    simp at hd
  · by_cases hl : maxReassembled < (payload view (front view held kind ++ [x])).length
    · rw [assemble_too_long hx _ hl,assemble] at hd
      simp at hd
    · rw [assemble_end hx _ hl rfl,assemble] at hd
      simp only [List.mem_singleton,Delivery.group.injEq] at hd
      exact ⟨by simp [hx],hd.1,hd.2⟩

theorem group_of_row {xs : List α} {x : α} (hxs : Full view kind xs) (hx : Ending view kind x)
    {k : Kind} {group : List α} (hd : .group k group ∈ (assemble view held (xs ++ [x])).1) :
    view x ≠ none ∧ k = kind ∧
      group = front view (assemble view held xs).2 kind ++ [x] := by
  rw [assemble_append] at hd
  rcases List.mem_append.mp hd with hd | hd
  · obtain ⟨y,hy⟩ := hxs.eq_damaged hd
    cases hy
  · exact hx.eq_group hd

theorem length_front_le (held : List α) (kind : Kind) :
    (front view held kind).length ≤ held.length := by
  unfold front
  split <;> simp

theorem length_assemble_le (held xs : List α) :
    (assemble view held xs).2.length ≤ held.length + xs.length := by
  induction held, xs using assemble_induction view with
  | nil held => rfl
  | damaged held x rest hx ih =>
    rw [assemble_damaged hx,List.length_cons]
    dsimp only
    omega
  | tooLong held x rest segment hx hl ih =>
    rw [assemble_too_long hx _ hl,List.length_cons]
    rw [List.length_nil] at ih
    omega
  | full held x rest segment hx hl hf ih =>
    have hfront := @length_front_le _ view held segment.kind
    rw [assemble_full hx _ hl hf,List.length_cons]
    rw [List.length_append,List.length_singleton] at ih
    omega
  | ending held x rest segment hx hl hf ih =>
    rw [assemble_end hx _ hl hf,List.length_cons]
    rw [List.length_nil] at ih
    dsimp only
    omega

/-- Behind full segments of its own kind what is held has grown by all of them, or it became
too long on the way and less than these are held. -/
theorem length_assemble_full {xs : List α}
    (hxs : ∀ x ∈ xs, ∃ data, view x = some ⟨kind,data,true⟩) (hh : OfKind view kind held) :
    (assemble view held xs).2.length = held.length + xs.length ∨
      (assemble view held xs).2.length < xs.length := by
  induction xs generalizing held with
  | nil => exact .inl rfl
  | cons x rest ih =>
    obtain ⟨⟨data,hx⟩,hrest⟩ := List.forall_mem_cons.mp hxs
    have hf := front_of_ofKind hh
    by_cases hl : maxReassembled < (payload view (front view held kind ++ [x])).length
    · have hnil := @length_assemble_le _ view [] rest
      rw [assemble_too_long hx _ hl]
      simp only [List.length_nil,List.length_cons] at hnil ⊢
      omega
    · rw [assemble_full hx _ hl rfl,hf]
      have hi := ih hrest (hh.append (ofKind_singleton hx))
      simp only [List.length_append,List.length_cons,List.length_nil] at hi ⊢
      omega

theorem assemble_congr_front {x : α} {segment : Segment} (hx : view x = some segment)
    {other : List α} (h : front view held segment.kind = front view other segment.kind)
    (rest : List α) : assemble view held (x :: rest) = assemble view other (x :: rest) := by
  simp only [assemble,hx,h]

theorem exists_of_mem_forall₂ {β : Type} {R : α → β → Prop} {xs : List α} {ys : List β}
    (h : List.Forall₂ R xs ys) {x : α} (hx : x ∈ xs) : ∃ y ∈ ys, R x y := by
  induction h with
  | nil => cases hx
  | @cons z y xs ys hr _ ih =>
    rcases List.mem_cons.mp hx with rfl | hx
    · exact ⟨y,List.mem_cons_self,hr⟩
    · obtain ⟨y',hy',hr'⟩ := ih hx
      exact ⟨y',List.mem_cons_of_mem _ hy',hr'⟩

theorem of_getElem?_forall₂ {β : Type} {R : α → β → Prop} {xs : List α} {ys : List β}
    (h : List.Forall₂ R xs ys) {i : Nat} {x : α} {y : β} (hx : xs[i]? = some x)
    (hy : ys[i]? = some y) : R x y := by
  obtain ⟨hi,rfl⟩ := List.getElem?_eq_some_iff.mp hx
  obtain ⟨hj,rfl⟩ := List.getElem?_eq_some_iff.mp hy
  exact (List.forall₂_iff_get.mp h).2 i hi hj

/-- The frames of a message, each of them either damaged or seen as its segment. -/
def Row (view : α → Option Segment) (size : Nat) (kind : Kind) (data : Bytes) (row : List α) :
    Prop :=
  List.Forall₂ (fun x segment => view x = none ∨ view x = some segment) row
    (segmentsOf size kind data)

variable {size : Nat} {data : Bytes} {row : List α}

theorem Row.exists_ending (hsize : 0 < size) (h : Row view size kind data row) :
    ∃ xs x, row = xs ++ [x] ∧ Full view kind xs ∧ Ending view kind x := by
  obtain ⟨front,last,he,hfront,hlast⟩ := Bytes.exists_segments hsize data
  unfold Row at h
  rw [segmentsOf,he,List.map_append] at h
  have hxs := List.forall₂_take_append row _ _ h
  have hx := List.forall₂_drop_append row _ _ h
  rw [List.map_singleton,List.forall₂_cons_right_iff] at hx
  obtain ⟨x,rest,hx,hnil,hdrop⟩ := hx
  rw [List.forall₂_nil_right_iff.mp hnil] at hdrop
  refine ⟨_,x,by rw [← hdrop,List.take_append_drop],?_,?_⟩
  · intro y hy
    obtain ⟨segment,hs,hv⟩ := exists_of_mem_forall₂ hxs hy
    obtain ⟨part,hp,rfl⟩ := List.mem_map.mp hs
    refine hv.imp_right fun hv => ⟨part,hv.trans ?_⟩
    simp [hfront part hp,hsize]
  · refine hx.imp_right fun hx => ⟨last,hx.trans ?_⟩
    simp [hlast.ne]

theorem Row.map_view (h : Row view size kind data row) (hw : ∀ x ∈ row, view x ≠ none) :
    row.map view = (segmentsOf size kind data).map some := by
  unfold Row at h
  generalize segmentsOf size kind data = segments at h ⊢
  induction h with
  | nil => rfl
  | @cons x segment rest more hx _ ih =>
    obtain ⟨hne,hrest⟩ := List.forall_mem_cons.mp hw
    rw [List.map_cons,List.map_cons,ih hrest,hx.resolve_left hne]

/-- A whole row of which nothing held goes in front is one message. -/
theorem Row.assemble_whole (hsize : 0 < size) (h : Row view size kind data row)
    (hlen : data.length ≤ maxReassembled) (hw : ∀ x ∈ row, view x ≠ none)
    (hfront : front view held kind = []) : assemble view held row = ([.group kind row],[]) := by
  have hmap := h.map_view hw
  have hnil := assemble_segments hsize hmap hlen []
  rw [List.append_nil] at hnil
  rw [← show assemble view [] row = ([.group kind row],[]) from hnil]
  obtain ⟨xs,x,hrow,-,-⟩ := h.exists_ending hsize
  cases row with
  | nil => simp at hrow
  | cons y rest =>
    obtain ⟨segment,hs,hv⟩ := exists_of_mem_forall₂ h List.mem_cons_self
    obtain ⟨part,-,rfl⟩ := List.mem_map.mp hs
    refine assemble_congr_front (hv.resolve_left (hw y List.mem_cons_self)) ?_ rest
    exact hfront.trans (front_of_ofKind (ofKind_nil kind)).symm

theorem length_payload_of_group {xs : List α} {k : Kind} {group : List α}
    (hd : .group k group ∈ (assemble view held xs).1) :
    (payload view group).length ≤ maxReassembled := by
  induction held, xs using assemble_induction view with
  | nil held => simp [assemble] at hd
  | damaged held x rest hx ih =>
    rw [assemble_damaged hx] at hd
    rcases List.mem_cons.mp hd with hd | hd
    · cases hd
    · exact ih hd
  | tooLong held x rest segment hx hl ih =>
    rw [assemble_too_long hx _ hl] at hd
    exact ih hd
  | full held x rest segment hx hl hf ih =>
    rw [assemble_full hx _ hl hf] at hd
    exact ih hd
  | ending held x rest segment hx hl hf ih =>
    rw [assemble_end hx _ hl hf] at hd
    rcases List.mem_cons.mp hd with hd | hd
    · cases hd
      exact Nat.le_of_not_lt hl
    · exact ih hd

/-- If exactly full segments of a kind are held behind them, then nothing was in front. -/
theorem front_eq_nil_of_full {xs : List α} (hxs : ∀ x ∈ xs, ∃ data, view x = some ⟨kind,data,true⟩)
    (h : front view (assemble view held xs).2 kind = xs) : front view held kind = [] := by
  by_cases hh : OfKind view kind held
  · rw [front_of_ofKind hh]
    have hlength := length_assemble_full hxs hh
    cases xs with
    | nil => exact (front_of_ofKind hh).symm.trans h
    | cons x rest =>
      have hall : (assemble view held (x :: rest)).2 = x :: rest := by
        unfold front at h
        split at h
        · exact h
        · cases h
      -- What was held in front would make the row longer.
      rw [hall] at hlength
      exact List.eq_nil_of_length_eq_zero (by omega)
  · exact if_neg hh

/-- The message delivered at the end of a row is the one the row carries, frame by frame,
exactly if none of the frames is damaged, nothing held goes in front of them and their data is
not too long. -/
theorem group_eq_row_iff (hsize : 0 < size) (h : Row view size kind data row) {k : Kind}
    {group : List α} (hd : .group k group ∈ (assemble view held row).1) :
    group = row ↔ (∀ x ∈ row, view x ≠ none) ∧ front view held kind = [] ∧
      data.length ≤ maxReassembled := by
  constructor
  · intro he
    obtain ⟨xs,x,hrow,hxs,hx⟩ := h.exists_ending hsize
    obtain ⟨hne,-,hg⟩ := group_of_row hxs hx (hrow ▸ hd)
    have hheld : front view (assemble view held xs).2 kind = xs := by
      rw [hrow,hg] at he
      exact List.append_cancel_right he
    have hof : OfKind view kind xs := hheld ▸ ofKind_front _ _
    have hseen : ∀ y ∈ xs, view y ≠ none := fun y hy hv => by simpa [hv] using hof y hy
    have hfull : ∀ y ∈ xs, ∃ data, view y = some ⟨kind,data,true⟩ :=
      fun y hy => (hxs y hy).resolve_left (hseen y hy)
    have hwhole : ∀ y ∈ row, view y ≠ none := by
      rw [hrow]
      intro y hy
      rcases List.mem_append.mp hy with hy | hy
      · exact hseen y hy
      · exact List.mem_singleton.mp hy ▸ hne
    have hp := payload_of_segmentsOf (h.map_view hwhole)
    have hl := length_payload_of_group hd
    rw [he,hp] at hl
    exact ⟨hwhole,front_eq_nil_of_full hfull hheld,hl⟩
  · rintro ⟨hw,hfront,hlen⟩
    rw [h.assemble_whole hsize hlen hw hfront,List.mem_singleton] at hd
    exact (Delivery.group.inj hd).2

/-- The messages that are delivered and are not the sign of damage. -/
def sound (view : α → Option Segment) (deliveries : List (Delivery α)) : List Message :=
  (deliveries.map (message view)).filter (· ≠ .defective)

theorem mem_sound {deliveries : List (Delivery α)} {m : Message} (hm : m ∈ sound view deliveries) :
    ∃ k group, .group k group ∈ deliveries ∧ message view (.group k group) = m ∧
      m ≠ .defective := by
  obtain ⟨hm,hne⟩ := List.mem_filter.mp hm
  obtain ⟨delivery,hd,rfl⟩ := List.mem_map.mp hm
  cases delivery with
  | damaged x => exact absurd hne (by simp [message])
  | group k group => exact ⟨k,group,hd,rfl,by simpa using hne⟩

theorem sound_append (xs ys : List (Delivery α)) :
    sound view (xs ++ ys) = sound view xs ++ sound view ys := by
  simp [sound]

theorem length_assemble_singleton (held : List α) (x : α) :
    (assemble view held [x]).1.length ≤ 1 := by
  rcases assemble_singleton_cases view held x with hnone | ⟨delivery,hone,-⟩
  · rw [hnone]
    exact Nat.zero_le 1
  · rw [hone,List.length_singleton]

theorem Row.length_sound (hsize : 0 < size) (h : Row view size kind data row) (held : List α) :
    (sound view (assemble view held row).1).length ≤ 1 := by
  obtain ⟨xs,x,rfl,hxs,hx⟩ := h.exists_ending hsize
  have hnone : sound view (assemble view held xs).1 = [] := by
    rw [List.eq_nil_iff_forall_not_mem]
    intro m hm
    obtain ⟨k,group,hd,-,-⟩ := mem_sound hm
    obtain ⟨y,hy⟩ := hxs.eq_damaged hd
    cases hy
  rw [assemble_append,sound_append,hnone,List.nil_append]
  refine (List.length_filter_le _ _).trans ?_
  rw [List.length_map]
  exact length_assemble_singleton _ x

/-- The row is the frames of the message, some of them perhaps damaged. -/
def Carries (view : α → Option Segment) (size : Nat) (m : Message) (row : List α) : Prop :=
  ∃ data, m.toBytes = .ok data ∧ Message.ofKindOrDefective m.kind data = m ∧
    Row view size m.kind data row

/-- No sound message is made of anything but the row that it ends. -/
def Complete (view : α → Option Segment) (held row : List α) : Prop :=
  ∀ k group, .group k group ∈ (assemble view held row).1 →
    message view (.group k group) ≠ .defective → group = row

theorem Carries.complete_iff (hsize : 0 < size) {m : Message} (h : Carries view size m row) :
    Complete view held row ↔ (∀ x ∈ sound view (assemble view held row).1,
      (∀ y ∈ row, view y ≠ none) ∧ front view held m.kind = [] ∧
        ∀ data, m.toBytes = .ok data → data.length ≤ maxReassembled) := by
  obtain ⟨data,hb,-,hrow⟩ := h
  constructor
  · intro hc x hx
    obtain ⟨k,group,hd,rfl,hne⟩ := mem_sound hx
    obtain ⟨hw,hf,hl⟩ := (group_eq_row_iff hsize hrow hd).mp (hc k group hd hne)
    refine ⟨hw,hf,?_⟩
    intro other ho
    rw [hb] at ho
    cases ho
    exact hl
  · intro hc k group hd hne
    have hx : message view (.group k group) ∈ sound view (assemble view held row).1 :=
      List.mem_filter.mpr ⟨List.mem_map_of_mem hd,by simpa using hne⟩
    obtain ⟨hw,hf,hl⟩ := hc _ hx
    exact (group_eq_row_iff hsize hrow hd).mpr ⟨hw,hf,hl data hb⟩

theorem assemble_lost {xs : List α} (hx : ∀ x ∈ xs, view x = none) (held : List α) :
    assemble view held xs = (xs.map Delivery.damaged,held) := by
  induction xs with
  | nil => rfl
  | cons x rest ih =>
    obtain ⟨hx,hrest⟩ := List.forall_mem_cons.mp hx
    rw [assemble_damaged hx,ih hrest,List.map_cons]

theorem held_of_whole_or_lost (hsize : 0 < size) {rows : List (List α)}
    (hrows : ∀ row ∈ rows, (∀ x ∈ row, view x = none) ∨ (∀ x ∈ row, view x ≠ none) ∧
      ∃ kind data, Row view size kind data row ∧ data.length ≤ maxReassembled) :
    (assemble view [] rows.flatten).2 = [] := by
  induction rows with
  | nil => rfl
  | cons row rest ih =>
    obtain ⟨hrow,hrest⟩ := List.forall_mem_cons.mp hrows
    rw [List.flatten_cons,assemble_append]
    rcases hrow with hlost | ⟨hwhole,kind,data,hrow,hlen⟩
    · rw [assemble_lost hlost]
      exact ih hrest
    · rw [hrow.assemble_whole hsize hlen hwhole (front_of_ofKind (ofKind_nil kind))]
      exact ih hrest

def intact (view : α → Option Segment) (messages : List Message) (rows : List (List α)) :
    List Message :=
  ((messages.zip rows).filter fun p => p.2.all fun x => (view x).isSome).map Prod.fst

theorem intact_cons (m : Message) (messages : List Message) (row : List α)
    (rows : List (List α)) :
    intact view (m :: messages) (row :: rows) =
      (if row.all fun x => (view x).isSome then [m] else []) ++ intact view messages rows := by
  simp only [intact,List.zip_cons_cons,List.filter_cons]
  split <;> rfl

theorem Carries.sound_sublist (hsize : 0 < size) {m : Message} (h : Carries view size m row)
    (hc : Complete view held row) :
    (sound view (assemble view held row).1).Sublist
      (if row.all fun x => (view x).isSome then [m] else []) := by
  obtain ⟨data,-,ho,hrow⟩ := h
  have hall : ∀ x ∈ sound view (assemble view held row).1, x = m ∧ ∀ y ∈ row, view y ≠ none := by
    intro x hx
    obtain ⟨k,group,hd,rfl,hne⟩ := mem_sound hx
    have hg := hc k group hd hne
    obtain ⟨hw,hfront,hlen⟩ := (group_eq_row_iff hsize hrow hd).mp hg
    rw [hrow.assemble_whole hsize hlen hw hfront,List.mem_singleton] at hd
    cases hd
    exact ⟨by rw [message,payload_of_segmentsOf (hrow.map_view hw),ho],hw⟩
  have hl := hrow.length_sound hsize held
  cases hs : sound view (assemble view held row).1 with
  | nil => exact List.nil_sublist _
  | cons x rest =>
    rw [hs] at hall hl
    obtain ⟨rfl,hw⟩ := hall x List.mem_cons_self
    have hrest : rest = [] := by
      rw [List.length_cons] at hl
      exact List.eq_nil_of_length_eq_zero (by omega)
    rw [hrest,if_pos]
    rw [List.all_eq_true]
    intro y hy
    exact Option.isSome_iff_ne_none.mpr (hw y hy)

/-- If no message is forged, the sound ones are among the intact ones, in order. -/
theorem sound_sublist_intact (hsize : 0 < size) {messages : List Message} {rows : List (List α)}
    (h : List.Forall₂ (Carries view size) messages rows)
    (hc : ∀ i row, rows[i]? = some row →
      Complete view (assemble view held (rows.take i).flatten).2 row) :
    (sound view (assemble view held rows.flatten).1).Sublist (intact view messages rows) := by
  induction h generalizing held with
  | nil => exact List.nil_sublist _
  | @cons m row messages rows hm _ ih =>
    rw [List.flatten_cons,assemble_append,sound_append,intact_cons]
    refine (hm.sound_sublist hsize (hc 0 row rfl)).append (ih ?_)
    intro i other hi
    have hi' := hc (i + 1) other hi
    rwa [List.take_succ_cons,List.flatten_cons,assemble_append] at hi'

end RemotePyMite.Assembly
