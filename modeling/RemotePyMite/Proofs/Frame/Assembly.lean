import RemotePyMite.Proofs.Frame.Drain

/-! # Which frames a message is put together from

Reassembly looks only at the kind of a frame, its data and whether it is as long as a segment.
`assemble` runs over any row of things that have such a view and keeps track of the things
themselves, so it tells of every delivery which of them it was made of.  A decoder follows it
step by step (`accept_of_holding`).
-/
namespace RemotePyMite

/-- What reassembly looks at in a frame with a right checksum. -/
structure Segment where
  kind : Kind
  data : Bytes
  full : Bool

/-- What leads to a message that is delivered. -/
inductive Delivery (α : Type) where
  /-- Something that arrived with a wrong checksum. -/
  | damaged (x : α)
  /-- The parts of one message, in order. -/
  | group (kind : Kind) (xs : List α)

namespace Decoder

/-- What a decoder holds once the data of a segment is there. -/
def joined (d : Decoder) (kind : Kind) (data : Bytes) : Reassembly :=
  match d.pending with
  | none => .start kind data
  | some r => if r.kind = kind then r.push data else .start kind data

theorem kind_joined (d : Decoder) (kind : Kind) (data : Bytes) :
    (d.joined kind data).kind = kind := by
  unfold joined
  split
  · rfl
  · split
    · assumption
    · rfl

/-- A single segment is not checked against the limit, but is below it. -/
theorem accept_eq_of_joined (d : Decoder) (kind : Kind) {data : Bytes} (full : Bool)
    (hlen : data.length ≤ maxReassembled) :
    d.accept kind data full =
      if maxReassembled < (d.joined kind data).size then .absorbed { d with pending := none }
      else if full then .absorbed { d with pending := some (d.joined kind data) }
      else .message (.ofKindOrDefective kind (d.joined kind data).data)
        { d with pending := none } := by
  have hfirst : d.first kind data full =
      if maxReassembled < (Reassembly.start kind data).size then
        .absorbed { d with pending := none }
      else if full then .absorbed { d with pending := some (.start kind data) }
      else .message (.ofKindOrDefective kind (Reassembly.start kind data).data)
        { d with pending := none } := by
    rw [← Reassembly.length_data,Reassembly.data_start,if_neg (Nat.not_lt.mpr hlen),first]
  unfold accept joined
  cases d.pending with
  | none => exact hfirst
  | some r =>
    dsimp only
    split
    · rfl
    · exact hfirst

@[simp] theorem lastSequence_accept (d : Decoder) (kind : Kind) (data : Bytes) (full : Bool) :
    (d.accept kind data full).decoder.lastSequence = d.lastSequence := by
  have hf : (d.first kind data full).decoder.lastSequence = d.lastSequence := by
    unfold first
    split <;> rfl
  unfold accept
  split
  · exact hf
  · split
    · dsimp only
      split
      · rfl
      · split <;> rfl
    · exact hf

end Decoder

namespace Assembly
variable {α : Type} (view : α → Option Segment)

def payload (xs : List α) : Bytes :=
  xs.flatMap fun x => ((view x).map Segment.data).getD []

/-- Everything held is of one kind. -/
def OfKind (kind : Kind) (held : List α) : Prop :=
  ∀ x ∈ held, (view x).map Segment.kind = some kind

instance (kind : Kind) (held : List α) : Decidable (OfKind view kind held) :=
  inferInstanceAs (Decidable (∀ x ∈ held, _))

/-- What goes in front of a segment of some kind. -/
def front (held : List α) (kind : Kind) : List α :=
  if OfKind view kind held then held else []

/-- The deliveries that a row leads to, and what is held behind its end. -/
def assemble : List α → List α → List (Delivery α) × List α
  | held, [] => ([],held)
  | held, x :: rest =>
    match view x with
    | none =>
      let (found,last) := assemble held rest
      (.damaged x :: found,last)
    | some segment =>
      let group := front view held segment.kind ++ [x]
      if maxReassembled < (payload view group).length then assemble [] rest
      else if segment.full then assemble group rest
      else
        let (found,last) := assemble [] rest
        (.group segment.kind group :: found,last)

def message : Delivery α → Message
  | .damaged _ => .defective
  | .group kind xs => .ofKindOrDefective kind (payload view xs)

/-- The decoder holds the data of `held` and nothing else. -/
def Holding (pending : Option Reassembly) (held : List α) : Prop :=
  match pending with
  | none => held = []
  | some r => held ≠ [] ∧ OfKind view r.kind held ∧ r.data = payload view held

@[simp] theorem payload_nil : payload view [] = [] := rfl

@[simp] theorem payload_append (xs ys : List α) :
    payload view (xs ++ ys) = payload view xs ++ payload view ys := by
  simp [payload]

variable {view}

theorem payload_singleton {x : α} {segment : Segment} (hx : view x = some segment) :
    payload view [x] = segment.data := by
  simp [payload,hx]

theorem ofKind_nil (kind : Kind) : OfKind view kind [] := by
  simp [OfKind]

theorem OfKind.append {kind : Kind} {xs ys : List α} (hx : OfKind view kind xs)
    (hy : OfKind view kind ys) : OfKind view kind (xs ++ ys) := by
  intro x h
  rcases List.mem_append.mp h with h | h
  · exact hx x h
  · exact hy x h

theorem ofKind_singleton {x : α} {segment : Segment} (hx : view x = some segment) :
    OfKind view segment.kind [x] := by
  intro y hy
  rw [List.mem_singleton.mp hy,hx]
  rfl

theorem ofKind_front (held : List α) (kind : Kind) : OfKind view kind (front view held kind) := by
  unfold front
  split
  · next h => exact h
  · exact ofKind_nil kind

theorem front_of_ofKind {held : List α} {kind : Kind} (h : OfKind view kind held) :
    front view held kind = held :=
  if_pos h

theorem OfKind.unique {kind other : Kind} {xs : List α} (hx : OfKind view kind xs)
    (ho : OfKind view other xs) (hne : xs ≠ []) : kind = other := by
  obtain ⟨x,rest,rfl⟩ := List.exists_cons_of_ne_nil hne
  have hk := hx x List.mem_cons_self
  have hk' := ho x List.mem_cons_self
  exact Option.some.inj (hk.symm.trans hk')

theorem assemble_damaged {x : α} (hx : view x = none) (held rest : List α) :
    assemble view held (x :: rest) =
      (.damaged x :: (assemble view held rest).1,(assemble view held rest).2) := by
  simp only [assemble,hx]

theorem assemble_too_long {x : α} {segment : Segment} (hx : view x = some segment)
    {held : List α} (rest : List α)
    (hl : maxReassembled < (payload view (front view held segment.kind ++ [x])).length) :
    assemble view held (x :: rest) = assemble view [] rest := by
  simp only [assemble,hx,if_pos hl]

theorem assemble_full {x : α} {segment : Segment} (hx : view x = some segment)
    {held : List α} (rest : List α)
    (hl : ¬maxReassembled < (payload view (front view held segment.kind ++ [x])).length)
    (hf : segment.full = true) :
    assemble view held (x :: rest) =
      assemble view (front view held segment.kind ++ [x]) rest := by
  simp only [assemble,hx,if_neg hl,hf,↓reduceIte]

theorem assemble_end {x : α} {segment : Segment} (hx : view x = some segment)
    {held : List α} (rest : List α)
    (hl : ¬maxReassembled < (payload view (front view held segment.kind ++ [x])).length)
    (hf : segment.full = false) :
    assemble view held (x :: rest) =
      (.group segment.kind (front view held segment.kind ++ [x]) :: (assemble view [] rest).1,
        (assemble view [] rest).2) := by
  simp only [assemble,hx,if_neg hl,hf,Bool.false_eq_true,↓reduceIte]

/-- What holds of a row if it holds of what is left behind its first frame holds of all. -/
@[elab_as_elim] theorem assemble_induction (view : α → Option Segment)
    {P : List α → List α → Prop}
    (nil : ∀ held, P held [])
    (damaged : ∀ held x rest, view x = none → P held rest → P held (x :: rest))
    (tooLong : ∀ held x rest segment, view x = some segment →
      maxReassembled < (payload view (front view held segment.kind ++ [x])).length →
      P [] rest → P held (x :: rest))
    (full : ∀ held x rest segment, view x = some segment →
      ¬maxReassembled < (payload view (front view held segment.kind ++ [x])).length →
      segment.full = true → P (front view held segment.kind ++ [x]) rest → P held (x :: rest))
    (ending : ∀ held x rest segment, view x = some segment →
      ¬maxReassembled < (payload view (front view held segment.kind ++ [x])).length →
      segment.full = false → P [] rest → P held (x :: rest))
    (held xs : List α) : P held xs := by
  induction xs generalizing held with
  | nil => exact nil held
  | cons x rest ih =>
    cases hx : view x with
    | none => exact damaged held x rest hx (ih held)
    | some segment =>
      by_cases hl : maxReassembled < (payload view (front view held segment.kind ++ [x])).length
      · exact tooLong held x rest segment hx hl (ih [])
      · cases hf : segment.full with
        | true => exact full held x rest segment hx hl hf (ih _)
        | false => exact ending held x rest segment hx hl hf (ih [])

theorem assemble_append (held xs ys : List α) :
    assemble view held (xs ++ ys) =
      ((assemble view held xs).1 ++ (assemble view (assemble view held xs).2 ys).1,
        (assemble view (assemble view held xs).2 ys).2) := by
  induction held, xs using assemble_induction view with
  | nil held => rfl
  | damaged held x rest hx ih =>
    rw [List.cons_append,assemble_damaged hx,assemble_damaged hx,ih]
    rfl
  | tooLong held x rest segment hx hl ih =>
    rw [List.cons_append,assemble_too_long hx _ hl,assemble_too_long hx _ hl,ih]
  | full held x rest segment hx hl hf ih =>
    rw [List.cons_append,assemble_full hx _ hl hf,assemble_full hx _ hl hf,ih]
  | ending held x rest segment hx hl hf ih =>
    rw [List.cons_append,assemble_end hx _ hl hf,assemble_end hx _ hl hf,ih]
    rfl

/-- The held data goes in front of a segment exactly if it is of the same kind. -/
theorem Holding.front_eq_nil_iff {pending : Option Reassembly} {held : List α}
    (h : Holding view pending held) (kind : Kind) :
    front view held kind = [] ↔ pending.map Reassembly.kind ≠ some kind := by
  cases pending with
  | none =>
    have hnil : held = [] := h
    simp [hnil,front_of_ofKind (ofKind_nil kind)]
  | some r =>
    obtain ⟨hheld,hkind,-⟩ := h
    rw [Option.map_some,ne_eq,Option.some.injEq]
    constructor
    · rintro hf rfl
      exact hheld ((front_of_ofKind hkind).symm.trans hf)
    · intro hne
      exact if_neg fun ho => hne (hkind.unique ho hheld)

theorem data_joined_of_holding {d : Decoder} {held : List α} (hh : Holding view d.pending held)
    {x : α} {segment : Segment} (hx : view x = some segment) :
    (d.joined segment.kind segment.data).data =
      payload view (front view held segment.kind ++ [x]) := by
  rw [payload_append,payload_singleton hx,Decoder.joined]
  cases hp : d.pending with
  | none =>
    rw [hp] at hh
    have hnil : held = [] := hh
    rw [hnil,front_of_ofKind (ofKind_nil _),payload_nil]
    exact Reassembly.data_start _ _
  | some r =>
    rw [hp] at hh
    obtain ⟨hheld,hkind,hdata⟩ := hh
    dsimp only
    by_cases hk : r.kind = segment.kind
    · rw [if_pos hk,Reassembly.data_push,hdata,front_of_ofKind (hk ▸ hkind)]
    · have hf : front view held segment.kind = [] :=
        if_neg fun h => hk (hkind.unique h hheld)
      rw [if_neg hk,hf,payload_nil]
      exact Reassembly.data_start _ _

/-- A decoder takes a segment in as `assemble` does. -/
theorem accept_of_holding {d : Decoder} {held : List α} (hh : Holding view d.pending held)
    {x : α} {segment : Segment} (hx : view x = some segment)
    (hlen : segment.data.length ≤ maxReassembled) :
    let told := assemble view held [x]
    let step := d.accept segment.kind segment.data segment.full
    step.messages = told.1.map (message view) ∧ Holding view step.decoder.pending told.2 := by
  intro told step
  have hdata := data_joined_of_holding hh hx
  have hs : step = _ := Decoder.accept_eq_of_joined d segment.kind segment.full hlen
  rw [← Reassembly.length_data,hdata] at hs
  by_cases hl : maxReassembled < (payload view (front view held segment.kind ++ [x])).length
  · have ht : told = _ := assemble_too_long hx [] hl
    rw [if_pos hl] at hs
    rw [ht,hs]
    exact ⟨rfl,rfl⟩
  · rw [if_neg hl] at hs
    cases hf : segment.full with
    | true =>
      have ht : told = _ := assemble_full hx [] hl hf
      rw [hf,if_pos rfl] at hs
      rw [ht,hs]
      have hne : front view held segment.kind ++ [x] ≠ [] := by simp
      refine ⟨rfl,hne,?_,hdata⟩
      rw [Decoder.kind_joined]
      exact (ofKind_front held segment.kind).append (ofKind_singleton hx)
    | false =>
      have ht : told = _ := assemble_end hx [] hl hf
      rw [hf,if_neg Bool.false_ne_true] at hs
      rw [ht,hs]
      exact ⟨rfl,rfl⟩

end Assembly

end RemotePyMite
