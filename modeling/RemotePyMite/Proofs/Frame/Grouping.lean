import RemotePyMite.Proofs.Frame.Assembly

/-! # Messages share no frames

The groups that reassembly delivers, and what it holds at the end, are pieces of the row of frames with
a right checksum, one behind another, so no frame is in two of them.  In a group all frames but the last
are full, and so are those that are held.
-/
namespace RemotePyMite

def Delivery.damaged? {α : Type} : Delivery α → Option α
  | .damaged x => some x
  | .group _ _ => none

def Delivery.group? {α : Type} : Delivery α → Option (List α)
  | .damaged _ => none
  | .group _ xs => some xs

/-- What a delivery is made of. -/
def Delivery.members {α : Type} : Delivery α → List α
  | .damaged x => [x]
  | .group _ xs => xs

namespace Assembly
variable {α : Type}

/-- The rows are pieces of `xs`, one behind another. -/
inductive PiecesOf : List (List α) → List α → Prop
  | nil (xs : List α) : PiecesOf [] xs
  | skip {rows : List (List α)} {xs : List α} (x : α) (h : PiecesOf rows xs) : PiecesOf rows (x :: xs)
  | piece {rows : List (List α)} {xs : List α} (row : List α) (h : PiecesOf rows xs) :
      PiecesOf (row :: rows) (row ++ xs)

theorem PiecesOf.behind {rows : List (List α)} {xs : List α} (h : PiecesOf rows xs) (front : List α) :
    PiecesOf rows (front ++ xs) := by
  induction front with
  | nil => exact h
  | cons x rest ih => exact ih.skip x

variable {view : α → Option Segment}

/-- The frames with a right checksum. -/
def seen (view : α → Option Segment) (xs : List α) : List α :=
  xs.filter fun x => (view x).isSome

theorem seen_cons_none {x : α} (hx : view x = none) (xs : List α) : seen view (x :: xs) = seen view xs := by
  simp [seen,hx]

theorem seen_cons_some {x : α} {segment : Segment} (hx : view x = some segment) (xs : List α) :
    seen view (x :: xs) = x :: seen view xs := by
  simp [seen,hx]

/-- What is held goes in front of a frame, or is dropped. -/
theorem exists_dropped (view : α → Option Segment) (held : List α) (kind : Kind) (x : α)
    (rest : List α) :
    ∃ dropped, held ++ x :: rest = dropped ++ (front view held kind ++ [x] ++ rest) := by
  by_cases h : OfKind view kind held
  · exact ⟨[],by rw [front_of_ofKind h]; simp⟩
  · have hf : front view held kind = [] := if_neg h
    exact ⟨held,by rw [hf]; rfl⟩

/-- No frame is in two groups, and the frames of a group stand one behind another. -/
theorem piecesOf_assemble (held xs : List α) :
    PiecesOf ((assemble view held xs).1.filterMap Delivery.group? ++ [(assemble view held xs).2])
      (held ++ seen view xs) := by
  induction held, xs using assemble_induction view with
  | nil held => exact .piece held (.nil [])
  | damaged held x rest hx ih =>
    rw [assemble_damaged hx,seen_cons_none hx]
    exact ih
  | tooLong held x rest segment hx hl ih =>
    have hrow : held ++ x :: seen view rest = held ++ [x] ++ seen view rest := List.append_cons ..
    rw [assemble_too_long hx _ hl,seen_cons_some hx,hrow]
    exact ih.behind (held ++ [x])
  | full held x rest segment hx hl hf ih =>
    obtain ⟨dropped,hrow⟩ := exists_dropped view held segment.kind x (seen view rest)
    rw [assemble_full hx _ hl hf,seen_cons_some hx,hrow]
    exact ih.behind dropped
  | ending held x rest segment hx hl hf ih =>
    obtain ⟨dropped,hrow⟩ := exists_dropped view held segment.kind x (seen view rest)
    rw [assemble_end hx _ hl hf,seen_cons_some hx,hrow]
    exact (ih.piece _).behind dropped

/-- Everything that arrives with a wrong checksum is told, once. -/
theorem damaged_assemble (held xs : List α) :
    (assemble view held xs).1.filterMap Delivery.damaged? = xs.filter fun x => (view x).isNone := by
  induction held, xs using assemble_induction view with
  | nil held => rfl
  | damaged held x rest hx ih =>
    rw [assemble_damaged hx,List.filter_cons,if_pos (by rw [hx]; rfl),← ih]
    rfl
  | tooLong held x rest segment hx hl ih =>
    rw [assemble_too_long hx _ hl,List.filter_cons,if_neg (by simp [hx]),ih]
  | full held x rest segment hx hl hf ih =>
    rw [assemble_full hx _ hl hf,List.filter_cons,if_neg (by simp [hx]),ih]
  | ending held x rest segment hx hl hf ih =>
    rw [assemble_end hx _ hl hf,List.filter_cons,if_neg (by simp [hx]),← ih]
    rfl

def AllFull (view : α → Option Segment) (xs : List α) : Prop :=
  ∀ x ∈ xs, (view x).map Segment.full = some true

theorem AllFull.front {held : List α} (h : AllFull view held) (kind : Kind) :
    AllFull view (front view held kind) := by
  unfold Assembly.front
  split
  · exact h
  · exact List.forall_mem_nil _

theorem AllFull.append_singleton {held : List α} (h : AllFull view held) {x : α} {segment : Segment}
    (hx : view x = some segment) (hf : segment.full = true) : AllFull view (held ++ [x]) := by
  intro y hy
  rcases List.mem_append.mp hy with hy | hy
  · exact h y hy
  · rw [List.mem_singleton.mp hy,hx,Option.map_some,hf]

/-- What is held is full and not too long. -/
structure Upheld (view : α → Option Segment) (held : List α) : Prop where
  full : AllFull view held
  length_le : (payload view held).length ≤ maxReassembled

theorem upheld_nil (view : α → Option Segment) : Upheld view [] :=
  ⟨List.forall_mem_nil _,Nat.zero_le _⟩

theorem upheld_assemble {held : List α} (h : Upheld view held) (xs : List α) :
    Upheld view (assemble view held xs).2 := by
  induction held, xs using assemble_induction view with
  | nil held => exact h
  | damaged held x rest hx ih =>
    rw [assemble_damaged hx]
    exact ih h
  | tooLong held x rest segment hx hl ih =>
    rw [assemble_too_long hx _ hl]
    exact ih (upheld_nil view)
  | full held x rest segment hx hl hf ih =>
    rw [assemble_full hx _ hl hf]
    exact ih ⟨(h.full.front segment.kind).append_singleton hx hf,Nat.le_of_not_lt hl⟩
  | ending held x rest segment hx hl hf ih =>
    rw [assemble_end hx _ hl hf]
    exact ih (upheld_nil view)

/-- The frames of a message: full ones of its kind, and one of its kind that is not full. -/
structure Forms (view : α → Option Segment) (kind : Kind) (front : List α) (last : α) : Prop where
  ofKind : OfKind view kind (front ++ [last])
  full : AllFull view front
  ends : (view last).map Segment.full = some false
  length_le : (payload view (front ++ [last])).length ≤ maxReassembled

theorem exists_forms {held xs : List α} (h : Upheld view held) {kind : Kind} {group : List α}
    (hg : .group kind group ∈ (assemble view held xs).1) :
    ∃ front last, group = front ++ [last] ∧ Forms view kind front last := by
  induction held, xs using assemble_induction view with
  | nil held => cases hg
  | damaged held x rest hx ih =>
    rw [assemble_damaged hx] at hg
    rcases List.mem_cons.mp hg with hg | hg
    · cases hg
    · exact ih h hg
  | tooLong held x rest segment hx hl ih =>
    rw [assemble_too_long hx _ hl] at hg
    exact ih (upheld_nil view) hg
  | full held x rest segment hx hl hf ih =>
    rw [assemble_full hx _ hl hf] at hg
    exact ih ⟨(h.full.front segment.kind).append_singleton hx hf,Nat.le_of_not_lt hl⟩ hg
  | ending held x rest segment hx hl hf ih =>
    rw [assemble_end hx _ hl hf] at hg
    rcases List.mem_cons.mp hg with hg | hg
    · cases hg
      refine ⟨front view held segment.kind,x,rfl,?_,h.full.front _,?_,Nat.le_of_not_lt hl⟩
      · exact (ofKind_front held segment.kind).append (ofKind_singleton hx)
      · rw [hx,Option.map_some,hf]
    · exact ih (upheld_nil view) hg

/-- One frame leads to at most one delivery, of which it is the last member. -/
theorem assemble_singleton_cases (view : α → Option Segment) (held : List α) (x : α) :
    (assemble view held [x]).1 = [] ∨
      ∃ delivery, (assemble view held [x]).1 = [delivery] ∧ delivery.members.getLast? = some x := by
  cases hx : view x with
  | none => exact .inr ⟨.damaged x,by rw [assemble_damaged hx,assemble],rfl⟩
  | some segment =>
    by_cases hl : maxReassembled < (payload view (front view held segment.kind ++ [x])).length
    · exact .inl (by rw [assemble_too_long hx _ hl,assemble])
    · cases hf : segment.full with
      | true => exact .inl (by rw [assemble_full hx _ hl hf,assemble])
      | false =>
        refine .inr ⟨.group segment.kind (front view held segment.kind ++ [x]),?_,?_⟩
        · rw [assemble_end hx _ hl hf,assemble]
        · exact List.getLast?_concat

end Assembly

end RemotePyMite
