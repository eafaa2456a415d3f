import RemotePyMite.Value.Basic

/-! # How deeply a value is nested

Values hold rows of values, so a property of all values follows from its steps from the items
of a row to the value that holds the row (`Value.induction`).  The rank of a value counts the
levels below it; the rows of a code object are tuples and lie one level below the code object.
-/
namespace RemotePyMite.Value

/-- What holds of a value if it holds of all the values in it holds of all values. -/
@[elab_as_elim] theorem induction {P : Value → Prop} (none : P .none) (bool : ∀ b, P (.bool b))
    (int : ∀ i, P (.int i)) (float : ∀ x, P (.float x)) (str : ∀ bytes, P (.str bytes))
    (tuple : ∀ items, (∀ v ∈ items, P v) → P (.tuple items))
    (list : ∀ items, (∀ v ∈ items, P v) → P (.list items))
    (dict : ∀ entries, (∀ e ∈ entries, P e.1 ∧ P e.2) → P (.dict entries))
    (code : ∀ h names consts cellVars, (∀ v ∈ names, P v) → (∀ v ∈ consts, P v) →
      (∀ v ∈ cellVars, P v) → P (.code h names consts cellVars)) (v : Value) : P v := by
  refine v.rec (motive_2 := fun items => ∀ v ∈ items, P v)
    (motive_3 := fun entries => ∀ e ∈ entries, P e.1 ∧ P e.2) (motive_4 := fun e => P e.1 ∧ P e.2)
    none bool int float str tuple list dict code ?_ ?_ ?_ ?_ ?_
  · exact List.forall_mem_nil _
  · exact fun item rest hi hr => List.forall_mem_cons.mpr ⟨hi,hr⟩
  · exact List.forall_mem_nil _
  · exact fun entry rest he hr => List.forall_mem_cons.mpr ⟨he,hr⟩
  · exact fun key value hk hv => ⟨hk,hv⟩

mutual
/-- The number of levels below a value.  A code object lies a level above its three tuples. -/
def rank : Value → Nat
  | .tuple items => levels items
  | .list items => levels items
  | .dict entries => entryLevels entries
  | .code _ names consts cellVars =>
    1 + max (levels names) (max (levels consts) (levels cellVars))
  | _ => 0

def levels : List Value → Nat
  | [] => 0
  | item :: rest => max (1 + item.rank) (levels rest)

def entryLevels : List (Value × Value) → Nat
  | [] => 0
  | (key,value) :: rest => max (1 + max key.rank value.rank) (entryLevels rest)
end

theorem levels_le_iff {items : List Value} {n : Nat} :
    levels items ≤ n ↔ ∀ v ∈ items, v.rank < n := by
  induction items with
  | nil => simp [levels]
  | cons item rest ih => rw [levels,List.forall_mem_cons,← ih]; omega

theorem entryLevels_le_iff {entries : List (Value × Value)} {n : Nat} :
    entryLevels entries ≤ n ↔ ∀ e ∈ entries, e.1.rank < n ∧ e.2.rank < n := by
  induction entries with
  | nil => simp [entryLevels]
  | cons entry rest ih => rw [entryLevels,List.forall_mem_cons,← ih]; omega

theorem rank_tuple {items : List Value} (h : items ≠ []) :
    rank (.tuple items) = 1 + (items.map rank).foldr max 0 := by
  rw [rank]
  induction items with
  | nil => exact absurd rfl h
  | cons item rest ih =>
    rw [levels,List.map_cons,List.foldr_cons]
    cases rest with
    | nil => simp [levels]
    | cons next rest => rw [ih (List.cons_ne_nil _ _)]; omega

theorem rank_code (h : CodeHeader) (names consts cellVars : List Value) :
    rank (.code h names consts cellVars) =
      1 + rank (.tuple (names ++ consts ++ cellVars)) := by
  have happend (xs ys : List Value) : levels (xs ++ ys) = max (levels xs) (levels ys) := by
    induction xs with
    | nil => simp [levels]
    | cons x rest ih => rw [List.cons_append,levels,levels,ih,Nat.max_assoc]
  rw [rank,rank,happend,happend,Nat.max_assoc]

end RemotePyMite.Value
