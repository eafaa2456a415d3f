import RemotePyMite.Proofs.Value.Written

/-! # What a reader takes off its input

A reader takes some bytes off the front of its input and moves on by as many.  The reader of a
value takes one byte at least, so an input can be taken apart value by value.
-/
namespace RemotePyMite

namespace Reader
variable {α : Type}

/-- The reader takes at least `least` bytes off the front, and its cursor moves by as many. -/
def Takes (least : Nat) (read : Reader α) : Prop :=
  ∀ c x c', read c = .ok (x,c') →
    ∃ used, c.rest = used ++ c'.rest ∧ c'.offset = c.offset + used.length ∧ least ≤ used.length

theorem takes_value (levels : Nat) : Takes 1 (value levels) := by
  intro c v c' h
  obtain ⟨used,hu,ho,heads,hwritten⟩ := reads_value levels c v c' h
  exact ⟨used,hu,ho,hwritten.length_le⟩

end Reader

/-- A value that is found stands at the front of the input and is not empty. -/
theorem Value.exists_of_decode {input : Bytes} {v : Value} {n : Nat}
    (h : decode input = .ok (v,n)) :
    ∃ used rest, input = used ++ rest ∧ used.length = n ∧ 0 < n := by
  unfold decode at h
  cases hr : (Reader.value (maxDepth + 1)).run (.start input) with
  | error e => rw [hr] at h; cases h
  | ok p =>
    rw [hr] at h
    obtain ⟨used,hu,ho,hl⟩ := Reader.takes_value _ _ p.1 p.2 hr
    cases h
    have hn : p.2.offset = used.length := ho.trans (Nat.zero_add _)
    exact ⟨used,p.2.rest,hu,hn.symm,hn ▸ hl⟩

end RemotePyMite
