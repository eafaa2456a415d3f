import RemotePyMite.Value.Decode
import RemotePyMite.Proofs.Value.Encoding

/-! # What a reader makes of the bytes in front of it

`Gives read w fits x` tells all about a reader on an input that starts with `w`: if `fits`, it
reads `w` and finds `x`, and if not, it finds values nested too deeply.  What follows `w` and
what came before it do not matter.  Readers one after another give what the two parts of the
input give (`Gives.bind`).
-/
namespace RemotePyMite.Reader
variable {α β : Type}

/-- The reader takes `w` for `x` if `fits`, and else for something nested too deeply. -/
structure Gives (read : Reader α) (w : Bytes) (fits : Prop) (x : α) : Prop where
  found : fits → ∀ offset rest, read ⟨offset,w ++ rest⟩ = .ok (x,⟨offset + w.length,rest⟩)
  refused : ¬fits → ∀ offset rest, read ⟨offset,w ++ rest⟩ = .error (.tooDeep maxDepth)

variable {read : Reader α} {w : Bytes} {fits : Prop} {x : α}

theorem Gives.congr (h : Gives read w fits x) {other : Prop} (he : fits ↔ other) :
    Gives read w other x :=
  propext he ▸ h

theorem gives_pure (x : α) : Gives (pure x) [] True x :=
  ⟨fun _ _ _ => rfl,fun h => absurd trivial h⟩

theorem Gives.bind (h : Gives read w fits x) {f : α → Reader β} {v : Bytes} {others : Prop}
    {y : β} (hf : Gives (f x) v others y) : Gives (read >>= f) (w ++ v) (fits ∧ others) y := by
  have hrun {offset : Nat} {rest : Bytes} (hx : fits) :
      (read >>= f) ⟨offset,w ++ v ++ rest⟩ = f x ⟨offset + w.length,v ++ rest⟩ := by
    rw [bind_apply,List.append_assoc,h.found hx]
    rfl
  constructor
  · rintro ⟨hx,hy⟩ offset rest
    rw [hrun hx,hf.found hy,List.length_append,Nat.add_assoc]
  · intro hno offset rest
    by_cases hx : fits
    · rw [hrun hx]
      exact hf.refused (fun hy => hno ⟨hx,hy⟩) _ rest
    · rw [bind_apply,List.append_assoc,h.refused hx]
      rfl

theorem Gives.map (h : Gives read w fits x) (f : α → β) :
    Gives (do return f (← read)) w fits (f x) := by
  have hm := h.bind (f := fun a => pure (f a)) (gives_pure (f x))
  rw [List.append_nil] at hm
  exact hm.congr (and_iff_left trivial)

theorem gives_take (w : Bytes) : Gives (take w.length) w True w := by
  refine ⟨fun _ offset rest => ?_,fun h => absurd trivial h⟩
  simp [take,Cursor.advance]

theorem gives_word (width : Nat) {n : Nat} (h : n < Nat.pow 256 width) :
    Gives (word width) (Word.littleEndian width n) True n := by
  have ht := (gives_take (Word.littleEndian width n)).map Word.ofLittleEndian
  rw [Word.length_littleEndian,Word.ofLittleEndian_littleEndian,Nat.mod_eq_of_lt h] at ht
  exact ht

theorem gives_byte (b : UInt8) : Gives byte [b] True b := by
  have hl : Word.littleEndian 1 b.toNat = [b] := by simp [Word.littleEndian]
  have hw : Gives byte (Word.littleEndian 1 b.toNat) True (UInt8.ofNat b.toNat) :=
    (gives_word 1 b.toNat_lt).map UInt8.ofNat
  rwa [hl,UInt8.ofNat_toNat] at hw

theorem gives_times {w : α → Bytes} {fits : α → Prop} {xs : List α}
    (h : ∀ x ∈ xs, Gives read (w x) (fits x) x) :
    Gives (times xs.length read) (xs.flatMap w) (∀ x ∈ xs, fits x) xs := by
  induction xs with
  | nil => exact (gives_pure []).congr (by simp)
  | cons x rest ih =>
    obtain ⟨hx,hrest⟩ := List.forall_mem_cons.mp h
    rw [List.flatMap_cons]
    refine (hx.bind (f := fun x => do return x :: (← times rest.length read))
      ((ih hrest).map (x :: ·))).congr ?_
    rw [List.forall_mem_cons]

theorem Gives.field {read : Reader Value} {v : Value} (h : Gives read w fits v)
    (part : Value → Option α) (hx : part v = some x) (defect : CodeDefect) :
    Gives (field read part defect) w fits x := by
  refine Gives.congr ?_ (and_iff_left trivial)
  rw [← List.append_nil w]
  refine h.bind ?_
  simp only [hx]
  exact gives_pure x

theorem gives_codeObject {read : Reader Value} {h : CodeHeader} {names consts cellVars : List Value}
    {w₁ w₂ w₃ w₄ w₅ w₆ w₇ : Bytes} {fits₅ fits₆ fits₇ : Prop}
    (h₁ : Gives read w₁ fits (.str h.name)) (h₂ : Gives read w₂ fits (.str h.filename))
    (h₃ : Gives read w₃ fits (.str h.bytecode)) (h₄ : Gives read w₄ fits (.str h.lineTable))
    (h₅ : Gives read w₅ fits₅ (.tuple names)) (h₆ : Gives read w₆ fits₆ (.tuple consts))
    (h₇ : Gives read w₇ fits₇ (.tuple cellVars)) :
    Gives (codeObject read)
      (w₁ ++ (w₂ ++ (w₃ ++ (w₄ ++ (w₅ ++ (w₆ ++ (w₇ ++ Value.encodeTrailer h)))))))
      (fits ∧ fits₅ ∧ fits₆ ∧ fits₇) ⟨h,names,consts,cellVars⟩ := by
  have hlast : Gives (return (⟨{ h with firstLine := UInt16.ofNat h.firstLine.toNat },names,consts,
      cellVars⟩ : CodeObject)) [] True ⟨h,names,consts,cellVars⟩ := by
    rw [UInt16.ofNat_toNat]
    exact gives_pure _
  have hfits : (fits ∧ fits ∧ fits ∧ fits ∧ fits₅ ∧ fits₆ ∧ fits₇ ∧ True ∧ True ∧ True ∧ True ∧
      True ∧ True ∧ True) ↔ fits ∧ fits₅ ∧ fits₆ ∧ fits₇ := by
    simp only [and_self_left,and_true]
  unfold codeObject
  refine Gives.congr ?_ hfits
  refine (h₁.field Value.bytes? rfl .name).bind ?_
  refine (h₂.field Value.bytes? rfl .filename).bind ?_
  refine (h₃.field Value.bytes? rfl .bytecode).bind ?_
  refine (h₄.field Value.bytes? rfl .lineTable).bind ?_
  refine (h₅.field Value.tuple? rfl .names).bind ?_
  refine (h₆.field Value.tuple? rfl .consts).bind ?_
  refine (h₇.field Value.tuple? rfl .cellVars).bind ?_
  refine (gives_word 2 h.firstLine.toNat_lt).bind ?_
  refine (gives_byte h.argCount).bind ?_
  refine (gives_byte h.flags).bind ?_
  refine (gives_byte h.stackSize).bind ?_
  refine (gives_byte h.localCount).bind ?_
  exact (gives_byte h.freeVarCount).bind hlast

/-- A tag, and what is made of it. -/
theorem Gives.tagged {next : Tag → Reader α} {tag : Tag} (h : Gives (next tag) w fits x) :
    Gives (do
      let offset ← position
      let b ← byte
      match Tag.ofByte? b with
      | some tag => next tag
      | none => throw (.unknownTag b offset)) (tag.byte :: w) fits x := by
  have hposition (c : Cursor) : position c = pure (c.offset,c) := rfl
  have hbyte (offset : Nat) (rest : Bytes) :
      byte ⟨offset,tag.byte :: w ++ rest⟩ = pure (tag.byte,⟨offset + 1,w ++ rest⟩) :=
    (gives_byte tag.byte).found trivial offset (w ++ rest)
  constructor
  · intro hx offset rest
    rw [bind_apply,hposition,pure_bind,bind_apply,hbyte,pure_bind]
    simp only [Tag.ofByte?_byte]
    rw [h.found hx,List.length_cons,Nat.add_assoc,Nat.add_comm 1]
  · intro hx offset rest
    rw [bind_apply,hposition,pure_bind,bind_apply,hbyte,pure_bind]
    simp only [Tag.ofByte?_byte]
    rw [h.refused hx]

/-- A value behind its tag, at a level that may be opened. -/
theorem Gives.value {levels : Nat} {tag : Tag} {v : Value}
    (h : Gives (content (value levels) tag) w fits v) :
    Gives (value (levels + 1)) (tag.byte :: w) fits v :=
  h.tagged

theorem gives_value_zero (w : Bytes) (v : Value) : Gives (value 0) w False v :=
  ⟨fun h => h.elim,fun _ _ _ => rfl⟩

end RemotePyMite.Reader
