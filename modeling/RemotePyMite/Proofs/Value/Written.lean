import RemotePyMite.Proofs.Value.Encoding
import RemotePyMite.Proofs.Value.Heads
import RemotePyMite.Proofs.Value.Rank
import RemotePyMite.Proofs.Value.Reading

/-! # All the byte forms of a value

A value can be written with any head that says what it is, not only with the smallest.  What a reader
of values takes off its input is such a writing of the value it finds (`reads_value`), and the heads of
a writing are those that its bytes show (`gives_heads`).
-/
namespace RemotePyMite

namespace Value

/-- What a value consists of: its head, the text behind it, the values in it and the plain fields
behind them. -/
inductive Layout : Value → Head → Bytes → List Value → Bytes → Prop
  | none : Layout .none ⟨.none,0⟩ [] [] []
  | true : Layout (.bool true) ⟨.true,0⟩ [] [] []
  | false : Layout (.bool false) ⟨.false,0⟩ [] [] []
  | digit (d : Fin 10) : Layout (.int (Int32.ofNat d)) ⟨.digit d,0⟩ [] [] []
  | int8 (n : Nat) : Layout (.int (Int32.ofInt (Word.signed 1 n))) ⟨.int8,n⟩ [] [] []
  | int16 (n : Nat) : Layout (.int (Int32.ofInt (Word.signed 2 n))) ⟨.int16,n⟩ [] [] []
  | int32 (n : Nat) : Layout (.int (Int32.ofInt (Word.signed 4 n))) ⟨.int32,n⟩ [] [] []
  | float (n : Nat) : Layout (.float ⟨UInt32.ofNat n⟩) ⟨.float,n⟩ [] [] []
  | str (form : LengthForm) (text : Bytes) :
      Layout (.str text) ⟨.str form,text.length⟩ text [] []
  | tuple (form : LengthForm) (items : List Value) :
      Layout (.tuple items) ⟨.tuple form,items.length⟩ [] items []
  | list (form : LengthForm) (items : List Value) :
      Layout (.list items) ⟨.list form,items.length⟩ [] items []
  | dict (form : LengthForm) (entries : List (Value × Value)) :
      Layout (.dict entries) ⟨.dict form,entries.length⟩ [] (entries.flatMap fun e => [e.1,e.2]) []
  | code (h : CodeHeader) (names consts cellVars : List Value) :
      Layout (.code h names consts cellVars) ⟨.code,0⟩ []
        [.str h.name,.str h.filename,.str h.bytecode,.str h.lineTable,.tuple names,.tuple consts,
          .tuple cellVars] (encodeTrailer h)

/-- The values can be written as these bytes, with these heads, opening at most so many levels. -/
inductive Written : Nat → List Value → List Head → Bytes → Prop
  | nil (k : Nat) : Written k [] [] []
  | append {k : Nat} {vs vs' : List Value} {heads heads' : List Head} {w w' : Bytes}
      (h : Written k vs heads w) (h' : Written k vs' heads' w') :
      Written k (vs ++ vs') (heads ++ heads') (w ++ w')
  | value {k : Nat} {v : Value} {head : Head} {text trailer : Bytes} {parts : List Value}
      {heads : List Head} {inner : Bytes} (hl : Layout v head text parts trailer)
      (hn : head.number < Nat.pow 256 head.tag.width) (h : Written k parts heads inner) :
      Written (k + 1) [v] (head :: heads) (head.bytes ++ (text ++ (inner ++ trailer)))

namespace Layout
variable {v : Value} {head : Head} {text trailer : Bytes} {parts : List Value}

theorem textLength_eq (h : Layout v head text parts trailer) : head.textLength = text.length := by
  cases h <;> rfl

theorem trailerLength_eq (h : Layout v head text parts trailer) :
    head.trailerLength = trailer.length := by
  cases h <;> rfl

theorem children_eq (h : Layout v head text parts trailer) : head.children = parts.length := by
  cases h with
  | dict form entries => simp [Head.children,List.length_flatMap,List.map_const',Nat.mul_comm]
  | _ => rfl

end Layout

theorem Layout.written {v : Value} {head : Head} {parts : List Value} {k : Nat} {heads : List Head}
    {inner : Bytes} (hl : Layout v head [] parts []) (hn : head.number < Nat.pow 256 head.tag.width)
    (h : Written k parts heads inner) : Written (k + 1) [v] (head :: heads) (head.bytes ++ inner) := by
  have hw := Written.value hl hn h
  rwa [List.nil_append,List.append_nil] at hw

theorem Layout.rank_eq {v : Value} {head : Head} {text trailer : Bytes} {parts : List Value}
    (h : Layout v head text parts trailer) : v.rank = levels parts := by
  cases h with
  | tuple form items => rw [rank]
  | list form items => rw [rank]
  | dict form entries =>
    rw [rank]
    induction entries with
    | nil => rfl
    | cons entry rest ih =>
      rw [entryLevels,ih,List.flatMap_cons]
      simp only [List.cons_append,List.nil_append,levels]
      omega
  | code h names consts cellVars =>
    simp only [rank,levels]
    omega
  | _ => rfl

theorem Written.levels_le {k : Nat} {vs : List Value} {heads : List Head} {w : Bytes}
    (h : Written k vs heads w) : levels vs ≤ k := by
  induction h with
  | nil k => exact Nat.zero_le k
  | append _ _ ih ih' =>
    rw [levels_le_iff] at ih ih' ⊢
    exact List.forall_mem_append.mpr ⟨ih,ih'⟩
  | value hl _ _ ih =>
    rw [levels_le_iff,List.forall_mem_singleton,hl.rank_eq]
    exact Nat.lt_succ_of_le ih

theorem Written.length_le {k : Nat} {vs : List Value} {heads : List Head} {w : Bytes}
    (h : Written k vs heads w) : vs.length ≤ w.length := by
  induction h with
  | nil => exact Nat.le_refl 0
  | append _ _ ih ih' =>
    rw [List.length_append,List.length_append]
    exact Nat.add_le_add ih ih'
  | value => simp [Head.bytes]

end Value

namespace Reader
open Value (Layout Written)
variable {α β : Type}

/-- What the reader takes off the front is so related to what it makes of it. -/
def Reads (read : Reader α) (R : Bytes → α → Prop) : Prop :=
  ∀ c x c', read c = .ok (x,c') →
    ∃ used, c.rest = used ++ c'.rest ∧ c'.offset = c.offset + used.length ∧ R used x

variable {read : Reader α} {R : Bytes → α → Prop} {S : Bytes → β → Prop}

theorem reads_pure {x : α} (h : R [] x) : Reads (pure x) R := by
  intro c y c' hr
  cases hr
  exact ⟨[],rfl,rfl,h⟩

theorem reads_throw (e : ValueError) : Reads (throw e : Reader α) R := by
  intro c y c' hr
  cases hr

theorem Reads.bind (h : Reads read R) {f : α → Reader β}
    (hf : ∀ used x, R used x → Reads (f x) fun more => S (used ++ more)) :
    Reads (read >>= f) S := by
  intro c y c' hr
  rw [bind_apply] at hr
  cases hc : read c with
  | error e =>
    rw [hc] at hr
    cases hr
  | ok p =>
    rw [hc] at hr
    obtain ⟨used,hu,ho,hx⟩ := h c p.1 p.2 hc
    obtain ⟨more,hm,hp,hy⟩ := hf used p.1 hx p.2 y c' hr
    refine ⟨used ++ more,?_,?_,hy⟩
    · rw [hu,hm,List.append_assoc]
    · rw [hp,ho,List.length_append,Nat.add_assoc]

theorem Reads.map (h : Reads read R) {f : α → β} (hf : ∀ used x, R used x → S used (f x)) :
    Reads (do return f (← read)) S := by
  refine h.bind fun used x hx => reads_pure ?_
  rw [List.append_nil]
  exact hf used x hx

theorem reads_position : Reads position fun used _ => used = [] := by
  intro c x c' hr
  cases hr
  exact ⟨[],rfl,rfl,rfl⟩

theorem reads_take (n : Nat) : Reads (take n) fun used x => x = used ∧ used.length = n := by
  intro c x c' hr
  simp only [take] at hr
  split at hr
  · cases hr
  · next hl =>
    cases hr
    have hn : (c.rest.take n).length = n := by
      rw [List.length_take] at hl ⊢
      omega
    refine ⟨c.rest.take n,(List.take_append_drop n c.rest).symm,?_,rfl,hn⟩
    rw [hn]
    rfl

theorem reads_word (width : Nat) :
    Reads (word width) fun used n => used = Word.littleEndian width n ∧ n < Nat.pow 256 width := by
  refine (reads_take width).map ?_
  rintro used _ ⟨rfl,rfl⟩
  exact ⟨(Word.littleEndian_ofLittleEndian _).symm,Word.ofLittleEndian_lt _⟩

theorem reads_byte : Reads byte fun used b => used = [b] := by
  refine (reads_word 1).map ?_
  rintro used n ⟨rfl,-⟩
  rfl

theorem Reads.field {read : Reader Value} {R : Bytes → Value → Prop} (h : Reads read R)
    (part : Value → Option α) (defect : CodeDefect) :
    Reads (field read part defect) fun used x => ∃ v, R used v ∧ part v = some x := by
  refine h.bind fun used v hv => ?_
  cases hp : part v with
  | none => exact reads_throw _
  | some x =>
    refine reads_pure ⟨v,?_,hp⟩
    rwa [List.append_nil]

/-- What is read again and again is written in one row. -/
theorem reads_times {f : α → List Value} {k : Nat}
    (h : Reads read fun used x => ∃ heads, Written k (f x) heads used) (n : Nat) :
    Reads (times n read) fun used xs =>
      xs.length = n ∧ ∃ heads, Written k (xs.flatMap f) heads used := by
  induction n with
  | zero => exact reads_pure ⟨rfl,[],.nil k⟩
  | succ n ih =>
    refine h.bind fun used x ⟨heads,hx⟩ => ih.map ?_
    rintro more xs ⟨hn,heads',hxs⟩
    refine ⟨congrArg (· + 1) hn,heads ++ heads',?_⟩
    rw [List.flatMap_cons]
    exact hx.append hxs

/-- A row that a number stands in front of is written behind a tag. -/
theorem reads_row {f : α → List Value} {k : Nat}
    (h : Reads read fun used x => ∃ heads, Written k (f x) heads used) (tag : Tag)
    (make : List α → Value)
    (hl : ∀ xs, Layout (make xs) ⟨tag,xs.length⟩ [] (xs.flatMap f) []) :
    Reads (do return make (← times (← word tag.width) read)) fun used v =>
      ∃ heads, Written (k + 1) [v] heads (tag.byte :: used) := by
  refine (reads_word _).bind fun w n hw => (reads_times h n).map ?_
  rintro inner xs ⟨rfl,heads,hxs⟩
  rw [hw.1]
  exact ⟨_,(hl xs).written hw.2 hxs⟩

section
variable {read : Reader Value} {k : Nat}

theorem reads_str (h : Reads read fun used v => ∃ heads, Written k [v] heads used)
    (defect : CodeDefect) : Reads (field read Value.bytes? defect) fun used text =>
      ∃ heads, Written k [.str text] heads used := by
  intro c text c' hr
  obtain ⟨used,hu,ho,v,hv,hp⟩ := h.field Value.bytes? defect c text c' hr
  cases v with
  | str bytes =>
    cases hp
    exact ⟨used,hu,ho,hv⟩
  | _ => cases hp

theorem reads_tuple (h : Reads read fun used v => ∃ heads, Written k [v] heads used)
    (defect : CodeDefect) : Reads (field read Value.tuple? defect) fun used items =>
      ∃ heads, Written k [.tuple items] heads used := by
  intro c text c' hr
  obtain ⟨used,hu,ho,v,hv,hp⟩ := h.field Value.tuple? defect c text c' hr
  cases v with
  | tuple items =>
    cases hp
    exact ⟨used,hu,ho,hv⟩
  | _ => cases hp

theorem reads_codeObject (h : Reads read fun used v => ∃ heads, Written k [v] heads used) :
    Reads (codeObject read) fun used c => ∃ heads, Written (k + 1) [c.toValue] heads
      (Tag.code.byte :: used) := by
  have hstr := reads_str h
  have hrow := reads_tuple h
  refine (hstr _).bind fun w₁ name ⟨heads₁,h₁⟩ => ?_
  refine (hstr _).bind fun w₂ filename ⟨heads₂,h₂⟩ => ?_
  refine (hstr _).bind fun w₃ bytecode ⟨heads₃,h₃⟩ => ?_
  refine (hstr _).bind fun w₄ lineTable ⟨heads₄,h₄⟩ => ?_
  refine (hrow _).bind fun w₅ names ⟨heads₅,h₅⟩ => ?_
  refine (hrow _).bind fun w₆ consts ⟨heads₆,h₆⟩ => ?_
  refine (hrow _).bind fun w₇ cellVars ⟨heads₇,h₇⟩ => ?_
  refine (reads_word 2).bind fun _ firstLine ⟨hw,hn⟩ => ?_
  refine reads_byte.bind fun _ argCount hargs => ?_
  refine reads_byte.bind fun _ flags hflags => ?_
  refine reads_byte.bind fun _ stackSize hstack => ?_
  refine reads_byte.bind fun _ localCount hlocals => ?_
  refine reads_byte.map fun _ freeVarCount hfree => ?_
  subst hw hargs hflags hstack hlocals hfree
  have hparts := h₁.append (h₂.append (h₃.append (h₄.append (h₅.append (h₆.append h₇)))))
  let header : CodeHeader := ⟨name,filename,bytecode,lineTable,UInt16.ofNat firstLine,argCount,flags,
    stackSize,localCount,freeVarCount⟩
  have hline : (UInt16.ofNat firstLine).toNat = firstLine := UInt16.toNat_ofNat_of_lt hn
  have hwritten := Written.value (.code header names consts cellVars) (by decide) hparts
  simp only [Value.encodeTrailer,header,hline,List.nil_append,List.append_assoc] at hwritten
  exact ⟨_,hwritten⟩

/-- What stands behind a tag is the rest of a writing. -/
theorem reads_content (h : Reads read fun used v => ∃ heads, Written k [v] heads used) (tag : Tag) :
    Reads (content read tag) fun used v =>
      ∃ heads, Written (k + 1) [v] heads (tag.byte :: used) := by
  have hleaf {v : Value} {head : Head} (hl : Layout v head [] [] [])
      (hn : head.number < Nat.pow 256 head.tag.width) :
      ∃ heads, Written (k + 1) [v] heads head.bytes :=
    ⟨[head],List.append_nil head.bytes ▸ hl.written hn (.nil k)⟩
  cases tag with
  | none => exact reads_pure (hleaf .none (by decide))
  | true => exact reads_pure (hleaf .true (by decide))
  | false => exact reads_pure (hleaf .false (by decide))
  | digit d => exact reads_pure (hleaf (.digit d) Nat.one_pos)
  | int8 =>
    refine (reads_word 1).map ?_
    rintro _ n ⟨rfl,hn⟩
    exact hleaf (.int8 n) hn
  | int16 =>
    refine (reads_word 2).map ?_
    rintro _ n ⟨rfl,hn⟩
    exact hleaf (.int16 n) hn
  | int32 =>
    refine (reads_word 4).map ?_
    rintro _ n ⟨rfl,hn⟩
    exact hleaf (.int32 n) hn
  | float =>
    refine (reads_word 4).map ?_
    rintro _ n ⟨rfl,hn⟩
    exact hleaf (.float n) hn
  | str form =>
    refine (reads_word _).bind fun w n hw => (reads_take n).map ?_
    rintro _ text ⟨rfl,rfl⟩
    have hwritten := Written.value (k := k) (.str form text) hw.2 (.nil k)
    rw [List.append_nil,List.append_nil] at hwritten
    rw [hw.1]
    exact ⟨_,hwritten⟩
  | tuple form =>
    refine reads_row h (.tuple form) .tuple fun items => ?_
    rw [List.flatMap_singleton']
    exact .tuple form items
  | list form =>
    refine reads_row h (.list form) .list fun items => ?_
    rw [List.flatMap_singleton']
    exact .list form items
  | dict form =>
    have hentry : Reads (do let key ← read; let item ← read; return (key,item)) fun used e =>
        ∃ heads, Written k [e.1,e.2] heads used :=
      h.bind fun w key ⟨heads,hkey⟩ => h.map fun w' item ⟨heads',hitem⟩ =>
        ⟨heads ++ heads',hkey.append hitem⟩
    exact reads_row hentry (.dict form) .dict (.dict form)
  | code => exact (reads_codeObject h).map fun _ _ hc => hc

theorem reads_value (levels : Nat) : Reads (Reader.value levels) fun used v =>
    ∃ heads, Written levels [v] heads used := by
  induction levels with
  | zero => exact reads_throw _
  | succ levels ih =>
    refine reads_position.bind fun _ offset hp => ?_
    refine reads_byte.bind fun _ b hb => ?_
    subst hp hb
    cases htag : Tag.ofByte? b with
    | none => exact reads_throw _
    | some tag =>
      rw [← Tag.byte_of_ofByte? htag]
      exact reads_content ih tag

end

theorem times_add (read : Reader α) (m n : Nat) :
    times (m + n) read = do return (← times m read) ++ (← times n read) := by
  induction m with
  | zero => simp [times]
  | succ m ih =>
    rw [Nat.succ_add]
    simp only [times,ih,bind_assoc,pure_bind,List.cons_append]

theorem times_one (read : Reader α) : times 1 read = do return [← read] :=
  rfl

theorem Gives.of_times_one {w : Bytes} {xs : List α} (h : Gives (times 1 read) w True xs) :
    ∃ x, xs = [x] ∧ Gives read w True x := by
  have hone (c : Cursor) : times 1 read c = (read c >>= fun p => .ok ([p.1],p.2)) := rfl
  cases hc : read ⟨0,w ++ []⟩ with
  | error e =>
    have hfound := h.found trivial 0 []
    rw [hone,hc] at hfound
    cases hfound
  | ok p =>
    obtain ⟨x,c⟩ := p
    have hfound := h.found trivial 0 []
    rw [hone,hc] at hfound
    cases hfound
    refine ⟨x,rfl,fun _ offset rest => ?_,fun hno => absurd trivial hno⟩
    have hagain := h.found trivial offset rest
    rw [hone] at hagain
    cases hr : read ⟨offset,w ++ rest⟩ with
    | error e =>
      rw [hr] at hagain
      cases hagain
    | ok q =>
      obtain ⟨y,d⟩ := q
      rw [hr] at hagain
      cases hagain
      rfl

/-- The bytes of a writing show its heads. -/
theorem gives_heads {k : Nat} {vs : List Value} {hs : List Head} {w : Bytes}
    (h : Written k vs hs w) :
    ∃ rows, Gives (times vs.length (Reader.heads k)) w True rows ∧ rows.flatten = hs := by
  induction h with
  | nil k => exact ⟨[],gives_pure [],rfl⟩
  | append _ _ ih ih' =>
    obtain ⟨rows,hg,rfl⟩ := ih
    obtain ⟨rows',hg',rfl⟩ := ih'
    refine ⟨rows ++ rows',?_,List.flatten_append⟩
    rw [List.length_append,times_add]
    exact (hg.bind (hg'.map (rows ++ ·))).congr (and_iff_left trivial)
  | @value k v head text trailer parts hs inner hl hn _ ih =>
    obtain ⟨rows,hg,rfl⟩ := ih
    have htext := gives_take text
    have htrailer := gives_take trailer
    rw [← hl.textLength_eq] at htext
    rw [← hl.trailerLength_eq] at htrailer
    rw [← hl.children_eq] at hg
    have hbody : Gives (headsOf (Reader.heads k) head.tag)
        (Word.littleEndian head.tag.width head.number ++ (text ++ (inner ++ trailer))) True
        (head :: rows.flatten) := by
      have hfits : True ∧ True ∧ True ∧ True ↔ True := by simp only [and_true]
      unfold headsOf
      refine Gives.congr ?_ hfits
      refine (gives_word _ hn).bind ?_
      refine htext.bind ?_
      refine hg.bind ?_
      exact htrailer.map fun _ => head :: rows.flatten
    refine ⟨[head :: rows.flatten],?_,List.flatten_singleton⟩
    rw [List.length_singleton,times_one]
    exact Gives.map hbody.tagged _

end Reader

end RemotePyMite
