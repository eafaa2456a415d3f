import RemotePyMite.Proofs.Text.Numeral
import RemotePyMite.Proofs.Text.Utf8
import RemotePyMite.Value.Print

/-! # Values are told apart by their texts

The text of a value without floating point numbers and code objects delimits itself: if two texts that begin
with such values are the same and no digit stands behind the values, the values are the same, and so is what
stands behind them (`Plain.delimited`).  The first character tells the kind of the value.  A string ends at
the first quote that is not escaped.  A row goes on exactly where a comma and a blank follow, and the bracket
that closes it begins no value, so the empty row is not taken for another one.
-/
namespace RemotePyMite.Value
open Numeral

section Strings

/-- The byte behind a backslash in front of the text. -/
def readEscape? : List Char → Option (UInt8 × List Char)
  | 'x' :: high :: low :: rest => some (UInt8.ofNat (16 * hexValue high + hexValue low),rest)
  | 'n' :: rest => some (0x0A,rest)
  | c :: rest => some (UInt8.ofNat c.toNat,rest)
  | [] => Option.none

/-- The first byte of a string whose text goes on here; there is none in front of a quote. -/
def readByte? : List Char → Option (UInt8 × List Char)
  | [] => Option.none
  | c :: rest =>
    if c = '\'' then Option.none
    else if c = '\\' then readEscape? rest
    else some (UInt8.ofNat c.toNat,rest)

theorem charOfNat_ne {b : UInt8} {c : Char} (h : b ≠ UInt8.ofNat c.toNat) :
    Char.ofNat b.toNat ≠ c := by
  rintro rfl
  rw [Utf8.toNat_ofNat_toNat,UInt8.ofNat_toNat] at h
  exact h rfl

theorem readByte?_escapeByte (b : UInt8) (rest : List Char) :
    readByte? (escapeByte b ++ rest) = some (b,rest) := by
  unfold escapeByte
  split
  · next hb => rw [hb]; rfl
  · next hquote =>
    split
    · next hb => rw [hb]; rfl
    · next hslash =>
      split
      · next hb => rw [hb]; rfl
      · split
        -- What stands for itself is neither the quote that ends the string nor a backslash.
        · have hread : readByte? (Char.ofNat b.toNat :: rest) =
              some (UInt8.ofNat (Char.ofNat b.toNat).toNat,rest) := by
            rw [readByte?,if_neg (charOfNat_ne hquote),if_neg (charOfNat_ne hslash)]
          rw [List.cons_append,List.nil_append,hread,Utf8.toNat_ofNat_toNat,UInt8.ofNat_toNat]
        · have hb := b.toNat_lt
          have hhigh := hexValue_hexDigit (d := b.toNat / 16) (by omega)
          have hlow := hexValue_hexDigit (d := b.toNat % 16) (by omega)
          change some (UInt8.ofNat (16 * hexValue (hexDigit (b.toNat / 16)) +
            hexValue (hexDigit (b.toNat % 16))),rest) = some (b,rest)
          rw [hhigh,hlow,Nat.div_add_mod,UInt8.ofNat_toNat]

theorem escaped_append_inj {a b : Bytes} {r s : List Char}
    (h : a.flatMap escapeByte ++ '\'' :: r = b.flatMap escapeByte ++ '\'' :: s) : a = b ∧ r = s := by
  induction a generalizing b with
  | nil =>
    cases b with
    | nil => exact ⟨rfl,(List.cons.inj h).2⟩
    | cons y b =>
      have hread := congrArg readByte? h
      rw [List.flatMap_cons,List.append_assoc,readByte?_escapeByte] at hread
      cases hread
  | cons x a ih =>
    have hread := congrArg readByte? h
    rw [List.flatMap_cons,List.append_assoc,readByte?_escapeByte] at hread
    cases b with
    | nil => cases hread
    | cons y b =>
      rw [List.flatMap_cons,List.append_assoc,readByte?_escapeByte] at hread
      obtain ⟨rfl,hrest⟩ := Prod.mk.inj (Option.some.inj hread)
      obtain ⟨rfl,hend⟩ := ih hrest
      exact ⟨rfl,hend⟩

theorem quote_append (bytes : Bytes) (rest : List Char) :
    quote bytes ++ rest = '\'' :: (bytes.flatMap escapeByte ++ '\'' :: rest) := by
  simp [quote]

theorem quote_append_inj {a b : Bytes} {r s : List Char} (h : quote a ++ r = quote b ++ s) :
    a = b ∧ r = s := by
  rw [quote_append,quote_append] at h
  exact escaped_append_inj (List.cons.inj h).2

end Strings

/-- The kind of the values without floating point numbers and code objects whose texts begin with this
character, if there are any. -/
def kindOf? (c : Char) : Option String :=
  if c.isDigit || c = '-' then some "int"
  else
    match c with
    | 'N' => some "none"
    | 'T' | 'F' => some "bool"
    | '\'' => some "str"
    | '(' => some "tuple"
    | '[' => some "list"
    | '{' => some "dict"
    | _ => Option.none

theorem kindOf?_of_isDigit {c : Char} (h : c.isDigit = true) : kindOf? c = some "int" :=
  if_pos (by rw [h,Bool.true_or])

theorem isDigit_eq_false_of_kindOf? {c : Char} (h : kindOf? c = Option.none) :
    c.isDigit = false := by
  rw [Bool.eq_false_iff]
  intro hd
  rw [kindOf?_of_isDigit hd] at h
  cases h

section Rows
variable {α : Type} {text : α → List Char} {member : α → Prop}

/-- Whatever stands behind it but a digit, the text of `a` is told from those of all other members, and so
is its end. -/
def Delimited (text : α → List Char) (member : α → Prop) (a : α) : Prop :=
  ∀ b r s, member b → Stops r → Stops s → text a ++ r = text b ++ s → a = b ∧ r = s

/-- The text begins as that of a value does. -/
def Opens (text : List Char) : Prop :=
  ∃ c rest, text = c :: rest ∧ kindOf? c ≠ Option.none

/-- Neither does a row go on in this text, nor does a value begin. -/
structure Closes (tail : List Char) : Prop where
  kind : ∀ c ∈ tail.head?, kindOf? c = Option.none
  not_next : ∀ rest, tail ≠ ',' :: ' ' :: rest

theorem closes_cons {c : Char} (h : kindOf? c = Option.none) (hc : c ≠ ',') (rest : List Char) :
    Closes (c :: rest) where
  kind d hd := by
    rw [List.head?_cons,Option.mem_some_iff] at hd
    rwa [← hd]
  not_next more heq := hc (List.cons.inj heq).1

theorem Closes.stops {tail : List Char} (h : Closes tail) : Stops tail :=
  fun c hc => isDigit_eq_false_of_kindOf? (h.kind c hc)

theorem Closes.ne_append {tail a rest : List Char} (h : Closes tail) (ha : Opens a) :
    tail ≠ a ++ rest := by
  obtain ⟨c,more,rfl,hkind⟩ := ha
  rintro rfl
  exact hkind (h.kind c rfl)

/-- Texts with a comma and a blank in front of each. -/
def continued (text : α → List Char) (items : List α) : List Char :=
  items.flatMap fun item => ',' :: ' ' :: text item

/-- Texts with a comma and a blank between any two. -/
def row (text : α → List Char) : List α → List Char
  | [] => []
  | item :: rest => text item ++ continued text rest

theorem stops_continued_append (items : List α) {tail : List Char} (h : Closes tail) :
    Stops (continued text items ++ tail) := by
  cases items with
  | nil => exact h.stops
  | cons item rest => exact stops_cons rfl _

theorem continued_append_inj {items others : List α} {r s : List Char}
    (hi : ∀ a ∈ items, Delimited text member a) (ho : ∀ b ∈ others, member b) (hr : Closes r)
    (hs : Closes s) (h : continued text items ++ r = continued text others ++ s) :
    items = others ∧ r = s := by
  induction items generalizing others with
  | nil =>
    cases others with
    | nil => exact ⟨rfl,h⟩
    -- The one row is closed where the other goes on.
    | cons other others => exact absurd h (hr.not_next _)
  | cons item items ih =>
    cases others with
    | nil => exact absurd h.symm (hs.not_next _)
    | cons other others =>
      obtain ⟨hitem,hitems⟩ := List.forall_mem_cons.mp hi
      obtain ⟨hother,hothers⟩ := List.forall_mem_cons.mp ho
      rw [continued,continued,List.flatMap_cons,List.flatMap_cons,List.append_assoc,
        List.append_assoc] at h
      obtain ⟨rfl,hrest⟩ := hitem other _ _ hother (stops_continued_append items hr)
        (stops_continued_append others hs) (List.cons.inj (List.cons.inj h).2).2
      obtain ⟨rfl,hend⟩ := ih hitems hothers hrest
      exact ⟨rfl,hend⟩

/-- A row of such texts is told from any other, and so is its end. -/
theorem row_append_inj {items others : List α} {r s : List Char}
    (hopens : ∀ b, member b → Opens (text b)) (hm : ∀ a ∈ items, member a)
    (hi : ∀ a ∈ items, Delimited text member a) (ho : ∀ b ∈ others, member b) (hr : Closes r)
    (hs : Closes s) (h : row text items ++ r = row text others ++ s) : items = others ∧ r = s := by
  cases items with
  | nil =>
    cases others with
    | nil => exact ⟨rfl,h⟩
    -- The bracket behind the empty row would begin the first of the others.
    | cons other others =>
      rw [row,row,List.append_assoc] at h
      exact absurd h (hr.ne_append (hopens other (ho other List.mem_cons_self)))
  | cons item items =>
    cases others with
    | nil =>
      rw [row,row,List.append_assoc] at h
      exact absurd h.symm (hs.ne_append (hopens item (hm item List.mem_cons_self)))
    | cons other others =>
      obtain ⟨hitem,hitems⟩ := List.forall_mem_cons.mp hi
      obtain ⟨hother,hothers⟩ := List.forall_mem_cons.mp ho
      rw [row,row,List.append_assoc,List.append_assoc] at h
      obtain ⟨rfl,hrest⟩ := hitem other _ _ hother (stops_continued_append items hr)
        (stops_continued_append others hs) h
      obtain ⟨rfl,hend⟩ := continued_append_inj hitems hothers hr hs hrest
      exact ⟨rfl,hend⟩

end Rows

theorem itemChars_eq_row (items : List Value) : itemChars items = row chars items := by
  induction items with
  | nil => rfl
  | cons item rest ih =>
    cases rest with
    | nil => simp [itemChars,row,continued]
    | cons next rest =>
      rw [itemChars,ih]
      · simp [row,continued]
      · exact List.cons_ne_nil _ _

def entryText (e : Value × Value) : List Char :=
  chars e.1 ++ ':' :: ' ' :: chars e.2

theorem entryChars_eq_row (entries : List (Value × Value)) :
    entryChars entries = row entryText entries := by
  induction entries with
  | nil => rfl
  | cons e rest ih =>
    cases rest with
    | nil => simp [entryChars,row,continued,entryText]
    | cons next rest =>
      rw [entryChars,ih]
      · simp [row,continued,entryText]
      · exact List.cons_ne_nil _ _

/-- What stands behind the items of a tuple of `n`. -/
def tupleEnd (n : Nat) : List Char :=
  if n = 1 then [',',')'] else [')']

theorem chars_tuple (items : List Value) :
    chars (.tuple items) = '(' :: (row chars items ++ tupleEnd items.length) := by
  rw [chars,itemChars_eq_row,tupleEnd]
  split <;> simp

theorem chars_list (items : List Value) :
    chars (.list items) = '[' :: (row chars items ++ [']']) := by
  rw [chars,itemChars_eq_row]
  rfl

theorem chars_dict (entries : List (Value × Value)) :
    chars (.dict entries) = '{' :: (row entryText entries ++ ['}']) := by
  rw [chars,entryChars_eq_row]
  rfl

theorem closes_tupleEnd_append (n : Nat) (rest : List Char) : Closes (tupleEnd n ++ rest) := by
  unfold tupleEnd
  split
  · refine ⟨fun c hc => ?_,fun more heq => ?_⟩
    · cases hc
      decide
    · cases (List.cons.inj (List.cons.inj heq).2).1
  · exact closes_cons (by decide) (by decide) rest

/-- A value without floating point numbers and code objects. -/
inductive Plain : Value → Prop
  | none : Plain .none
  | bool (b : Bool) : Plain (.bool b)
  | int (i : Int32) : Plain (.int i)
  | str (bytes : Bytes) : Plain (.str bytes)
  | tuple {items : List Value} (h : ∀ v ∈ items, Plain v) : Plain (.tuple items)
  | list {items : List Value} (h : ∀ v ∈ items, Plain v) : Plain (.list items)
  | dict {entries : List (Value × Value)} (hkeys : ∀ e ∈ entries, Plain e.1)
      (hvalues : ∀ e ∈ entries, Plain e.2) : Plain (.dict entries)

def PlainEntry (e : Value × Value) : Prop :=
  Plain e.1 ∧ Plain e.2

namespace Plain
variable {v w : Value} {r s : List Char}

theorem exists_head (h : Plain v) :
    ∃ c rest, v.chars = c :: rest ∧ kindOf? c = some v.kindName := by
  cases h with
  | none => exact ⟨_,_,rfl,rfl⟩
  | bool b => cases b <;> exact ⟨_,_,rfl,rfl⟩
  | int i =>
    rw [chars,integer]
    split
    · exact ⟨_,_,rfl,rfl⟩
    · obtain ⟨c,rest,hd,hc⟩ := exists_digit i.toInt.natAbs
      exact ⟨c,rest,hd,kindOf?_of_isDigit hc⟩
  | str bytes => exact ⟨_,_,rfl,rfl⟩
  | tuple h => exact ⟨_,_,rfl,rfl⟩
  | list h => exact ⟨_,_,rfl,rfl⟩
  | dict hk hv => exact ⟨_,_,rfl,rfl⟩

theorem opens (h : Plain v) : Opens v.chars := by
  obtain ⟨c,rest,hc,hkind⟩ := h.exists_head
  exact ⟨c,rest,hc,hkind ▸ Option.some_ne_none _⟩

theorem opens_entry {e : Value × Value} (h : PlainEntry e) : Opens (entryText e) := by
  obtain ⟨c,rest,hc,hkind⟩ := h.1.opens
  exact ⟨c,_,by rw [entryText,hc,List.cons_append],hkind⟩

theorem kindName_eq (hv : Plain v) (hw : Plain w) (h : v.chars ++ r = w.chars ++ s) :
    v.kindName = w.kindName := by
  obtain ⟨c,rest,hc,hkind⟩ := hv.exists_head
  obtain ⟨d,more,hd,hkind'⟩ := hw.exists_head
  rw [hc,hd] at h
  rw [(List.cons.inj h).1,hkind'] at hkind
  exact (Option.some.inj hkind).symm

theorem delimited_none : Delimited chars Plain .none := by
  intro w r s hw _ _ h
  have hkind := Plain.none.kindName_eq hw h
  cases hw with
  | none => exact ⟨rfl,List.append_cancel_left h⟩
  | _ => simp [kindName] at hkind

theorem delimited_bool (b : Bool) : Delimited chars Plain (.bool b) := by
  intro w r s hw _ _ h
  have hkind := (Plain.bool b).kindName_eq hw h
  cases hw with
  | bool c =>
    cases b <;> cases c
    · exact ⟨rfl,List.append_cancel_left h⟩
    · cases (List.cons.inj h).1
    · cases (List.cons.inj h).1
    · exact ⟨rfl,List.append_cancel_left h⟩
  | _ => simp [kindName] at hkind

theorem delimited_int (i : Int32) : Delimited chars Plain (.int i) := by
  intro w r s hw hr hs h
  have hkind := (Plain.int i).kindName_eq hw h
  cases hw with
  | int j =>
    obtain ⟨hij,hrest⟩ := integer_append_inj hr hs h
    exact ⟨congrArg Value.int (Int32.toInt_inj.mp hij),hrest⟩
  | _ => simp [kindName] at hkind

theorem delimited_str (bytes : Bytes) : Delimited chars Plain (.str bytes) := by
  intro w r s hw _ _ h
  have hkind := (Plain.str bytes).kindName_eq hw h
  cases hw with
  | str others =>
    obtain ⟨rfl,hrest⟩ := quote_append_inj h
    exact ⟨rfl,hrest⟩
  | _ => simp [kindName] at hkind

theorem delimited_tuple {items : List Value} (hv : ∀ v ∈ items, Plain v)
    (ih : ∀ v ∈ items, Delimited chars Plain v) : Delimited chars Plain (.tuple items) := by
  intro w r s hw _ _ h
  have hkind := (Plain.tuple hv).kindName_eq hw h
  cases hw with
  | @tuple others ho =>
    rw [chars_tuple,chars_tuple,List.cons_append,List.cons_append,List.append_assoc,
      List.append_assoc] at h
    obtain ⟨rfl,hend⟩ := row_append_inj (fun _ => opens) hv ih ho (closes_tupleEnd_append _ r)
      (closes_tupleEnd_append _ s) (List.cons.inj h).2
    exact ⟨rfl,List.append_cancel_left hend⟩
  | _ => simp [kindName] at hkind

theorem delimited_list {items : List Value} (hv : ∀ v ∈ items, Plain v)
    (ih : ∀ v ∈ items, Delimited chars Plain v) : Delimited chars Plain (.list items) := by
  intro w r s hw _ _ h
  have hkind := (Plain.list hv).kindName_eq hw h
  cases hw with
  | @list others ho =>
    rw [chars_list,chars_list,List.cons_append,List.cons_append,List.append_assoc,
      List.append_assoc] at h
    obtain ⟨rfl,hend⟩ := row_append_inj (fun _ => opens) hv ih ho
      (closes_cons (by decide) (by decide) r) (closes_cons (by decide) (by decide) s)
      (List.cons.inj h).2
    exact ⟨rfl,(List.cons.inj hend).2⟩
  | _ => simp [kindName] at hkind

theorem delimited_entry {e : Value × Value} (hk : Delimited chars Plain e.1)
    (hv : Delimited chars Plain e.2) : Delimited entryText PlainEntry e := by
  intro f r s hf hr hs h
  rw [entryText,entryText,List.append_assoc,List.append_assoc] at h
  -- A colon stands behind the keys, so no digit does.
  obtain ⟨hkey,hrest⟩ := hk f.1 _ _ hf.1 (stops_cons rfl _) (stops_cons rfl _) h
  obtain ⟨hvalue,hend⟩ := hv f.2 r s hf.2 hr hs (List.cons.inj (List.cons.inj hrest).2).2
  exact ⟨Prod.ext hkey hvalue,hend⟩

theorem delimited_dict {entries : List (Value × Value)} (he : ∀ e ∈ entries, PlainEntry e)
    (ih : ∀ e ∈ entries, Delimited entryText PlainEntry e) :
    Delimited chars Plain (.dict entries) := by
  intro w r s hw _ _ h
  have hkind := (Plain.dict (fun e h => (he e h).1) fun e h => (he e h).2).kindName_eq hw h
  cases hw with
  | @dict others hk hv =>
    rw [chars_dict,chars_dict,List.cons_append,List.cons_append,List.append_assoc,
      List.append_assoc] at h
    obtain ⟨rfl,hend⟩ := row_append_inj (fun _ => opens_entry) he ih (fun e h => ⟨hk e h,hv e h⟩)
      (closes_cons (by decide) (by decide) r) (closes_cons (by decide) (by decide) s)
      (List.cons.inj h).2
    exact ⟨rfl,(List.cons.inj hend).2⟩
  | _ => simp [kindName] at hkind

theorem delimited (h : Plain v) : Delimited chars Plain v := by
  induction h with
  | none => exact delimited_none
  | bool b => exact delimited_bool b
  | int i => exact delimited_int i
  | str bytes => exact delimited_str bytes
  | tuple h ih => exact delimited_tuple h ih
  | list h ih => exact delimited_list h ih
  | dict hk hv ihk ihv =>
    exact delimited_dict (fun e he => ⟨hk e he,hv e he⟩)
      fun e he => delimited_entry (ihk e he) (ihv e he)

end Plain

section Printable

/-- A character of printable ASCII. -/
def Printable (c : Char) : Prop :=
  0x20 ≤ c.toNat ∧ c.toNat ≤ 0x7E

instance (c : Char) : Decidable (Printable c) :=
  inferInstanceAs (Decidable (_ ∧ _))

theorem printable_of_all {text : List Char} (h : (text.all fun c => decide (Printable c)) = true) :
    ∀ c ∈ text, Printable c :=
  fun c hc => of_decide_eq_true (List.all_eq_true.mp h c hc)

theorem printable_of_isDigit {c : Char} (h : c.isDigit = true) : Printable c := by
  obtain ⟨hl,hu⟩ := isDigit_iff.mp h
  exact ⟨by omega,by omega⟩

theorem printable_integer (i : Int) : ∀ c ∈ integer i, Printable c := by
  have hdecimal : ∀ c ∈ decimal i.natAbs, Printable c := fun c hc =>
    printable_of_isDigit (isDigit_of_mem_decimal hc)
  unfold integer
  split
  · exact List.forall_mem_cons.mpr ⟨by decide,hdecimal⟩
  · exact hdecimal

theorem printable_hexDigit : ∀ {d : Nat}, d < 16 → Printable (hexDigit d) := by
  decide

theorem printable_escapeByte (b : UInt8) : ∀ c ∈ escapeByte b, Printable c := by
  unfold escapeByte
  split
  · exact printable_of_all (by decide)
  · split
    · exact printable_of_all (by decide)
    · split
      · exact printable_of_all (by decide)
      · split
        · next h =>
          rw [List.forall_mem_singleton,Printable,Utf8.toNat_ofNat_toNat]
          exact ⟨UInt8.le_iff_toNat_le.mp h.1,UInt8.le_iff_toNat_le.mp h.2⟩
        · have hb := b.toNat_lt
          rw [hexByte,List.forall_mem_cons,List.forall_mem_cons,List.forall_mem_cons,
            List.forall_mem_singleton]
          exact ⟨by decide,by decide,printable_hexDigit (by omega),printable_hexDigit (by omega)⟩

theorem printable_quote (bytes : Bytes) : ∀ c ∈ quote bytes, Printable c := by
  rw [quote,List.forall_mem_append,List.forall_mem_cons,List.forall_mem_flatMap]
  exact ⟨⟨by decide,fun b _ => printable_escapeByte b⟩,printable_of_all (by decide)⟩

theorem printable_row {α : Type} {text : α → List Char} {items : List α}
    (h : ∀ a ∈ items, ∀ c ∈ text a, Printable c) : ∀ c ∈ row text items, Printable c := by
  cases items with
  | nil => exact List.forall_mem_nil _
  | cons item rest =>
    obtain ⟨hitem,hrest⟩ := List.forall_mem_cons.mp h
    rw [row,continued,List.forall_mem_append,List.forall_mem_flatMap]
    refine ⟨hitem,fun next hnext => ?_⟩
    rw [List.forall_mem_cons,List.forall_mem_cons]
    exact ⟨by decide,by decide,hrest next hnext⟩

theorem printable_entryText {e : Value × Value} (hk : ∀ c ∈ chars e.1, Printable c)
    (hv : ∀ c ∈ chars e.2, Printable c) : ∀ c ∈ entryText e, Printable c := by
  rw [entryText,List.forall_mem_append,List.forall_mem_cons,List.forall_mem_cons]
  exact ⟨hk,by decide,by decide,hv⟩

theorem printable_tupleEnd (n : Nat) : ∀ c ∈ tupleEnd n, Printable c := by
  unfold tupleEnd
  split <;> exact printable_of_all (by decide)

theorem Plain.printable {v : Value} (h : Plain v) : ∀ c ∈ v.chars, Printable c := by
  induction h with
  | none => exact printable_of_all (by decide)
  | bool b => cases b <;> exact printable_of_all (by decide)
  | int i => exact printable_integer i.toInt
  | str bytes => exact printable_quote bytes
  | tuple h ih =>
    rw [chars_tuple,List.forall_mem_cons,List.forall_mem_append]
    exact ⟨by decide,printable_row ih,printable_tupleEnd _⟩
  | list h ih =>
    rw [chars_list,List.forall_mem_cons,List.forall_mem_append]
    exact ⟨by decide,printable_row ih,printable_of_all (by decide)⟩
  | dict hk hv ihk ihv =>
    rw [chars_dict,List.forall_mem_cons,List.forall_mem_append]
    have hrow := printable_row fun e he => printable_entryText (ihk e he) (ihv e he)
    exact ⟨by decide,hrow,printable_of_all (by decide)⟩

end Printable

/-- Of the values without floating point numbers and code objects only equal ones have the same text, and
there is nothing but printable ASCII in their texts. -/
theorem text_injective :
    (∀ v w, Plain v → Plain w → (v.text = w.text ↔ v = w)) ∧
      ∀ v, Plain v → ∀ c ∈ v.text.toList, 0x20 ≤ c.toNat ∧ c.toNat ≤ 0x7E := by
  refine ⟨fun v w hv hw => ⟨fun h => ?_,congrArg text⟩,fun v hv => ?_⟩
  · have hchars : v.chars ++ [] = w.chars ++ [] := by
      rw [List.append_nil,List.append_nil]
      exact String.ofList_injective h
    have hstops : Stops [] := fun c hc => by cases hc
    exact (hv.delimited w [] [] hw hstops hstops hchars).1
  · rw [text,String.toList_ofList]
    exact hv.printable

/-- A key that occurs twice, with its values in either order. -/
theorem text_injective_order :
    let key : Value := .str [0x27,0]
    let v : Value := .dict [(key,.tuple [.int (-3)]),(key,.list [])]
    let w : Value := .dict [(key,.list []),(key,.tuple [.int (-3)])]
    Plain v ∧ Plain w ∧ v.text = "\x7b'\\'\\x00': (-3,), '\\'\\x00': []\x7d" ∧ v ≠ w ∧
      ∀ c ∈ v.text.toList, 0x20 ≤ c.toNat ∧ c.toNat ≤ 0x7E := by
  intro key v w
  have hkey : Plain key := .str _
  have hlist : Plain (.list []) := .list (List.forall_mem_nil _)
  have htuple : Plain (.tuple [.int (-3)]) := .tuple (List.forall_mem_singleton.mpr (.int _))
  have hv : Plain v := by
    refine .dict ?_ ?_ <;> rw [List.forall_mem_cons,List.forall_mem_singleton]
    · exact ⟨hkey,hkey⟩
    · exact ⟨htuple,hlist⟩
  have hw : Plain w := by
    refine .dict ?_ ?_ <;> rw [List.forall_mem_cons,List.forall_mem_singleton]
    · exact ⟨hkey,hkey⟩
    · exact ⟨hlist,htuple⟩
  have htext : v.text = "\x7b'\\'\\x00': (-3,), '\\'\\x00': []\x7d" := by decide +kernel
  have hne : v.text ≠ w.text := by decide +kernel
  exact ⟨hv,hw,htext,mt (text_injective.1 v w hv hw).mpr hne,text_injective.2 v hv⟩

end RemotePyMite.Value
