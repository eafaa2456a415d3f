import RemotePyMite.Proofs.Value.Written

/-! # More input

A reader goes through its input from front to back and stops where it fails.  So what lies behind the
part it has looked at makes no difference to it, and an input that ends too early is the only failure
that more input can change.  `Grows` compares what a reader makes of an input with what it makes of a
longer one; readers one after another keep to it (`Steady.bind`), so the reader of values does
(`decode_stable`).
-/
namespace RemotePyMite

namespace Cursor

/-- The same place in an input that goes on. -/
def extend (c : Cursor) (more : Bytes) : Cursor :=
  ⟨c.offset,c.rest ++ more⟩

end Cursor

namespace Reader
variable {α β : Type}

/-- The place that an error names lies in the input, and what it says of it is so. -/
def Lies (c : Cursor) : ValueError → Prop
  | .truncated needed place => 0 < needed ∧ c.offset ≤ place ∧ place ≤ c.stop
  | .unknownTag tag place => (∃ front back, c.rest = front ++ tag :: back ∧
      place = c.offset + front.length) ∧ ∀ known : Tag, known.byte ≠ tag
  | _ => True

/-- The reader has gone as far as `n`, or has failed for good. -/
def Passes (n : Nat) : Except ValueError (α × Cursor) → Prop
  | .ok (_,c) => n ≤ c.offset
  | .error (.truncated _ place) => n ≤ place
  | .error _ => True

/-- What comes of an input that ends at `stop`, and what comes of it with `more` behind it. -/
inductive Grows (stop : Nat) (more : Bytes) :
    Except ValueError (α × Cursor) → Except ValueError (α × Cursor) → Prop
  | found (x : α) (c : Cursor) (hc : c.stop = stop) :
      Grows stop more (.ok (x,c)) (.ok (x,c.extend more))
  | refused {e : ValueError} (he : ∀ needed place, e ≠ .truncated needed place) :
      Grows stop more (.error e) (.error e)
  /-- Still too little. -/
  | lacking {needed place : Nat} (h : more.length < needed) :
      Grows stop more (.error (.truncated needed place))
        (.error (.truncated (needed - more.length) place))
  /-- The reader gets beyond what was missing. -/
  | reached {needed place : Nat} {result : Except ValueError (α × Cursor)}
      (h : needed ≤ more.length) (hr : Passes (stop + needed) result) :
      Grows stop more (.error (.truncated needed place)) result

/-- The reader looks at no more of its input than it says. -/
structure Steady (read : Reader α) : Prop where
  found : Reads read fun _ _ => True
  failed : ∀ c e, read c = .error e → Lies c e
  grows : ∀ c more, Grows c.stop more (read c) (read (c.extend more))

variable {read : Reader α}

theorem stop_of_used {c c' : Cursor} {used : Bytes} (hu : c.rest = used ++ c'.rest)
    (ho : c'.offset = c.offset + used.length) : c'.stop = c.stop := by
  rw [Cursor.stop,Cursor.stop,ho,hu,List.length_append,Nat.add_assoc]

/-- An error behind the part that was used lies in the whole input. -/
theorem Lies.back {c c' : Cursor} {used : Bytes} {e : ValueError} (h : Lies c' e)
    (hu : c.rest = used ++ c'.rest) (ho : c'.offset = c.offset + used.length) : Lies c e := by
  cases e with
  | truncated needed place =>
    obtain ⟨hn,hle,hstop⟩ := h
    rw [stop_of_used hu ho] at hstop
    exact ⟨hn,by omega,hstop⟩
  | unknownTag tag place =>
    obtain ⟨⟨front,back,hr,rfl⟩,hunknown⟩ := h
    refine ⟨⟨used ++ front,back,?_,?_⟩,hunknown⟩
    · rw [hu,hr,List.append_assoc]
    · rw [ho,List.length_append,Nat.add_assoc]
  | _ => trivial

/-- A reader never goes back. -/
theorem Steady.passes (h : Steady read) {n : Nat} {c : Cursor} (hn : n ≤ c.offset) :
    Passes n (read c) := by
  cases hr : read c with
  | ok p =>
    obtain ⟨used,-,ho,-⟩ := h.found c p.1 p.2 hr
    change n ≤ p.2.offset
    omega
  | error e =>
    have hl := h.failed c e hr
    cases e with
    | truncated needed place => exact Nat.le_trans hn hl.2.1
    | _ => trivial

theorem steady_pure (x : α) : Steady (pure x) where
  found := reads_pure trivial
  failed := by
    rintro c e ⟨⟩
  grows c _ := .found x c rfl

/-- A failure that has nothing to do with the input. -/
theorem steady_throw {e : ValueError} (hl : ∀ c, Lies c e)
    (he : ∀ needed place, e ≠ .truncated needed place) : Steady (throw e : Reader α) where
  found := reads_throw e
  failed := by
    rintro c _ ⟨⟩
    exact hl c
  grows _ _ := .refused he

theorem Steady.bind (h : Steady read) {f : α → Reader β} (hf : ∀ x, Steady (f x)) :
    Steady (read >>= f) where
  found := h.found.bind fun _ x _ => (hf x).found
  failed := by
    intro c e he
    rw [bind_apply] at he
    cases hr : read c with
    | error e' =>
      rw [hr] at he
      cases he
      exact h.failed c e hr
    | ok p =>
      rw [hr] at he
      obtain ⟨used,hu,ho,-⟩ := h.found c p.1 p.2 hr
      exact ((hf p.1).failed p.2 e he).back hu ho
  grows := by
    intro c more
    rw [bind_apply,bind_apply]
    generalize hr : read (c.extend more) = result
    have hg := h.grows c more
    rw [hr] at hg
    generalize read c = short at hg
    cases hg with
    | found x d hd =>
      rw [← hd]
      exact (hf x).grows d more
    | refused he => exact .refused he
    | lacking hm => exact .lacking hm
    | reached hm hp =>
      refine .reached hm ?_
      -- What is read next starts beyond what was missing, or nothing is.
      cases result with
      | ok p => exact (hf p.1).passes hp
      | error e =>
        cases e with
        | truncated => exact hp
        | _ => trivial

theorem Steady.map (h : Steady read) (f : α → β) : Steady (do return f (← read)) :=
  h.bind fun x => steady_pure (f x)

theorem take_of_le {n : Nat} {c : Cursor} (h : n ≤ c.rest.length) :
    take n c = .ok (c.rest.take n,c.advance n) := by
  rw [take]
  exact if_neg (by rw [List.length_take]; omega)

theorem take_of_lt {n : Nat} {c : Cursor} (h : c.rest.length < n) :
    take n c = .error (.truncated (n - c.rest.length) c.offset) := by
  simp only [take,List.length_take]
  rw [if_pos (by omega),Nat.min_eq_right (by omega)]

theorem steady_take (n : Nat) : Steady (take n) where
  found c x c' hr := by
    obtain ⟨used,hu,ho,-⟩ := reads_take n c x c' hr
    exact ⟨used,hu,ho,trivial⟩
  failed := by
    intro c e he
    by_cases hn : n ≤ c.rest.length
    · cases (take_of_le hn).symm.trans he
    · have hlt : c.rest.length < n := Nat.lt_of_not_le hn
      cases (take_of_lt hlt).symm.trans he
      exact ⟨Nat.sub_pos_of_lt hlt,Nat.le_refl _,Nat.le_add_right _ _⟩
  grows := by
    intro c more
    have hlen : (c.extend more).rest.length = c.rest.length + more.length := List.length_append
    -- It is all there, or it still is not with what follows, or what follows goes beyond what was missing.
    by_cases hn : n ≤ c.rest.length
    · have hlong : take n (c.extend more) = .ok (c.rest.take n,(c.advance n).extend more) := by
        rw [take_of_le (hlen ▸ Nat.le_add_right_of_le hn),Cursor.extend,Cursor.extend,Cursor.advance,
          Cursor.advance,List.take_append_of_le_length hn,List.drop_append_of_le_length hn]
      rw [take_of_le hn,hlong]
      refine .found _ _ ?_
      change c.offset + n + (c.rest.drop n).length = c.offset + c.rest.length
      rw [List.length_drop]
      omega
    · have hlt : c.rest.length < n := Nat.lt_of_not_le hn
      rw [take_of_lt hlt]
      by_cases hm : more.length < n - c.rest.length
      · rw [take_of_lt (by omega : (c.extend more).rest.length < n),hlen,← Nat.sub_sub]
        exact .lacking hm
      · rw [take_of_le (by omega : n ≤ (c.extend more).rest.length)]
        refine .reached (Nat.le_of_not_lt hm) ?_
        change c.stop + (n - c.rest.length) ≤ c.offset + n
        rw [Cursor.stop]
        omega

theorem steady_word (width : Nat) : Steady (word width) :=
  (steady_take width).map Word.ofLittleEndian

theorem steady_byte : Steady byte :=
  (steady_word 1).map UInt8.ofNat

theorem Steady.times (h : Steady read) (n : Nat) : Steady (times n read) := by
  induction n with
  | zero => exact steady_pure []
  | succ n ih => exact h.bind fun x => ih.map (x :: ·)

theorem Steady.field {read : Reader Value} (h : Steady read) (part : Value → Option α)
    (defect : CodeDefect) : Steady (field read part defect) := by
  refine h.bind fun v => ?_
  cases part v with
  | none => exact steady_throw (fun _ => trivial) (by simp)
  | some x => exact steady_pure x

theorem Steady.codeObject {read : Reader Value} (h : Steady read) : Steady (codeObject read) := by
  unfold Reader.codeObject
  refine (h.field _ _).bind fun _ => (h.field _ _).bind fun _ => (h.field _ _).bind fun _ => ?_
  refine (h.field _ _).bind fun _ => (h.field _ _).bind fun _ => (h.field _ _).bind fun _ => ?_
  refine (h.field _ _).bind fun _ => (steady_word 2).bind fun _ => steady_byte.bind fun _ => ?_
  refine steady_byte.bind fun _ => steady_byte.bind fun _ => steady_byte.bind fun _ => ?_
  exact steady_byte.bind fun _ => steady_pure _

theorem Steady.content {read : Reader Value} (h : Steady read) (tag : Tag) :
    Steady (content read tag) := by
  cases tag with
  | none => exact steady_pure _
  | true => exact steady_pure _
  | false => exact steady_pure _
  | digit d => exact steady_pure _
  | int8 => exact (steady_word 1).map _
  | int16 => exact (steady_word 2).map _
  | int32 => exact (steady_word 4).map _
  | float => exact (steady_word 4).map _
  | str form => exact (steady_word _).bind fun n => (steady_take n).map _
  | tuple form => exact (steady_word _).bind fun n => (h.times n).map _
  | list form => exact (steady_word _).bind fun n => (h.times n).map _
  | dict form =>
    have hentry : Steady (do let key ← read; let item ← read; return (key,item)) :=
      h.bind fun key => h.map (key,·)
    exact (steady_word _).bind fun n => (hentry.times n).map _
  | code => exact h.codeObject.map _

/-- The tag in front of a value. -/
def tag : Reader Tag := do
  let offset ← position
  let b ← byte
  match Tag.ofByte? b with
  | some tag => return tag
  | none => throw (.unknownTag b offset)

theorem value_succ (levels : Nat) : value (levels + 1) = tag >>= content (value levels) := by
  rw [value,tag,bind_assoc]
  refine congrArg (position >>= ·) (funext fun offset => ?_)
  rw [bind_assoc]
  refine congrArg (byte >>= ·) (funext fun b => ?_)
  cases Tag.ofByte? b <;> rfl

theorem tag_nil (offset : Nat) : tag ⟨offset,[]⟩ = .error (.truncated 1 offset) :=
  rfl

theorem tag_cons (offset : Nat) (b : UInt8) (rest : Bytes) :
    tag ⟨offset,b :: rest⟩ = match Tag.ofByte? b with
      | some tag => .ok (tag,⟨offset + 1,rest⟩)
      | none => .error (.unknownTag b offset) := by
  have hposition (c : Cursor) : position c = pure (c.offset,c) := rfl
  have hbyte : byte ⟨offset,b :: rest⟩ = pure (b,⟨offset + 1,rest⟩) :=
    (gives_byte b).found trivial offset rest
  rw [tag,bind_apply,hposition,pure_bind,bind_apply,hbyte,pure_bind]
  cases Tag.ofByte? b <;> rfl

/-- A byte that is no tag is refused where it stands. -/
theorem steady_tag : Steady tag where
  found := by
    rintro ⟨offset,_ | ⟨b,rest⟩⟩ t c' hr
    · cases hr
    · rw [tag_cons] at hr
      split at hr
      · cases hr
        exact ⟨[b],rfl,rfl,trivial⟩
      · cases hr
  failed := by
    rintro ⟨offset,_ | ⟨b,rest⟩⟩ e he
    · cases he
      exact ⟨Nat.one_pos,Nat.le_refl _,Nat.le_refl _⟩
    · rw [tag_cons] at he
      split at he
      · cases he
      · next hb =>
        cases he
        refine ⟨⟨[],rest,rfl,rfl⟩,?_⟩
        rintro known rfl
        cases (Tag.ofByte?_byte known).symm.trans hb
  grows := by
    rintro ⟨offset,_ | ⟨b,rest⟩⟩ more
    · rw [tag_nil]
      cases more with
      | nil => exact .lacking Nat.one_pos
      | cons b rest =>
        refine .reached (Nat.succ_le_succ (Nat.zero_le _)) ?_
        rw [Cursor.extend,List.nil_append,tag_cons]
        cases Tag.ofByte? b with
        | none => trivial
        | some t => exact Nat.le_refl _
    · rw [Cursor.extend,List.cons_append,tag_cons,tag_cons]
      cases Tag.ofByte? b with
      | none => exact .refused (by simp)
      | some t =>
        refine .found t ⟨offset + 1,rest⟩ ?_
        simp only [Cursor.stop,List.length_cons]
        omega

theorem steady_value (levels : Nat) : Steady (value levels) := by
  induction levels with
  | zero => exact steady_throw (fun _ => trivial) (by simp)
  | succ levels ih =>
    rw [value_succ]
    exact steady_tag.bind ih.content

end Reader

namespace Value
open Reader
variable {input more : Bytes} {v : Value} {n : Nat} {e : ValueError}

theorem decode_eq (input : Bytes) :
    decode input = (value (maxDepth + 1) (.start input)).map fun p => (p.1,p.2.offset) := by
  change (value (maxDepth + 1) (.start input) >>= fun p => pure (p.1,p.2.offset)) = _
  cases value (maxDepth + 1) (.start input) <;> rfl

theorem decode_eq_ok_iff : decode input = .ok (v,n) ↔
    ∃ rest, value (maxDepth + 1) (.start input) = .ok (v,⟨n,rest⟩) := by
  rw [decode_eq]
  cases value (maxDepth + 1) (.start input) with
  | error e => exact iff_of_false (by nofun) (by nofun)
  | ok p =>
    constructor
    · rintro ⟨⟩
      exact ⟨p.2.rest,rfl⟩
    · rintro ⟨rest,⟨⟩⟩
      rfl

theorem decode_eq_error_iff :
    decode input = .error e ↔ value (maxDepth + 1) (.start input) = .error e := by
  rw [decode_eq]
  cases value (maxDepth + 1) (.start input) with
  | error e' =>
    simp only [Except.map,Except.error.injEq]
  | ok p => exact iff_of_false (by nofun) (by nofun)

theorem grows_decode (input more : Bytes) :
    Grows input.length more (value (maxDepth + 1) (.start input))
      (value (maxDepth + 1) (.start (input ++ more))) := by
  have hg := (steady_value (maxDepth + 1)).grows (.start input) more
  rwa [Cursor.stop,Cursor.start,Nat.zero_add] at hg

theorem lies_of_decode (h : decode input = .error e) : Lies (.start input) e :=
  (steady_value _).failed _ e (decode_eq_error_iff.mp h)

theorem le_length_of_decode (h : decode input = .ok (v,n)) : n ≤ input.length := by
  obtain ⟨rest,hr⟩ := decode_eq_ok_iff.mp h
  obtain ⟨used,hu,hn,-⟩ := (steady_value _).found _ _ _ hr
  change input = used ++ rest at hu
  change n = 0 + used.length at hn
  rw [hu,List.length_append]
  omega

theorem decode_append_of_ok (h : decode input = .ok (v,n)) (more : Bytes) :
    decode (input ++ more) = .ok (v,n) := by
  obtain ⟨rest,hr⟩ := decode_eq_ok_iff.mp h
  have hg := grows_decode input more
  rw [hr] at hg
  generalize hlong : value (maxDepth + 1) (.start (input ++ more)) = result at hg
  cases hg
  exact decode_eq_ok_iff.mpr ⟨_,hlong⟩

/-- What is cut off a value at its end is missed, and nothing else is. -/
theorem decode_take_cases (h : decode input = .ok (v,n)) {k : Nat} (hk : k ≤ input.length) :
    n ≤ k ∧ decode (input.take k) = .ok (v,n) ∨
      ∃ needed place, decode (input.take k) = .error (.truncated needed place) ∧ place ≤ k ∧
        1 ≤ needed ∧ k + needed ≤ n := by
  have hlen : (input.take k).length = k := List.length_take_of_le hk
  obtain ⟨rest,hr⟩ := decode_eq_ok_iff.mp h
  have hg := grows_decode (input.take k) (input.drop k)
  -- What was cut off comes behind the part again, and in the whole the value is found.
  rw [List.take_append_drop,hr,hlen] at hg
  generalize hshort : value (maxDepth + 1) (.start (input.take k)) = result at hg
  generalize hlong : (Except.ok (v,⟨n,rest⟩) : Except ValueError (Value × Cursor)) = whole at hg
  cases hg with
  | found x c hc =>
    cases hlong
    have htaken := decode_eq_ok_iff.mpr ⟨_,hshort⟩
    exact .inl ⟨hlen ▸ le_length_of_decode htaken,htaken⟩
  | refused he => cases hlong
  | lacking hm => cases hlong
  | reached hm hp =>
    cases hlong
    have herror := decode_eq_error_iff.mpr hshort
    obtain ⟨hpos,-,hplace⟩ := lies_of_decode herror
    change _ ≤ 0 + (input.take k).length at hplace
    rw [hlen,Nat.zero_add] at hplace
    exact .inr ⟨_,_,herror,hplace,hpos,hp⟩

theorem decode_append_of_refused (h : decode input = .error e)
    (he : ∀ needed place, e ≠ .truncated needed place) (more : Bytes) :
    decode (input ++ more) = .error e := by
  have hg := grows_decode input more
  rw [decode_eq_error_iff.mp h] at hg
  generalize hlong : value (maxDepth + 1) (.start (input ++ more)) = result at hg
  cases hg with
  | refused he => exact decode_eq_error_iff.mpr hlong
  | lacking hm => exact absurd rfl (he _ _)
  | reached hm hp => exact absurd rfl (he _ _)

/-- Where an input ends too early, less than what is missing leaves the rest missing, and what fails then
fails further on. -/
theorem decode_append_of_truncated {needed place : Nat}
    (h : decode input = .error (.truncated needed place)) (more : Bytes) :
    if more.length < needed then
      decode (input ++ more) = .error (.truncated (needed - more.length) place)
    else ∀ needed' place', decode (input ++ more) = .error (.truncated needed' place') →
      place < place' := by
  have hg := grows_decode input more
  rw [decode_eq_error_iff.mp h] at hg
  generalize hlong : value (maxDepth + 1) (.start (input ++ more)) = result at hg
  cases hg with
  | refused he => exact absurd rfl (he _ _)
  | lacking hm =>
    rw [if_pos hm]
    exact decode_eq_error_iff.mpr hlong
  | reached hm hp =>
    rw [if_neg (Nat.not_lt.mpr hm)]
    intro needed' place' h'
    obtain ⟨hpos,-,hplace⟩ := lies_of_decode h
    change place ≤ 0 + input.length at hplace
    rw [← hlong,decode_eq_error_iff.mp h'] at hp
    change input.length + needed ≤ place' at hp
    omega

/-- What is found in an input depends on no byte behind it, and a part of it misses as much as was cut off
or less.  An error other than that something is missing stays whatever follows, and a byte that is no tag
stands where the error says.  What is missing is still missing until it is all there, and then the reader
gets further. -/
theorem decode_stable (input : Bytes) :
    (∀ v n, decode input = .ok (v,n) → n ≤ input.length ∧
      (∀ more, decode (input.take n ++ more) = .ok (v,n)) ∧
      ∀ k < n, ∃ needed place, decode (input.take k) = .error (.truncated needed place) ∧
        place ≤ k ∧ 1 ≤ needed ∧ k + needed ≤ n) ∧
    ∀ e, decode input = .error e →
      match e with
      | .truncated needed place => ∀ more : Bytes,
        if more.length < needed then
          decode (input ++ more) = .error (.truncated (needed - more.length) place)
        else ∀ needed' place', decode (input ++ more) = .error (.truncated needed' place') →
          place < place'
      | .unknownTag tag place => input[place]? = some tag ∧ (∀ known : Tag, known.byte ≠ tag) ∧
        ∀ more, decode (input ++ more) = .error (.unknownTag tag place)
      | e => ∀ more, decode (input ++ more) = .error e := by
  refine ⟨?_,?_⟩
  · intro v n h
    have hn := le_length_of_decode h
    refine ⟨hn,fun more => decode_append_of_ok ?_ more,fun k hk => ?_⟩
    · rcases decode_take_cases h hn with ⟨-,htaken⟩ | ⟨needed,place,-,-,hpos,hle⟩
      · exact htaken
      · omega
    · rcases decode_take_cases h (Nat.le_of_lt (Nat.lt_of_lt_of_le hk hn)) with ⟨hle,-⟩ | hcut
      · exact absurd hle (Nat.not_le.mpr hk)
      · exact hcut
  · intro e h
    cases e with
    | truncated needed place => exact decode_append_of_truncated h
    | unknownTag tag place =>
      obtain ⟨⟨front,back,hinput,hplace⟩,hunknown⟩ := lies_of_decode h
      refine ⟨?_,hunknown,decode_append_of_refused h (by simp)⟩
      change input = front ++ tag :: back at hinput
      change place = 0 + front.length at hplace
      rw [hinput,hplace,Nat.zero_add]
      simp
    | _ => exact decode_append_of_refused h (by simp)

end Value

end RemotePyMite
