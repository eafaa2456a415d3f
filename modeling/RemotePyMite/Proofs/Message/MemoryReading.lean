import RemotePyMite.Proofs.Message.MemoryText

/-! # What is read as a memory map is spelled by the grammar

A reader that succeeds has taken parts off the front of its text that the grammar has for what it makes
of them, and one that fails names a place in the text (`Told`).  So a text is read exactly if the grammar
spells it, each number stands for its last entry, and any map that can be written is read from any text
that writes it (`ofBytes_exact`).
-/
namespace RemotePyMite.MemoryMap
variable {α β : Type} {R : α → List Bytes → Prop} {S : β → List Bytes → Prop} {c d : Cursor}

/-- The error names a place in an input of so many bytes. -/
def RefusedIn (stop : Nat) (e : MessageError) : Prop :=
  ∃ (reason : String) (offset : Nat), offset ≤ stop ∧
    e = .malformed .memList s!"{reason} at offset {offset}"

/-- What comes of reading from a place on: an error inside the input, or something that is so related to
the parts which were taken off the front. -/
def Told (R : α → List Bytes → Prop) (c : Cursor) : Except MessageError (α × Cursor) → Prop
  | .error e => RefusedIn c.stop e
  | .ok (a,d) => d.stop = c.stop ∧ ∃ tokens, R a tokens ∧
      ∀ more, Spaced more d.rest → Spaced (tokens ++ more) c.rest

def Parses (scan : Scan α) (R : α → List Bytes → Prop) : Prop :=
  ∀ c, Told R c (scan c)

theorem refusedIn_errorAt (h : d.stop = c.stop) (reason : String) :
    RefusedIn c.stop (errorAt d reason) :=
  ⟨reason,d.offset,h ▸ Nat.le_add_right _ _,rfl⟩

theorem Told.mono {T : α → List Bytes → Prop} {y : Except MessageError (α × Cursor)}
    (h : Told R c y) (hR : ∀ a tokens, R a tokens → T a tokens) : Told T c y := by
  cases y with
  | error e => exact h
  | ok p =>
    obtain ⟨hstop,tokens,ha,htokens⟩ := h
    exact ⟨hstop,tokens,hR _ _ ha,htokens⟩

theorem Told.map {y : Except MessageError (α × Cursor)} {f : α → β} (h : Told R c y)
    (hf : ∀ a tokens, R a tokens → S (f a) tokens) :
    Told S c (y >>= fun p => pure (f p.1,p.2)) := by
  cases y with
  | error e => exact h
  | ok p =>
    obtain ⟨hstop,tokens,ha,htokens⟩ := h
    exact ⟨hstop,tokens,hf _ _ ha,htokens⟩

/-- What is read behind something else is read behind its parts. -/
theorem Told.trans {a : α} {y : Except MessageError (β × Cursor)} (h : Told R c (.ok (a,d)))
    (hy : ∀ tokens, R a tokens → Told (fun b more => S b (tokens ++ more)) d y) : Told S c y := by
  obtain ⟨hstop,tokens,ha,htokens⟩ := h
  have hd := hy tokens ha
  cases y with
  | error e =>
    change RefusedIn c.stop e
    exact hstop ▸ hd
  | ok q =>
    obtain ⟨hstop',more,hb,hmore⟩ := hd
    refine ⟨hstop'.trans hstop,tokens ++ more,hb,fun rest hr => ?_⟩
    rw [List.append_assoc]
    exact htokens _ (hmore rest hr)

theorem Parses.bind {scan : Scan α} {next : α → Scan β} (h : Parses scan R)
    (hn : ∀ a tokens, R a tokens → Parses (next a) fun b more => S b (tokens ++ more)) :
    Parses (scan >>= next) S := by
  intro c
  have hc := h c
  change Told S c (scan c >>= fun p => next p.1 p.2)
  cases hs : scan c with
  | error e =>
    rw [hs] at hc
    exact hc
  | ok p =>
    rw [hs] at hc
    exact hc.trans fun tokens ha => hn p.1 tokens ha p.2

theorem parses_pure {a : α} (h : R a []) : Parses (pure a) R :=
  fun _ => ⟨rfl,[],h,fun _ hr => hr⟩

theorem Spaced.blanks {tokens : List Bytes} {text blanks : Bytes} (h : Spaced tokens text)
    (hb : ∀ b ∈ blanks, isBlank b = true) : Spaced tokens (blanks ++ text) := by
  cases h with
  | nil hb' => exact .nil (List.forall_mem_append.mpr ⟨hb,hb'⟩)
  | cons hb' hr =>
    rw [← List.append_assoc,← List.append_assoc]
    exact .cons (List.forall_mem_append.mpr ⟨hb,hb'⟩) hr

theorem rest_eq_blanks_append (c : Cursor) :
    c.rest = c.rest.takeWhile isBlank ++ (skipBlanks c).rest := by
  have hblanks := List.prefix_iff_eq_take.mp (List.takeWhile_prefix (l := c.rest) isBlank)
  have hsplit := List.take_append_drop (c.rest.takeWhile isBlank).length c.rest
  rw [← hblanks] at hsplit
  exact hsplit.symm

theorem stop_skipBlanks (c : Cursor) : (skipBlanks c).stop = c.stop :=
  Cursor.stop_advance (List.takeWhile_sublist isBlank).length_le

theorem spaced_of_skipBlanks {tokens : List Bytes} (h : Spaced tokens (skipBlanks c).rest) :
    Spaced tokens c.rest := by
  rw [rest_eq_blanks_append c]
  exact h.blanks fun _ => List.mem_takeWhile_imp

/-- Blanks in front make no difference. -/
theorem Told.skipBlanks {y : Except MessageError (β × Cursor)} (h : Told S (skipBlanks c) y) :
    Told S c y := by
  have hskip : Told (fun (_ : Unit) tokens => tokens = []) c (.ok ((),MemoryMap.skipBlanks c)) :=
    ⟨stop_skipBlanks c,[],rfl,fun _ => spaced_of_skipBlanks⟩
  refine hskip.trans ?_
  rintro _ rfl
  exact h

/-- One part is taken off the front. -/
theorem told_token {a : α} {token rest : Bytes} (h : c.rest = token ++ rest) (ha : R a [token]) :
    Told R c (.ok (a,c.advance token.length)) := by
  have hlen : token.length ≤ c.rest.length := by
    rw [h,List.length_append]
    exact Nat.le_add_right _ _
  refine ⟨Cursor.stop_advance hlen,[token],ha,fun more hr => ?_⟩
  rw [Cursor.advance,h,List.drop_left] at hr
  rw [h]
  exact .cons forall_mem_nil_isBlank hr

theorem told_accept (b : UInt8) (c : Cursor) :
    Told (fun yes tokens => tokens = if yes then [[b]] else []) c
      (.ok ((accept b c).1,(accept b c).2)) := by
  refine Told.skipBlanks ?_
  unfold accept
  by_cases h : (skipBlanks c).rest.head? = some b
  · obtain ⟨rest,hrest⟩ := List.head?_eq_some_iff.mp h
    dsimp only
    rw [if_pos h]
    exact told_token (show (skipBlanks c).rest = [b] ++ rest from hrest) rfl
  · dsimp only
    rw [if_neg h]
    exact ⟨rfl,[],rfl,fun _ hr => hr⟩

theorem parses_expect (b : UInt8) : Parses (expect b) fun _ tokens => tokens = [[b]] := by
  intro c
  have h := told_accept b c
  unfold expect
  split
  · next d hd =>
    rw [hd] at h
    exact h
  · next d hd =>
    rw [hd] at h
    exact refusedIn_errorAt h.1 _

theorem parses_number :
    Parses number fun n tokens => ∃ token, Digits n.toNat token ∧ tokens = [token] := by
  intro c
  rw [number_eq]
  refine Told.skipBlanks ?_
  have hsplit := (List.takeWhile_append_dropWhile (p := isDigit) (l := (skipBlanks c).rest)).symm
  dsimp only
  split
  · next h =>
    have hval := UInt32.toNat_ofNat_of_lt' (Nat.lt_succ_of_le h.2)
    exact told_token hsplit ⟨_,⟨h.1,fun _ => List.mem_takeWhile_imp,hval.symm⟩,rfl⟩
  · exact refusedIn_errorAt (Cursor.stop_advance (List.takeWhile_sublist isDigit).length_le) _

theorem parses_spaceNumber :
    Parses spaceNumber fun index tokens => ∃ token, Digits index.toNat token ∧ tokens = [token] := by
  refine parses_number.bind ?_
  rintro n _ ⟨token,htoken,rfl⟩
  by_cases h : n.toNat ≤ 255
  · rw [if_pos h]
    have hval : (UInt8.ofNat n.toNat).toNat = n.toNat :=
      UInt8.toNat_ofNat_of_lt' (Nat.lt_succ_of_le h)
    exact parses_pure ⟨token,hval.symm ▸ htoken,rfl⟩
  · rw [if_neg h]
    exact fun c => refusedIn_errorAt rfl _

theorem parses_yesNo :
    Parses yesNo fun writeable tokens => ∃ flag, Flag writeable flag ∧ tokens = [flag] := by
  intro c
  refine Told.skipBlanks ?_
  unfold yesNo
  dsimp only
  split
  · next h =>
    obtain ⟨rest,hrest⟩ := List.isPrefixOf_iff_prefix.mp h
    exact told_token hrest.symm ⟨_,.yes,rfl⟩
  · split
    · next h =>
      obtain ⟨rest,hrest⟩ := List.isPrefixOf_iff_prefix.mp h
      exact told_token hrest.symm ⟨_,.no,rfl⟩
    · refine (parses_number (skipBlanks c)).map (f := fun n => decide (n ≠ 0)) ?_
      rintro n _ ⟨token,htoken,rfl⟩
      exact ⟨token,.number htoken,rfl⟩

/-- If there is anything behind the bytes in front of a quote, it is the quote. -/
theorem exists_closing {quote : UInt8} {rest : Bytes}
    (h : ¬(rest.drop (rest.takeWhile (· ≠ quote)).length).isEmpty = true) :
    quote ∉ rest.takeWhile (· ≠ quote) ∧
      ∃ tail, rest = rest.takeWhile (· ≠ quote) ++ quote :: tail := by
  constructor
  · intro hmem
    simpa using List.mem_takeWhile_imp hmem
  · have hsplit := List.takeWhile_append_dropWhile (p := (· ≠ quote)) (l := rest)
    have hhead := List.head?_dropWhile_not (· ≠ quote) rest
    cases hdrop : rest.dropWhile (· ≠ quote) with
    | nil =>
      refine absurd ?_ h
      rw [hdrop,List.append_nil] at hsplit
      rw [hsplit,List.drop_length,List.isEmpty_nil]
    | cons b tail =>
      rw [hdrop] at hhead hsplit
      have hb : b = quote := by simpa using hhead
      exact ⟨tail,(hb ▸ hsplit).symm⟩

theorem parses_quoted :
    Parses quoted fun name tokens => ∃ token, Quoted name token ∧ tokens = [token] := by
  intro c
  refine Told.skipBlanks ?_
  unfold quoted
  dsimp only
  split
  · exact refusedIn_errorAt rfl _
  · next quote rest hrest =>
    split
    · next hq =>
      split
      · exact refusedIn_errorAt rfl _
      · next hopen =>
        obtain ⟨hn,tail,htail⟩ := exists_closing hopen
        generalize rest.takeWhile (· ≠ quote) = name at hn htail ⊢
        have htext : (skipBlanks c).rest = (quote :: name ++ [quote]) ++ tail := by
          rw [hrest,htail]
          simp
        have hlen : (quote :: name ++ [quote]).length = name.length + 2 := by simp
        rw [← hlen]
        exact told_token htext ⟨_,.mk hq hn,rfl⟩
    · exact refusedIn_errorAt rfl _

theorem parses_entry : Parses entry Entry := by
  refine parses_spaceNumber.bind ?_
  rintro index _ ⟨number,hi,rfl⟩
  refine (parses_expect 0x3A).bind ?_
  rintro _ _ rfl
  refine (parses_expect 0x28).bind ?_
  rintro _ _ rfl
  refine parses_quoted.bind ?_
  rintro name _ ⟨label,hn,rfl⟩
  refine (parses_expect 0x2C).bind ?_
  rintro _ _ rfl
  refine parses_number.bind ?_
  rintro size _ ⟨length,hs,rfl⟩
  refine (parses_expect 0x2C).bind ?_
  rintro _ _ rfl
  refine parses_yesNo.bind ?_
  rintro writeable _ ⟨flag,hf,rfl⟩
  refine (parses_expect 0x29).bind ?_
  rintro _ _ rfl
  exact parses_pure (.mk hi hn hs hf)

theorem parses_entries (map : MemoryMap) :
    Parses (entries map) fun _ tokens => ∃ spaces, Row spaces tokens := by
  intro c
  fun_induction entries map c with
  | case1 map c hyes =>
    refine (told_accept 0x7D c).trans ?_
    rintro _ rfl
    rw [if_pos hyes]
    exact ⟨rfl,[],⟨[],.close⟩,fun _ hr => hr⟩
  | case2 map c hno e he =>
    have hentry := parses_entry (accept 0x7D c).2
    rw [he] at hentry
    refine (told_accept 0x7D c).trans ?_
    rintro _ -
    exact hentry
  | case3 map c hno index space d hd hcomma ih =>
    have hentry := parses_entry (accept 0x7D c).2
    rw [hd] at hentry
    refine (told_accept 0x7D c).trans ?_
    rintro _ rfl
    refine hentry.trans fun tokens htokens => ?_
    refine (told_accept 0x2C d).trans ?_
    rintro _ rfl
    rw [if_neg hno,if_pos hcomma]
    exact ih.mono fun _ more ⟨spaces,hrow⟩ => ⟨(index,space) :: spaces,.comma htokens hrow⟩
  | case4 map c hno index space d hd hcomma =>
    have hentry := parses_entry (accept 0x7D c).2
    rw [hd] at hentry
    refine (told_accept 0x7D c).trans ?_
    rintro _ rfl
    refine hentry.trans fun tokens htokens => ?_
    refine (told_accept 0x2C d).trans ?_
    rintro _ rfl
    rw [if_neg hno,if_neg hcomma]
    refine (parses_expect 0x7D (accept 0x2C d).2).map (f := fun _ => map.insert index space) ?_
    rintro _ _ rfl
    exact ⟨[(index,space)],.last htokens⟩

/-- Either the grammar spells the text, or the error names a place in it. -/
theorem ofBytes_cases (text : Bytes) :
    (∃ map spaces, ofBytes text = .ok map ∧ Spells spaces text) ∨
      ∃ e, ofBytes text = .error e ∧ RefusedIn text.length e := by
  have hstop : (Cursor.start text).stop = text.length := Nat.zero_add _
  have hopen := parses_expect 0x7B (.start text)
  unfold ofBytes
  cases hp : expect 0x7B (.start text) with
  | error e =>
    rw [hp] at hopen
    exact .inr ⟨e,rfl,hstop ▸ hopen⟩
  | ok p =>
    rw [hp] at hopen
    have hboth : Told (fun _ tokens => ∃ spaces row, Row spaces row ∧ tokens = [0x7B] :: row)
        (.start text) (entries empty p.2) := by
      refine hopen.trans ?_
      rintro _ rfl
      exact (parses_entries empty p.2).mono fun _ row ⟨spaces,hrow⟩ => ⟨spaces,row,hrow,rfl⟩
    change (∃ map spaces, (entries empty p.2 >>= _) = _ ∧ _) ∨ ∃ e, (entries empty p.2 >>= _) = _ ∧ _
    cases hq : entries empty p.2 with
    | error e =>
      rw [hq] at hboth
      exact .inr ⟨e,rfl,hstop ▸ hboth⟩
    | ok q =>
      rw [hq] at hboth
      obtain ⟨hq,_,⟨spaces,row,hrow,rfl⟩,hspaced⟩ := hboth
      by_cases hend : (skipBlanks q.2).rest.isEmpty = true
      · refine .inl ⟨q.1,spaces,if_pos hend,row,hrow,?_⟩
        have hnil : Spaced [] (skipBlanks q.2).rest := by
          rw [List.isEmpty_iff.mp hend]
          exact .nil forall_mem_nil_isBlank
        have htext := hspaced [] (spaced_of_skipBlanks hnil)
        rwa [List.append_nil] at htext
      · refine .inr ⟨_,if_neg hend,?_⟩
        have h := (stop_skipBlanks q.2).trans hq
        rw [← hstop]
        exact refusedIn_errorAt h _

/-- A text is read exactly if the grammar spells it, and then each number stands for the last of its
entries.  Otherwise the error names a place in the text.  A map is read from every text that writes it,
and it has one if each of its names lacks one of the two quotes. -/
theorem ofBytes_exact (text : Bytes) :
    ((∃ map, ofBytes text = .ok map) ↔ ∃ spaces, Spells spaces text) ∧
    (∀ map spaces, ofBytes text = .ok map → Spells spaces text →
      ∀ index, map.get? index = spaces.reverse.lookup index) ∧
    (∀ e, ofBytes text = .error e → ∃ (reason : String) (offset : Nat), offset ≤ text.length ∧
      e = .malformed .memList s!"{reason} at offset {offset}") ∧
    (∀ map, Writes text map → ofBytes text = .ok map) ∧
    ∀ map : MemoryMap,
      (∀ s ∈ map.spaces, ∃ quote, (quote = 0x22 ∨ quote = 0x27) ∧ quote ∉ Utf8.encode s.2.name) →
      ∃ tokens, ∀ written, Spaced tokens written → Writes written map := by
  have hcases := ofBytes_cases text
  refine ⟨⟨?_,?_⟩,?_,?_,fun map => ofBytes_of_writes,?_⟩
  · rintro ⟨map,hm⟩
    rcases hcases with ⟨_,spaces,-,hs⟩ | ⟨e,he,-⟩
    · exact ⟨spaces,hs⟩
    · cases hm.symm.trans he
  · rintro ⟨spaces,hs⟩
    exact ⟨_,ofBytes_of_spells hs⟩
  · intro map spaces hm hs index
    cases hm.symm.trans (ofBytes_of_spells hs)
    rw [get?_insertAll]
    exact Option.or_none
  · intro e he
    rcases hcases with ⟨map,_,hm,-⟩ | ⟨e',he',hr⟩
    · cases hm.symm.trans he
    · cases he'.symm.trans he
      exact hr
  · intro map hnames
    obtain ⟨tokens,hrow⟩ := exists_rowParts hnames
    exact ⟨_,fun written hw => ⟨map.spaces,tokens,.refl _,hrow,hw⟩⟩

end RemotePyMite.MemoryMap
