import Mathlib.Data.List.TakeWhile
import RemotePyMite.Message.Basic
import RemotePyMite.Proofs.Text.Utf8
import RemotePyMite.Proofs.Value.Encoding

/-! # Lists of threads and of names are read as they were written

A thread list has words of one width, so cutting it at that width finds them again, and of each word
as much as an address can hold (`words_exact`).  Names hold no comma and no zero byte, so the commas
between them are the only ones, and only a single empty name looks like no name (`ofNames_exact`).
-/
namespace RemotePyMite

namespace Word

theorem ofBigEndian_reverse (bytes : Bytes) : ofBigEndian bytes.reverse = ofLittleEndian bytes := by
  rw [ofBigEndian,List.foldl_reverse]
  induction bytes with
  | nil => rfl
  | cons b rest ih =>
    rw [List.foldr_cons,ih,ofLittleEndian]
    exact Nat.add_comm _ _

theorem ofBigEndian_eq (bytes : Bytes) : ofBigEndian bytes = ofLittleEndian bytes.reverse := by
  rw [← ofBigEndian_reverse,List.reverse_reverse]

theorem take_littleEndian (k width n : Nat) :
    (littleEndian width n).take k = littleEndian (min width k) n := by
  induction width generalizing k n with
  | zero => rw [Nat.zero_min,littleEndian,List.take_nil]
  | succ width ih =>
    cases k with
    | zero => rfl
    | succ k => rw [littleEndian,List.take_succ_cons,ih,Nat.succ_min_succ,littleEndian]

/-- Of a word, the last bytes are the low ones. -/
theorem ofBigEndian_drop_bigEndian (k width n : Nat) :
    ofBigEndian ((bigEndian width n).drop (width - k)) = n % Nat.pow 256 (min width k) := by
  have hkeep : min width (width - (width - k)) = min width k := by omega
  rw [bigEndian,List.drop_reverse,ofBigEndian_reverse,length_littleEndian,take_littleEndian,hkeep,
    ofLittleEndian_littleEndian]

theorem bigEndian_ofBigEndian (bytes : Bytes) :
    bigEndian bytes.length (ofBigEndian bytes) = bytes := by
  have h := littleEndian_ofLittleEndian bytes.reverse
  rw [List.length_reverse] at h
  rw [bigEndian,ofBigEndian_eq,h,List.reverse_reverse]

theorem ofBigEndian_lt (bytes : Bytes) : ofBigEndian bytes < Nat.pow 256 bytes.length := by
  rw [ofBigEndian_eq,← List.length_reverse]
  exact ofLittleEndian_lt _

end Word

namespace Bytes
variable {size : Nat}

theorem pieces_append (hsize : 0 < size) {front : Bytes} (hf : front.length = size) (rest : Bytes) :
    pieces size (front ++ rest) = front :: pieces size rest := by
  cases front with
  | nil => exact absurd hf (Nat.ne_of_lt hsize)
  | cons b front =>
    have hl : front.length = size - 1 := by
      rw [List.length_cons] at hf
      omega
    rw [List.cons_append,pieces,← hl,List.take_left,List.drop_left]

theorem pieces_flatMap {α : Type} (hsize : 0 < size) {word : α → Bytes}
    (hw : ∀ x, (word x).length = size) (xs : List α) :
    pieces size (xs.flatMap word) = xs.map word := by
  induction xs with
  | nil => simp [pieces]
  | cons x rest ih => rw [List.flatMap_cons,pieces_append hsize (hw x),ih,List.map_cons]

/-- Bytes of so many whole pieces are cut into whole pieces. -/
theorem length_of_mem_pieces (hsize : 0 < size) {bytes piece : Bytes} (hd : size ∣ bytes.length)
    (hp : piece ∈ pieces size bytes) : piece.length = size := by
  obtain ⟨count,hcount⟩ := hd
  induction count generalizing bytes with
  | zero =>
    rw [List.length_eq_zero_iff.mp hcount,pieces] at hp
    cases hp
  | succ count ih =>
    have hfront : (bytes.take size).length = size := by
      rw [List.length_take,hcount,Nat.mul_succ]
      omega
    rw [← List.take_append_drop size bytes,pieces_append hsize hfront] at hp
    rcases List.mem_cons.mp hp with rfl | hp
    · exact hfront
    · refine ih hp ?_
      rw [List.length_drop,hcount,Nat.mul_succ,Nat.add_sub_cancel]

end Bytes

namespace ThreadList
variable {width : Nat}

/-- A word holds an address, or as much of it as there is room for. -/
theorem addresses_ofAddresses_eq_map (hl : 0 < width) (addresses : List UInt64) :
    (ofAddresses addresses width).addresses width =
      .ok (addresses.map fun a => UInt64.ofNat (a.toNat % Nat.pow 256 (min width 8))) := by
  have hlen : (ofAddresses addresses width).data.length % width = 0 := by
    simp only [ofAddresses,List.length_flatMap,Word.length_bigEndian,List.map_const',
      List.sum_replicate_nat,Nat.mul_mod_left]
  have hpieces : (ofAddresses addresses width).data.pieces width =
      addresses.map fun a => Word.bigEndian width a.toNat :=
    Bytes.pieces_flatMap hl (fun _ => Word.length_bigEndian _ _) addresses
  rw [ThreadList.addresses,if_neg (by omega),if_neg (by omega),hpieces,List.map_map]
  refine congrArg _ (List.map_congr_left fun a _ => ?_)
  rw [Function.comp_apply,Word.ofBigEndian_drop_bigEndian]

theorem addresses_ofAddresses (hl : 1 ≤ width) (hu : width ≤ 8) {addresses : List UInt64}
    (ha : ∀ a ∈ addresses, a.toNat < Nat.pow 2 (8 * width)) :
    (ofAddresses addresses width).addresses width = .ok addresses := by
  have hpow : Nat.pow 256 width = Nat.pow 2 (8 * width) := (Nat.pow_mul 2 8 width).symm
  rw [addresses_ofAddresses_eq_map hl,Nat.min_eq_left hu,hpow]
  refine congrArg _ ((List.map_congr_left fun a hmem => ?_).trans (List.map_id addresses))
  rw [Nat.mod_eq_of_lt (ha a hmem),UInt64.ofNat_toNat,id]

/-- Data of whole words that an address can hold is the answer with the addresses in it. -/
theorem exists_addresses (hl : 0 < width) (hu : width ≤ 8) {list : ThreadList}
    (hd : width ∣ list.data.length) :
    ∃ addresses, list.addresses width = .ok addresses ∧ ofAddresses addresses width = list := by
  have hcut : list.addresses width =
      .ok ((list.data.pieces width).map fun word => UInt64.ofNat (Word.ofBigEndian word)) := by
    rw [ThreadList.addresses,if_neg (by omega),if_neg (by simp [Nat.mod_eq_zero_of_dvd hd]),
      Nat.sub_eq_zero_of_le hu]
    rfl
  refine ⟨_,hcut,?_⟩
  have hword : ∀ word ∈ list.data.pieces width, ((fun a : UInt64 => Word.bigEndian width a.toNat) ∘
      fun word => UInt64.ofNat (Word.ofBigEndian word)) word = word := by
    intro word hmem
    have hlen := Bytes.length_of_mem_pieces hl hd hmem
    have hlt : Word.ofBigEndian word < Nat.pow 256 8 :=
      Nat.lt_of_lt_of_le (Word.ofBigEndian_lt word) (Nat.pow_le_pow_right (by decide) (hlen ▸ hu))
    rw [Function.comp_apply,UInt64.toNat_ofNat_of_lt' hlt,← hlen,Word.bigEndian_ofBigEndian]
  rw [ofAddresses,List.flatMap_def,List.map_map,(List.map_congr_left hword).trans (List.map_id _),
    Bytes.flatten_pieces]

theorem exists_malformed_iff {list : ThreadList} :
    (∃ reason, list.addresses width = .error (.malformed .threadList reason)) ↔
      width = 0 ∨ ¬width ∣ list.data.length := by
  rw [ThreadList.addresses,Nat.dvd_iff_mod_eq_zero]
  split
  · next h => exact iff_of_true ⟨_,rfl⟩ (.inl h)
  · next h =>
    split
    · next hd => exact iff_of_true ⟨_,rfl⟩ (.inr hd)
    · next hd => exact iff_of_false (by rintro ⟨_,⟨⟩⟩) (not_or.mpr ⟨h,hd⟩)

end ThreadList

theorem ThreadPrint.address_ofParts (address : UInt64) (width : Nat) (text : Bytes) :
    (ofParts address width text).address width =
      UInt64.ofNat (address.toNat % Nat.pow 2 (8 * min width 8)) := by
  have hpow : Nat.pow 256 (min width 8) = Nat.pow 2 (8 * min width 8) :=
    (Nat.pow_mul 2 8 (min width 8)).symm
  have hfront : (ofParts address width text).data.take (min width 8) =
      Word.littleEndian (min width 8) address.toNat := by
    have hle : min width 8 ≤ (Word.littleEndian width address.toNat).length := by
      rw [Word.length_littleEndian]
      exact Nat.min_le_left _ _
    rw [ofParts,List.take_append_of_le_length hle,Word.take_littleEndian,
      Nat.min_eq_right (Nat.min_le_left _ _)]
  rw [ThreadPrint.address,hfront,Word.ofLittleEndian_littleEndian,hpow]

theorem ThreadPrint.text_ofParts (address : UInt64) (width : Nat) (text : Bytes) :
    (ofParts address width text).text width = text :=
  List.drop_left' (Word.length_littleEndian width address.toNat)

/-- A word of eight bytes or more has room for every address. -/
theorem mod_pow_min (a : UInt64) (width : Nat) :
    a.toNat % Nat.pow 256 (min width 8) = a.toNat % Nat.pow 2 (8 * width) := by
  have hpow : ∀ k, Nat.pow 256 k = Nat.pow 2 (8 * k) := fun k => (Nat.pow_mul 2 8 k).symm
  rcases Nat.le_total width 8 with h | h
  · rw [Nat.min_eq_left h,hpow]
  · have hlt : a.toNat < Nat.pow 2 (8 * width) :=
      Nat.lt_of_lt_of_le a.toNat_lt (Nat.pow_le_pow_right (by decide) (by omega))
    rw [Nat.min_eq_right h,Nat.mod_eq_of_lt hlt]
    exact Nat.mod_eq_of_lt a.toNat_lt

/-- Addresses sent as words are read again modulo the size of a word, and unchanged if a word has eight
bytes or more.  Words that an address can hold are sent as they were read; a list is malformed exactly if
its words have no bytes or it does not consist of whole words.  Printed text and the address in front of
it are read again too, whatever the width. -/
theorem words_exact (width : Nat) :
    (0 < width → ∀ addresses : List UInt64,
      (ThreadList.ofAddresses addresses width).addresses width =
        .ok (addresses.map fun a => UInt64.ofNat (a.toNat % Nat.pow 2 (8 * width))) ∧
      (8 ≤ width → (ThreadList.ofAddresses addresses width).addresses width = .ok addresses)) ∧
    (0 < width → width ≤ 8 → ∀ list : ThreadList, width ∣ list.data.length →
      ∃ addresses, list.addresses width = .ok addresses ∧
        ThreadList.ofAddresses addresses width = list) ∧
    (∀ list : ThreadList,
      (∃ reason, list.addresses width = .error (.malformed .threadList reason)) ↔
        width = 0 ∨ ¬width ∣ list.data.length) ∧
    ∀ (address : UInt64) (text : Bytes),
      (ThreadPrint.ofParts address width text).address width =
        UInt64.ofNat (address.toNat % Nat.pow 2 (8 * min width 8)) ∧
      (ThreadPrint.ofParts address width text).text width = text := by
  refine ⟨fun hl addresses => ⟨?_,fun h => ?_⟩,fun hl hu list => ThreadList.exists_addresses hl hu,
    fun list => ThreadList.exists_malformed_iff,fun address text => ⟨?_,?_⟩⟩
  · simp only [ThreadList.addresses_ofAddresses_eq_map hl,mod_pow_min]
  · rw [ThreadList.addresses_ofAddresses_eq_map hl,Nat.min_eq_right h]
    refine congrArg _ ((List.map_congr_left fun a _ => ?_).trans (List.map_id addresses))
    rw [Nat.mod_eq_of_lt (by exact a.toNat_lt),UInt64.ofNat_toNat,id]
  · exact ThreadPrint.address_ofParts address width text
  · exact ThreadPrint.text_ofParts address width text

namespace AutorunList
variable {names : List String}

/-- Joined names are the bytes of their joined characters. -/
theorem intercalate_encode (names : List String) :
    List.intercalate [0x2C] (names.map Utf8.encode) =
      (List.intercalate [','] (names.map String.toList)).flatMap String.utf8EncodeChar := by
  induction names with
  | nil => rfl
  | cons name rest ih =>
    cases rest with
    | nil => simp [List.intercalate,Utf8.encode]
    | cons next more =>
      simp only [List.map_cons,List.intercalate_cons_cons,List.flatMap_append,Utf8.encode] at ih ⊢
      rw [ih]
      rfl

theorem zero_not_mem_intercalate (hzero : ∀ name ∈ names, '\x00' ∉ name.toList) :
    0 ∉ List.intercalate [0x2C] (names.map Utf8.encode) := by
  intro h
  rw [intercalate_encode,← String.toList_ofList (l := List.intercalate _ _)] at h
  have hc := Utf8.mem_encode_of_lt (by decide) h
  rw [String.toList_ofList] at hc
  rcases Separated.mem_intercalate hc with hc | ⟨piece,hp,hc⟩
  · exact absurd hc (by decide)
  · obtain ⟨name,hn,rfl⟩ := List.mem_map.mp hp
    exact hzero name hn hc

/-- The names in a list are those it was made of, unless there is one only and it is empty. -/
theorem names_ofNames_of_ne (hne : names ≠ [""]) (hcomma : ∀ name ∈ names, ',' ∉ name.toList)
    (hzero : ∀ name ∈ names, '\x00' ∉ name.toList) : (ofNames names).names = names := by
  cases names with
  | nil => cbv
  | cons name rest =>
    have hdata : (ofNames (name :: rest)).data =
        List.intercalate [0x2C] ((name :: rest).map Utf8.encode) := rfl
    have hall : ∀ b ∈ (ofNames (name :: rest)).data, decide (b ≠ 0) = true := by
      intro b hb
      rw [decide_eq_true_iff]
      rintro rfl
      exact zero_not_mem_intercalate hzero hb
    have htext : Utf8.decodeChars ((ofNames (name :: rest)).data.takeWhile (· ≠ 0)) =
        List.intercalate [','] ((name :: rest).map String.toList) := by
      rw [List.takeWhile_eq_self_iff.mpr hall,hdata,intercalate_encode,Utf8.decodeChars_flatMap]
    have hparts : Separated.parts ',' (List.intercalate [','] ((name :: rest).map String.toList)) =
        (name :: rest).map String.toList := by
      rw [Separated.parts_eq_splitOn]
      exact List.splitOn_intercalate ',' (by simpa using hcomma) (by simp)
    have hsome : List.intercalate [','] ((name :: rest).map String.toList) ≠ [] := by
      intro h
      rw [h,List.map_cons] at hparts
      obtain ⟨hname,hrest⟩ := List.cons.inj hparts
      rw [String.toList_eq_nil_iff.mp hname.symm,List.map_eq_nil_iff.mp hrest.symm] at hne
      exact hne rfl
    rw [AutorunList.names,htext]
    split
    · next h => exact absurd h hsome
    · rw [hparts,List.map_map]
      refine (List.map_congr_left fun name _ => ?_).trans (List.map_id _)
      exact String.ofList_toList

theorem names_ofNames (hne : ∀ name ∈ names, name ≠ "")
    (hcomma : ∀ name ∈ names, ',' ∉ name.toList) (hzero : ∀ name ∈ names, '\x00' ∉ name.toList) :
    (ofNames names).names = names := by
  refine names_ofNames_of_ne ?_ hcomma hzero
  rintro rfl
  exact hne "" (List.mem_singleton_self _) rfl

theorem names_of_isRequest {list : AutorunList} (h : list.isRequest = true) : list.names = [] := by
  rw [AutorunList.names,List.isEmpty_iff.mp h]
  cbv

/-- Names without commas and zero bytes are told apart from a request and are read again as they were,
exactly if they are not a single empty name.  On its way the list stays the same. -/
theorem ofNames_exact (hcomma : ∀ name ∈ names, ',' ∉ name.toList)
    (hzero : ∀ name ∈ names, '\x00' ∉ name.toList) :
    ((ofNames names).isRequest = false ↔ names ≠ [""]) ∧
    ((ofNames names).names = names ↔ names ≠ [""]) ∧
    ∃ id data, (Message.autorunList (ofNames names)).wireId = .ok id ∧
      (Message.autorunList (ofNames names)).toBytes = .ok data ∧
      Message.ofWire id data = .ok (.autorunList (ofNames names)) := by
  have hread : names ≠ [""] → (ofNames names).names = names :=
    fun hne => names_ofNames_of_ne hne hcomma hzero
  refine ⟨⟨?_,fun hne => ?_⟩,⟨?_,hread⟩,_,_,rfl,rfl,rfl⟩
  · rintro h rfl
    cases h
  · -- A request has no names, and the list without names is not written like one.
    by_contra h
    have hr := Bool.not_eq_false _ ▸ h
    have hnil : names = [] := (hread hne).symm.trans (names_of_isRequest hr)
    rw [hnil] at hr
    cases hr
  · rintro h rfl
    rw [names_of_isRequest rfl] at h
    cases h

/-- One of the names is empty. -/
theorem ofNames_exact_gap :
    let names := ["main","","boot"]
    (∀ name ∈ names, ',' ∉ name.toList) ∧ (∀ name ∈ names, '\x00' ∉ name.toList) ∧
      (ofNames names).isRequest = false ∧ (ofNames names).names = names := by
  intro names
  have hcomma : ∀ name ∈ names, ',' ∉ name.toList := by decide
  have hzero : ∀ name ∈ names, '\x00' ∉ name.toList := by decide
  have hne : names ≠ [""] := by decide
  obtain ⟨hrequest,hnames,-⟩ := ofNames_exact hcomma hzero
  exact ⟨hcomma,hzero,hrequest.mpr hne,hnames.mpr hne⟩

/-- The only name is empty: its list is a request, and has no names. -/
theorem ofNames_empty_name :
    let names := [""]
    (∀ name ∈ names, ',' ∉ name.toList) ∧ (∀ name ∈ names, '\x00' ∉ name.toList) ∧
      ofNames names = request ∧ (ofNames names).isRequest = true ∧ (ofNames names).names = [] := by
  refine ⟨by decide,by decide,rfl,rfl,?_⟩
  cbv

end AutorunList

end RemotePyMite
