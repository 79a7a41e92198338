import AnonyMus.Lib.Bytes

/-!
# Texts as bytes, and the byte order mark

A text and its UTF-8 form as lists. A decoder that takes a byte order mark for one drops it from
the beginning of a text.

* `toUTF8_append` — the form of two texts, one after the other;
* `read?_toUTF8`, `toUTF8_injective` — a form is read back, so it tells the text;
* `mark_prefix_iff` — a form begins with the bytes of the mark only if its text does with the mark;
* `textDecode_toUTF8_iff` — what a browser's `TextDecoder` reads as it was written;
* `ascii_of_length_le`, `toUTF8_of_ascii` — texts of as many bytes as characters.
-/

namespace Utf8

/-- The bytes of an array, and the array of the bytes. -/
theorem toList_eq (bytes : ByteArray) : bytes.toList = bytes.data.toList := by
  unfold ByteArray.toList
  rw [toList_loop_eq]
  rfl

theorem toUTF8_append (s t : String) :
    (s ++ t).toUTF8.toList = s.toUTF8.toList ++ t.toUTF8.toList := by
  rw [toList_eq, toList_eq, toList_eq]
  show (s ++ t).toByteArray.data.toList = _
  rw [String.toByteArray_append, ByteArray.toList_data_append]
  rfl

/-- Only a form of some text is read, as that text. -/
def read? (data : List UInt8) : Option String := String.fromUTF8? ⟨data.toArray⟩

theorem read?_toUTF8 (s : String) : read? s.toUTF8.toList = some s := by
  have hvalid : s.toUTF8.IsValidUTF8 := s.isValidUTF8
  unfold read?
  rw [mk_toList, String.fromUTF8?, dif_pos hvalid]
  rfl

theorem toUTF8_injective {s t : String} (h : s.toUTF8.toList = t.toUTF8.toList) : s = t := by
  have hread := read?_toUTF8 s
  rw [h, read?_toUTF8] at hread
  exact (Option.some.inj hread).symm

/-! ## The byte order mark -/

def mark : Char := Char.ofNat 0xFEFF

def markBytes : List UInt8 := [0xEF, 0xBB, 0xBF]

theorem toUTF8_mark : (String.singleton mark).toUTF8.toList = markBytes := by
  decide +kernel

/-- The first character of a form is told by its first bytes, whatever comes after them. -/
theorem first_eq_of_append {c d : Char} {s : String} {rest : List UInt8}
    (heq : (String.singleton c ++ s).toUTF8.toList =
      (String.singleton d).toUTF8.toList ++ rest) : c = d := by
  have hform : ∀ (e : Char) (t : ByteArray),
      ByteArray.utf8DecodeChar? ((String.singleton e).toByteArray ++ t) 0 = some e := by
    intro e t
    have hsingle : (String.singleton e).toByteArray = [e].utf8Encode := by
      rw [String.singleton_eq_ofList, String.toByteArray_ofList]
    rw [hsingle, List.utf8DecodeChar?_utf8Encode_singleton_append]
  -- the same bytes, from which the one is read and the other
  have hbytes : (String.singleton c).toByteArray ++ s.toByteArray =
      (String.singleton d).toByteArray ++ ⟨rest.toArray⟩ := by
    rw [toUTF8_append, toList_eq, toList_eq, toList_eq] at heq
    apply ByteArray.ext
    rw [ByteArray.data_append, ByteArray.data_append]
    apply Array.toList_inj.mp
    rw [Array.toList_append, Array.toList_append]
    exact heq
  have hdecoded := hform c s.toByteArray
  rw [hbytes, hform] at hdecoded
  exact (Option.some.inj hdecoded).symm

theorem eq_singleton_append {text : String} {c : Char} {chars : List Char}
    (hlist : text.toList = c :: chars) : text = String.singleton c ++ String.ofList chars := by
  rw [← String.toList_inj, hlist]
  simp

/-- A form begins with the bytes of the mark only if the text begins with the mark. -/
theorem mark_prefix_iff {text : String} :
    markBytes <+: text.toUTF8.toList ↔ text.toList.head? = some mark := by
  constructor
  · rintro ⟨rest, hrest⟩
    cases hlist : text.toList with
    | nil =>
      -- no bytes at all
      rw [String.toList_eq_nil_iff.mp hlist] at hrest
      exact absurd hrest.symm (by simp [markBytes, toList_eq])
    | cons c chars =>
      rw [eq_singleton_append hlist, ← toUTF8_mark] at hrest
      rw [first_eq_of_append hrest.symm]
      rfl
  · intro hhead
    obtain ⟨chars, hlist⟩ := List.head?_eq_some_iff.mp hhead
    rw [eq_singleton_append hlist, toUTF8_append, toUTF8_mark]
    exact List.prefix_append _ _

/-! ## `TextDecoder` -/

/-- The bytes after a mark, if there is one. -/
def body (data : List UInt8) : List UInt8 :=
  if markBytes.isPrefixOf data then data.drop 3 else data

theorem length_body_le (data : List UInt8) : (body data).length ≤ data.length := by
  unfold body
  split_ifs
  · rw [List.length_drop]
    omega
  · exact Nat.le_refl _

/-- `new TextDecoder().decode(data)`: a mark at the beginning is dropped, and what is not the form of
a text is read with replacements. -/
def textDecode (malformed : List UInt8 → String) (data : List UInt8) : String :=
  (read? (body data)).getD (malformed (body data))

variable {malformed : List UInt8 → String} {text : String}

theorem body_of_unmarked (hhead : text.toList.head? ≠ some mark) :
    body text.toUTF8.toList = text.toUTF8.toList := by
  refine if_neg ?_
  rw [List.isPrefixOf_iff_prefix, mark_prefix_iff]
  exact hhead

theorem textDecode_of_unmarked (hhead : text.toList.head? ≠ some mark) :
    textDecode malformed text.toUTF8.toList = text := by
  unfold textDecode
  rw [body_of_unmarked hhead, read?_toUTF8]
  rfl

/-- The mark is not part of what is read. -/
theorem textDecode_marked (rest : String) :
    textDecode malformed (String.singleton mark ++ rest).toUTF8.toList = rest := by
  have hform : (String.singleton mark ++ rest).toUTF8.toList = markBytes ++ rest.toUTF8.toList := by
    rw [toUTF8_append, toUTF8_mark]
  have hbody : body (markBytes ++ rest.toUTF8.toList) = rest.toUTF8.toList :=
    if_pos (List.isPrefixOf_iff_prefix.mpr (List.prefix_append _ _))
  unfold textDecode
  rw [hform, hbody, read?_toUTF8]
  rfl

/-- A text is read as it was written exactly if it does not begin with the mark. -/
theorem textDecode_toUTF8_iff :
    textDecode malformed text.toUTF8.toList = text ↔ text.toList.head? ≠ some mark := by
  refine ⟨fun hread hhead => ?_, textDecode_of_unmarked⟩
  obtain ⟨chars, hlist⟩ := List.head?_eq_some_iff.mp hhead
  rw [eq_singleton_append hlist, textDecode_marked] at hread
  -- what was read is one character short
  have hlength := congrArg String.length hread
  rw [String.length_append, String.length_singleton] at hlength
  omega

/-! ## Characters of one byte -/

theorem toUTF8_eq_flatMap (text : String) :
    text.toUTF8.toList = text.toList.flatMap String.utf8EncodeChar := by
  have hform : text.toByteArray = (text.toList.flatMap String.utf8EncodeChar).toByteArray := by
    rw [← String.toByteArray_ofList.trans (List.utf8Encode.eq_1 _), String.ofList_toList]
  rw [toList_eq]
  show text.toByteArray.data.toList = _
  rw [hform, List.toList_data_toByteArray]

theorem length_le_flatMap (chars : List Char) :
    chars.length ≤ (chars.flatMap String.utf8EncodeChar).length := by
  induction chars with
  | nil => exact Nat.le_refl 0
  | cons c chars ih =>
    have hpos := c.utf8Size_pos
    rw [List.flatMap_cons, List.length_append, String.length_utf8EncodeChar, List.length_cons]
    omega

theorem utf8Size_eq_one_iff {c : Char} : c.utf8Size = 1 ↔ c.toNat < 128 := by
  rw [Char.utf8Size_eq_one_iff, UInt32.le_iff_toNat_le]
  exact Nat.lt_succ_iff.symm

theorem ascii_of_length_flatMap {chars : List Char}
    (hlength : (chars.flatMap String.utf8EncodeChar).length ≤ chars.length) :
    ∀ c ∈ chars, c.toNat < 128 := by
  induction chars with
  | nil => simp
  | cons c chars ih =>
    have hpos := c.utf8Size_pos
    have hrest := length_le_flatMap chars
    rw [List.flatMap_cons, List.length_append, String.length_utf8EncodeChar,
      List.length_cons] at hlength
    -- no room for a second byte of the first character
    exact List.forall_mem_cons.mpr ⟨utf8Size_eq_one_iff.mp (by omega), ih (by omega)⟩

/-- A form as long as its text has only characters of one byte. -/
theorem ascii_of_length_le (hlength : text.toUTF8.toList.length ≤ text.toList.length) :
    ∀ c ∈ text.toList, c.toNat < 128 := by
  rw [toUTF8_eq_flatMap] at hlength
  exact ascii_of_length_flatMap hlength

theorem toUTF8_of_ascii (hascii : ∀ c ∈ text.toList, c.toNat < 128) :
    text.toUTF8.toList = text.toList.map fun c => UInt8.ofNat c.toNat := by
  rw [toUTF8_eq_flatMap]
  generalize text.toList = chars at hascii ⊢
  induction chars with
  | nil => rfl
  | cons c chars ih =>
    obtain ⟨hc, hchars⟩ := List.forall_mem_cons.mp hascii
    have hone : String.utf8EncodeChar c = [UInt8.ofNat c.toNat] :=
      if_pos (show c.val.toNat ≤ 127 from Nat.lt_succ_iff.mp hc)
    rw [List.flatMap_cons, hone, ih hchars]
    rfl

/-- Only the form of a text is read as it. -/
theorem toUTF8_of_read? {data : List UInt8} (hread : read? data = some text) :
    text.toUTF8.toList = data := by
  unfold read? String.fromUTF8? at hread
  split_ifs at hread with hvalid
  obtain rfl := Option.some.inj hread
  rw [toList_eq]
  rfl

end Utf8
