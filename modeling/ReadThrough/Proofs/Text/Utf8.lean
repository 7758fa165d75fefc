import ReadThrough.Ring.Basic

/-!
# Bytes of texts

A text is determined by its bytes, and the bytes of a text of ASCII characters are their codes.
-/

namespace ReadThrough

theorem toList_loop (bytes : ByteArray) (index : Nat) (read : List UInt8) :
    ByteArray.toList.loop bytes index read = read.reverse ++ bytes.data.toList.drop index := by
  fun_induction ByteArray.toList.loop bytes index read with
  | case1 index read hlt ih =>
      rw [ih, List.drop_eq_getElem_cons (i := index) (by simpa using hlt)]
      simp [ByteArray.get!, hlt]
  | case2 index read hge =>
      rw [List.drop_eq_nil_of_le (by simpa using Nat.le_of_not_lt hge), List.append_nil]

/-- The bytes of an array, one after the other. -/
theorem toList_eq_data (bytes : ByteArray) : bytes.toList = bytes.data.toList := by
  rw [ByteArray.toList, toList_loop, List.reverse_nil, List.nil_append, List.drop_zero]

/-- Different texts have different bytes. -/
theorem utf8_inj {first second : String} : utf8 first = utf8 second ↔ first = second := by
  simp only [utf8, toList_eq_data, Array.toList_inj]
  exact ⟨fun h ↦ String.toByteArray_inj.1 (ByteArray.ext h), fun h ↦ h ▸ rfl⟩

/-- The text that is read from the bytes of a text is that text. -/
theorem fromUTF8?_utf8 (text : String) : String.fromUTF8? ⟨(utf8 text).toArray⟩ = some text := by
  rw [utf8, toList_eq_data, Array.toArray_toList]
  exact dif_pos text.isValidUTF8

/-- An ASCII code is the only byte of its character. -/
theorem utf8EncodeChar_ofNat {b : UInt8} (h : b < 0x80) :
    String.utf8EncodeChar (Char.ofNat b.toNat) = [b] := by
  have hlt : b.toNat < 128 := UInt8.lt_iff_toNat_lt.1 h
  have hvalid : b.toNat.isValidChar := .inl (by omega)
  have hval : (Char.ofNat b.toNat).val.toNat = b.toNat := by
    rw [Char.ofNat, dif_pos hvalid]
    rfl
  rw [String.utf8EncodeChar, hval, if_pos (Nat.le_of_lt_succ hlt), UInt8.ofNat_toNat]

/-- The bytes of a text of ASCII characters are their codes. -/
theorem utf8_ofList_map {codes : List UInt8} (h : ∀ b ∈ codes, b < 0x80) :
    utf8 (.ofList (codes.map fun b ↦ Char.ofNat b.toNat)) = codes := by
  rw [utf8, toList_eq_data, String.toUTF8_eq_toByteArray, String.toByteArray_ofList,
    List.utf8Encode, List.toList_data_toByteArray]
  induction codes with
  | nil => rfl
  | cons b rest ih =>
      rw [List.map_cons, List.flatMap_cons, utf8EncodeChar_ofNat (h b List.mem_cons_self),
        ih fun other hmem ↦ h other (List.mem_cons_of_mem _ hmem)]
      rfl

/-- The bytes of a text of ASCII characters are their codes, read from its characters. -/
theorem utf8_ofList {cs : List Char} (h : ∀ c ∈ cs, c.toNat < 0x80) :
    utf8 (.ofList cs) = cs.map fun c ↦ .ofNat c.toNat := by
  have hcodes : (cs.map fun c ↦ UInt8.ofNat c.toNat).map (fun b ↦ Char.ofNat b.toNat) = cs := by
    rw [List.map_map]
    refine (List.map_congr_left fun c hmem ↦ ?_).trans (List.map_id cs)
    have hlt := h c hmem
    simp [UInt8.toNat_ofNat', Nat.mod_eq_of_lt (show c.toNat < 256 by omega)]
  calc utf8 (.ofList cs)
      = utf8 (.ofList ((cs.map fun c ↦ UInt8.ofNat c.toNat).map fun b ↦ .ofNat b.toNat)) := by
        rw [hcodes]
    _ = cs.map fun c ↦ .ofNat c.toNat := by
        refine utf8_ofList_map fun b hmem ↦ ?_
        obtain ⟨c, hc, rfl⟩ := List.mem_map.1 hmem
        have hlt := h c hc
        rw [UInt8.lt_iff_toNat_lt, UInt8.toNat_ofNat', Nat.mod_eq_of_lt (by omega)]
        exact hlt

end ReadThrough
