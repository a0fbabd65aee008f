import JdRelay.Base.Text

namespace Text

def Utf8 (b : Bytes) : Prop := (decodeUtf8 b).isSome = true

instance (b : Bytes) : Decidable (Utf8 b) := inferInstanceAs (Decidable ((decodeUtf8 b).isSome = true))

-- No character of a UTF-8 text goes on at i: the text ends there, or a character starts.
def Boundary (b : Bytes) (i : Nat) : Prop := ∀ x ∈ b[i]?, x.IsUTF8FirstByte

instance (b : Bytes) (i : Nat) : Decidable (Boundary b i) :=
  decidable_of_iff ((b[i]?.all fun x => decide x.IsUTF8FirstByte) = true) (by
    unfold Boundary
    cases b[i]? <;> simp)

theorem utf8_iff {b : Bytes} : Utf8 b ↔ b.toByteArray.IsValidUTF8 := by
  rw [Utf8, decodeUtf8, Option.isSome_map, ByteArray.isSome_utf8Decode?_iff]

theorem utf8_encode (cs : List Char) : Utf8 (cs.flatMap String.utf8EncodeChar) := by
  have hencode : encodeUtf8 (cs.map ofChar) = some (cs.flatMap String.utf8EncodeChar) := by
    rw [encodeUtf8, mapM_toChar?.mpr rfl, Option.map_some]
  rw [Utf8, decode_encode hencode]
  rfl

theorem utf8EncodeChar_cases (c : Char) :
    c.toNat < 128 ∧ String.utf8EncodeChar c = [UInt8.ofNat c.toNat] ∨
      128 ≤ c.toNat ∧ ∃ b x rest, String.utf8EncodeChar c = b :: x :: rest ∧ 128 ≤ b.toNat := by
  have hnat : c.toNat = c.val.toNat := rfl
  rw [hnat, String.utf8EncodeChar]
  split
  · exact .inl ⟨by omega, rfl⟩
  · refine .inr ⟨by omega, ?_⟩
    split
    · exact ⟨_, _, _, rfl, by rw [UInt8.toNat_ofNat']; omega⟩
    · split <;> exact ⟨_, _, _, rfl, by rw [UInt8.toNat_ofNat']; omega⟩

theorem extract_toByteArray (b : Bytes) (i j : Nat) :
    b.toByteArray.extract i j = ((b.drop i).take (j - i)).toByteArray := by
  apply ByteArray.ext
  rw [ByteArray.data_extract, List.data_toByteArray, List.data_toByteArray, List.extract_toArray]

section Slice

variable {b : Bytes} {i n : Nat}

def asString (h : Utf8 b) : String := ⟨b.toByteArray, utf8_iff.mp h⟩

theorem asString_size (h : Utf8 b) : (asString h).utf8ByteSize = b.length := List.size_toByteArray

theorem boundary_of_length_le (h : b.length ≤ i) : Boundary b i := by
  intro x hx
  rw [List.getElem?_eq_none h] at hx
  cases hx

theorem boundary_iff_isValid (h : Utf8 b) (hi : i ≤ b.length) :
    Boundary b i ↔ String.Pos.Raw.IsValid (asString h) ⟨i⟩ := by
  rw [String.Pos.Raw.isValid_iff_isUTF8FirstByte]
  rcases Nat.lt_or_eq_of_le hi with hlt | rfl
  · have hend : (⟨i⟩ : String.Pos.Raw) < (asString h).rawEndPos := by
      rw [String.Pos.Raw.lt_iff, String.byteIdx_rawEndPos, asString_size]
      exact hlt
    have hne : (⟨i⟩ : String.Pos.Raw) ≠ (asString h).rawEndPos := by
      rintro heq
      rw [heq, String.Pos.Raw.lt_iff] at hend
      exact absurd hend (Nat.lt_irrefl _)
    have hbyte : (asString h).getUTF8Byte ⟨i⟩ hend = b[i] := List.getElem_toByteArray
    simp only [Boundary, List.getElem?_eq_getElem hlt, Option.mem_some_iff, forall_eq', hne, false_or]
    constructor
    · exact fun hb => ⟨hend, hbyte ▸ hb⟩
    · rintro ⟨_, hb⟩
      exact hbyte ▸ hb
  · refine iff_of_true (boundary_of_length_le (le_refl _)) (.inl ?_)
    rw [String.Pos.Raw.ext_iff, String.byteIdx_rawEndPos, asString_size]

theorem utf8_slice_iff (h : Utf8 b) (hi : i < b.length) (hn : 0 < n) :
    Utf8 ((b.drop i).take n) ↔ Boundary b i ∧ Boundary b (i + n) := by
  have hstop : Boundary b (i + n) ↔ Boundary b (min b.length (i + n)) := by
    rcases Nat.le_total b.length (i + n) with hle | hle
    · rw [Nat.min_eq_left hle]
      exact iff_of_true (boundary_of_length_le hle) (boundary_of_length_le (le_refl _))
    · rw [Nat.min_eq_right hle]
  have hslice : (b.drop i).take n = (b.drop i).take (min b.length (i + n) - i) := by
    rw [List.take_eq_take_iff, List.length_drop]
    omega
  have hle : (⟨i⟩ : String.Pos.Raw) ≤ ⟨min b.length (i + n)⟩ := by
    rw [String.Pos.Raw.le_iff]
    exact Nat.le_min.mpr ⟨hi.le, Nat.le_add_right i n⟩
  have hend : (⟨min b.length (i + n)⟩ : String.Pos.Raw) ≤ (asString h).rawEndPos := by
    rw [String.Pos.Raw.le_iff, String.byteIdx_rawEndPos, asString_size]
    exact Nat.min_le_left _ _
  have hne : (⟨i⟩ : String.Pos.Raw) ≠ ⟨min b.length (i + n)⟩ := by
    rw [ne_eq, String.Pos.Raw.ext_iff]
    change i ≠ min b.length (i + n)
    omega
  have hvalid := String.Pos.Raw.isValidUTF8_extract_iff (s := asString h) _ _ hle hend
  rw [hslice, utf8_iff, ← extract_toByteArray, hstop, boundary_iff_isValid h hi.le,
    boundary_iff_isValid h (Nat.min_le_left _ _)]
  exact hvalid.trans (or_iff_right hne)

end Slice

end Text
