import LedgerClient.Text.Utf8

/-! The bytes of a text are read as its characters. -/

namespace LedgerClient.Text

theorem firstChar?_utf8EncodeChar (c : Char) (rest : Bytes) :
    firstChar? (String.utf8EncodeChar c ++ rest) = some c := by
  have size : (String.utf8EncodeChar c).length ≤ 4 := by
    rw [String.length_utf8EncodeChar]
    exact c.utf8Size_le_four
  rw [firstChar?, List.take_append, List.take_of_length_le size, List.toByteArray_append]
  exact ByteArray.utf8DecodeChar?_utf8EncodeChar_append

theorem charsUpTo_utf8EncodeChar (c : Char) (rest : Bytes) (count : Nat) :
    charsUpTo (count + 1) (String.utf8EncodeChar c ++ rest) = some c :: charsUpTo count rest := by
  have first := firstChar?_utf8EncodeChar c rest
  have behind : (String.utf8EncodeChar c ++ rest).drop c.utf8Size = rest := by
    rw [← String.length_utf8EncodeChar c, List.drop_left]
  obtain ⟨byte, others, same⟩ : ∃ byte others, String.utf8EncodeChar c = byte :: others := by
    apply List.exists_cons_of_length_pos
    rw [String.length_utf8EncodeChar]
    exact c.utf8Size_pos
  rw [same, List.cons_append] at first behind ⊢
  rw [charsUpTo, first]
  simp only [behind]

theorem charsUpTo_flatMap (text : List Char) {count : Nat}
    (enough : (text.flatMap String.utf8EncodeChar).length ≤ count) :
    charsUpTo count (text.flatMap String.utf8EncodeChar) = text.map some := by
  induction text generalizing count with
  | nil => cases count <;> rfl
  | cons c rest ih =>
    rw [List.flatMap_cons, List.length_append, String.length_utf8EncodeChar] at enough
    have size := c.utf8Size_pos
    obtain ⟨less, rfl⟩ : ∃ less, count = less + 1 := ⟨count - 1, by omega⟩
    rw [List.flatMap_cons, charsUpTo_utf8EncodeChar, ih (by omega), List.map_cons]

theorem chars_ofText (text : String) : chars (Bytes.ofText text) = text.toList.map some :=
  charsUpTo_flatMap text.toList (Nat.le_refl _)

end LedgerClient.Text
