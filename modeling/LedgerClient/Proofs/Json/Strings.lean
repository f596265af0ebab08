import LedgerClient.Json.Printer
import LedgerClient.Json.Reader
import Mathlib.Data.Option.Basic

/-! Strings of JSON text read back. Every character is written as itself or as an escape that stands for
it alone. -/

namespace LedgerClient.Json

theorem hexValue?_hexDigit : ∀ value < 16, hexValue? (hexDigit value) = some value := by
  decide

theorem unicodeEscape?_control {c : Char} (h : c.toNat < 32) :
    unicodeEscape? '0' '0' (hexDigit (c.toNat / 16)) (hexDigit (c.toNat % 16)) =
      some (.char c) := by
  have high := hexValue?_hexDigit (c.toNat / 16) (by omega)
  have low := hexValue?_hexDigit (c.toNat % 16) (by omega)
  have zero : hexValue? '0' = some 0 := by decide
  have value : ((0 * 16 + 0) * 16 + c.toNat / 16) * 16 + c.toNat % 16 = c.toNat := by omega
  have plain : ¬(0xD800 ≤ c.toNat ∧ c.toNat < 0xE000) := by omega
  rw [unicodeEscape?, high, low, zero]
  simp only [Option.bind_eq_bind, Option.bind_some, value, if_neg plain, Char.ofNat_toNat]

def consPiece (c : Char) : List Piece × Symbols → List Piece × Symbols
  | (pieces, rest) => (.char c :: pieces, rest)

-- Slow to derive, so the equations are derived once, before the proofs that rewrite with them.
attribute [local simp] readPieces

theorem readPieces_simple {letter c : Char} (h : simpleEscape? letter = some c) (rest : Symbols) :
    readPieces (some '\\' :: some letter :: rest) = (readPieces rest).map (consPiece c) := by
  have notUnicode : letter ≠ 'u' := by
    rintro rfl
    cases h
  rw [readPieces]
  · rw [h]
    cases readPieces rest <;> rfl
  · intros
    contradiction

theorem readPieces_unicode {a b c d : Char} {value : Char}
    (h : unicodeEscape? a b c d = some (.char value)) (rest : Symbols) :
    readPieces (some '\\' :: some 'u' :: some a :: some b :: some c :: some d :: rest) =
      (readPieces rest).map (consPiece value) := by
  rw [readPieces, h]
  cases readPieces rest <;> rfl

theorem readPieces_plain {c : Char} (quote : c ≠ '"') (slash : c ≠ '\\') (low : ' ' ≤ c)
    (rest : Symbols) : readPieces (some c :: rest) = (readPieces rest).map (consPiece c) := by
  rw [readPieces]
  · simp only [guard, if_pos low]
    cases readPieces rest <;> rfl
  · exact quote
  · intros
    contradiction
  · intros
    contradiction
  · exact slash

theorem readPieces_escape (c : Char) (rest : Symbols) :
    readPieces ((escape c).map some ++ rest) = (readPieces rest).map (consPiece c) := by
  rw [escape]
  split
  · next same =>
    subst same
    exact readPieces_simple rfl rest
  split
  · next same =>
    subst same
    exact readPieces_simple rfl rest
  split
  · next same =>
    subst same
    exact readPieces_simple rfl rest
  split
  · next same =>
    subst same
    exact readPieces_simple rfl rest
  split
  · next same =>
    subst same
    exact readPieces_simple rfl rest
  split
  · next same =>
    subst same
    exact readPieces_simple rfl rest
  split
  · next same =>
    subst same
    exact readPieces_simple rfl rest
  split
  · next control =>
    have small : c.toNat < 32 := control
    exact readPieces_unicode (unicodeEscape?_control small) rest
  · next quote slash _ _ _ _ _ visible =>
    exact readPieces_plain quote slash (Char.not_lt.mp visible) rest

theorem readPieces_escapes (text : List Char) (rest : Symbols) :
    readPieces ((text.flatMap escape).map some ++ some '"' :: rest) =
      some (text.map Piece.char, rest) := by
  induction text with
  | nil => rw [List.flatMap_nil, List.map_nil, List.nil_append, readPieces, List.map_nil]
  | cons c text ih =>
    rw [List.flatMap_cons, List.map_append, List.append_assoc, readPieces_escape, ih]
    rfl

theorem joinPieces_chars (text : List Char) : joinPieces (text.map Piece.char) = some text := by
  induction text with
  | nil => rfl
  | cons c text ih =>
    rw [List.map_cons, joinPieces, ih]
    rfl

theorem readString_quote (value : String) (rest : Symbols) :
    ∃ tail, (quote value).map some = some '"' :: tail ∧
      readString (tail ++ rest) = some (some value, rest) := by
  refine ⟨(value.toList.flatMap escape).map some ++ [some '"'], ?_, ?_⟩
  · rw [quote, List.map_append, List.map_cons]
    rfl
  · rw [List.append_assoc, readString]
    show (do
      let (pieces, rest) ← readPieces ((value.toList.flatMap escape).map some ++ some '"' :: rest)
      some (String.ofList <$> joinPieces pieces, rest)) = _
    rw [readPieces_escapes]
    simp only [Option.bind_eq_bind, Option.bind_some, joinPieces_chars, Option.map_eq_map,
      Option.map_some, String.ofList_toList]

end LedgerClient.Json
