import LedgerClient.Der
import LedgerClient.Proofs.Bytes
import Mathlib.Data.Option.Basic
import Mathlib.Tactic.SplitIfs

/-! Elements of the distinguished encoding as they are written: the tag, the length in its shortest
form, the contents. Reading an element accepts what is written of it and nothing else, whatever
follows, so no two byte strings are read as the same element. -/

namespace LedgerClient.Der

def lengthBytes (length : Nat) : Bytes :=
  if length < 0x80 then [.ofNat length]
  else .ofNat (0x80 + lengthDigits length) :: Bytes.bigEndian (lengthDigits length) length

def Element.bytes (element : Element) : Bytes :=
  element.tag :: (lengthBytes element.contents.length ++ element.contents)

/-- A reader knows the tag and goes that far. -/
structure Element.Readable (element : Element) : Prop where
  known : Tag.isKnown element.tag = true
  length_le : element.contents.length ≤ maxLength

theorem lengthDigits_bounds (length : Nat) :
    1 ≤ lengthDigits length ∧ lengthDigits length ≤ 4 := by
  unfold lengthDigits
  split_ifs <;> decide

theorem lt_pow_lengthDigits {length : Nat} (h : length ≤ maxLength) :
    length < 256 ^ lengthDigits length := by
  unfold maxLength at h
  unfold lengthDigits
  split_ifs <;> omega

theorem readLength_lengthBytes {length : Nat} (h : length ≤ maxLength) (rest : Bytes) :
    readLength (lengthBytes length ++ rest) = some (length, rest) := by
  unfold lengthBytes
  split_ifs with short
  · have value : (UInt8.ofNat length).toNat = length := by
      rw [UInt8.toNat_ofNat']
      omega
    have small : UInt8.ofNat length < 0x80 := by
      rw [UInt8.lt_iff_toNat_lt, value]
      exact short
    rw [List.singleton_append, readLength, if_pos small, value]
  · have bounds := lengthDigits_bounds length
    have value : (UInt8.ofNat (0x80 + lengthDigits length)).toNat = 0x80 + lengthDigits length := by
      rw [UInt8.toNat_ofNat']
      omega
    have large : ¬ UInt8.ofNat (0x80 + lengthDigits length) < 0x80 := by
      rw [UInt8.lt_iff_toNat_lt, value]
      exact Nat.not_lt.mpr (Nat.le_add_right _ _)
    have count : (UInt8.ofNat (0x80 + lengthDigits length)).toNat - 0x80 = lengthDigits length := by
      rw [value, Nat.add_sub_cancel_left]
    have digits := Bytes.length_bigEndian (lengthDigits length) length
    have number := Bytes.toNatBigEndian_bigEndian (lt_pow_lengthDigits h)
    have fits : lengthDigits length ≤
        (Bytes.bigEndian (lengthDigits length) length ++ rest).length := by
      rw [List.length_append, digits]
      exact Nat.le_add_right _ _
    rw [List.cons_append, readLength, if_neg large]
    simp only [count, List.take_left' digits, List.drop_left' digits, number]
    exact if_pos ⟨bounds.1, bounds.2, fits, Nat.not_lt.mp short, h, trivial⟩

theorem eq_append_of_readLength {bytes rest : Bytes} {length : Nat}
    (read : readLength bytes = some (length, rest)) :
    length ≤ maxLength ∧ bytes = lengthBytes length ++ rest := by
  cases bytes with
  | nil => cases read
  | cons first tail =>
    rw [readLength] at read
    split_ifs at read with short
    · obtain ⟨rfl, rfl⟩ := Prod.mk.inj (Option.some.inj read)
      have small : first.toNat < 0x80 := UInt8.lt_iff_toNat_lt.mp short
      refine ⟨Nat.le_trans (Nat.le_of_lt small) (by decide), ?_⟩
      rw [lengthBytes, if_pos small, UInt8.ofNat_toNat]
      rfl
    · dsimp only at read
      split_ifs at read with form
      obtain ⟨rfl, rfl⟩ := Prod.mk.inj (Option.some.inj read)
      obtain ⟨some, -, fits, long, bounded, shortest⟩ := form
      have taken : (tail.take (first.toNat - 0x80)).length = first.toNat - 0x80 :=
        List.length_take_of_le fits
      have digits := Bytes.bigEndian_toNatBigEndian (tail.take (first.toNat - 0x80))
      have lead : UInt8.ofNat (0x80 + (first.toNat - 0x80)) = first := by
        rw [← UInt8.toNat_inj, UInt8.toNat_ofNat']
        have := first.toNat_lt
        omega
      rw [taken] at digits
      refine ⟨bounded, ?_⟩
      rw [lengthBytes, if_neg (Nat.not_lt.mpr long), shortest, lead, digits, List.cons_append,
        List.take_append_drop]

theorem readElement_eq_some_iff {bytes rest : Bytes} {element : Element} :
    readElement bytes = some (element, rest) ↔ element.Readable ∧ bytes = element.bytes ++ rest := by
  constructor
  · intro read
    cases bytes with
    | nil => cases read
    | cons tag tail =>
      rw [readElement] at read
      split_ifs at read with known
      split at read
      · next length behind found =>
        split_ifs at read with fits
        obtain ⟨rfl, rfl⟩ := Prod.mk.inj (Option.some.inj read)
        obtain ⟨bounded, rfl⟩ := eq_append_of_readLength found
        have taken : (behind.take length).length = length := List.length_take_of_le fits
        refine ⟨⟨known, taken.symm ▸ bounded⟩, ?_⟩
        rw [Element.bytes, taken, List.cons_append, List.append_assoc, List.take_append_drop]
      · cases read
  · rintro ⟨⟨known, bounded⟩, rfl⟩
    have fits : element.contents.length ≤ (element.contents ++ rest).length := by
      rw [List.length_append]
      exact Nat.le_add_right _ _
    rw [Element.bytes, List.cons_append, List.append_assoc, readElement, if_pos known,
      readLength_lengthBytes bounded]
    simp only [if_pos fits, List.take_left, List.drop_left]

theorem readTagged_eq_some_iff {tag : UInt8} {bytes contents rest : Bytes} :
    readTagged tag bytes = some (contents, rest) ↔
      Element.Readable ⟨tag, contents⟩ ∧ bytes = Element.bytes ⟨tag, contents⟩ ++ rest := by
  rw [← readElement_eq_some_iff, readTagged]
  constructor
  · intro read
    obtain ⟨⟨⟨found, inside⟩, behind⟩, first, read⟩ := Option.bind_eq_some_iff.mp read
    obtain ⟨_, same, read⟩ := Option.bind_eq_some_iff.mp read
    cases read
    cases (Option.guard_eq_some' _).mp same
    exact first
  · intro first
    rw [first]
    simp [guard]

theorem readWhole_eq_some_iff {bytes : Bytes} {element : Element} :
    readWhole bytes = some element ↔ element.Readable ∧ bytes = element.bytes := by
  rw [← List.append_nil element.bytes, ← readElement_eq_some_iff, readWhole]
  constructor
  · intro read
    obtain ⟨⟨found, behind⟩, first, read⟩ := Option.bind_eq_some_iff.mp read
    obtain ⟨_, whole, read⟩ := Option.bind_eq_some_iff.mp read
    cases read
    have nothing : behind = [] := List.isEmpty_iff.mp ((Option.guard_eq_some' _).mp whole)
    rw [first, nothing]
  · intro first
    rw [first]
    rfl

theorem readWholeTagged_eq_some_iff {tag : UInt8} {bytes contents : Bytes} :
    readWholeTagged tag bytes = some contents ↔
      Element.Readable ⟨tag, contents⟩ ∧ bytes = Element.bytes ⟨tag, contents⟩ := by
  rw [← readWhole_eq_some_iff, readWholeTagged]
  constructor
  · intro read
    obtain ⟨⟨found, inside⟩, whole, read⟩ := Option.bind_eq_some_iff.mp read
    obtain ⟨_, same, read⟩ := Option.bind_eq_some_iff.mp read
    cases read
    cases (Option.guard_eq_some' _).mp same
    exact whole
  · intro whole
    rw [whole]
    simp [guard]

/-! ## Algorithms -/

def Algorithm.bytes (algorithm : Algorithm) : Bytes :=
  Element.bytes ⟨Tag.objectIdentifier, algorithm.identifier⟩ ++
    algorithm.parameters.elim [] Element.bytes

structure Algorithm.Readable (algorithm : Algorithm) : Prop where
  identifier : Element.Readable ⟨Tag.objectIdentifier, algorithm.identifier⟩
  parameters : ∀ parameters ∈ algorithm.parameters, Element.Readable parameters

theorem Element.bytes_ne_nil (element : Element) : element.bytes ≠ [] := by
  rw [bytes]
  exact List.cons_ne_nil _ _

theorem readAlgorithm_eq_some_iff {contents : Bytes} {algorithm : Algorithm} :
    readAlgorithm contents = some algorithm ↔ algorithm.Readable ∧ contents = algorithm.bytes := by
  rw [readAlgorithm]
  constructor
  · intro read
    obtain ⟨⟨identifier, rest⟩, first, behind⟩ := Option.bind_eq_some_iff.mp read
    obtain ⟨known, rfl⟩ := readTagged_eq_some_iff.mp first
    dsimp only at behind
    split_ifs at behind with alone
    · cases behind
      rw [List.isEmpty_iff.mp alone]
      exact ⟨⟨known, nofun⟩, rfl⟩
    · obtain ⟨parameters, whole, same⟩ := Option.bind_eq_some_iff.mp behind
      cases same
      obtain ⟨readable, rfl⟩ := readWhole_eq_some_iff.mp whole
      refine ⟨⟨known, ?_⟩, rfl⟩
      rintro _ ⟨⟩
      exact readable
  · rintro ⟨⟨known, readable⟩, rfl⟩
    obtain ⟨identifier, parameters⟩ := algorithm
    have first := readTagged_eq_some_iff.mpr
      ⟨known, (rfl : Algorithm.bytes ⟨identifier, parameters⟩ = _)⟩
    rw [first]
    cases parameters with
    | none => rfl
    | some parameters =>
      have whole := readWhole_eq_some_iff.mpr ⟨readable _ rfl, rfl⟩
      simp [parameters.bytes_ne_nil, whole]

/-! ## Short elements -/

theorem Element.bytes_of_length_lt {tag : UInt8} {contents : Bytes}
    (short : contents.length < 0x80) :
    Element.bytes ⟨tag, contents⟩ = tag :: .ofNat contents.length :: contents := by
  rw [bytes, lengthBytes, if_pos short]
  rfl

theorem eq_of_readWholeTagged {tag first length : UInt8} {rest contents : Bytes}
    (short : length < 0x80) (read : readWholeTagged tag (first :: length :: rest) = some contents) :
    contents = rest ∧ rest.length = length.toNat := by
  obtain ⟨readable, same⟩ := readWholeTagged_eq_some_iff.mp read
  obtain ⟨-, behind⟩ := List.cons.inj same
  have again := readLength_lengthBytes readable.length_le contents
  rw [← behind, readLength, if_pos short] at again
  obtain ⟨count, rfl⟩ := Prod.mk.inj (Option.some.inj again)
  exact ⟨rfl, count.symm⟩

end LedgerClient.Der
