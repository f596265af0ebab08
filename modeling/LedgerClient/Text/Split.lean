/-!
Cutting a text at a separator. Every function works on the list of its characters; joining the
parts with the separator gives the text back.
-/

namespace LedgerClient.Text

def splitFirst (separator : Char) : List Char → Option (List Char × List Char)
  | [] => none
  | c :: rest =>
    if c = separator then some ([], rest)
    else (splitFirst separator rest).map fun (before, after) => (c :: before, after)

def splitLast (isSeparator : Char → Bool) : List Char → Option (List Char × List Char)
  | [] => none
  | c :: rest =>
    match splitLast isSeparator rest with
    | some (before, after) => some (c :: before, after)
    | none => if isSeparator c then some ([], rest) else none

def splitAll (separator : Char) : List Char → List (List Char)
  | [] => [[]]
  | c :: rest =>
    if c = separator then [] :: splitAll separator rest
    else match splitAll separator rest with
      | [] => [[c]]
      | part :: parts => (c :: part) :: parts

/-- Removes `lead` from the front once, if it stands there. -/
def dropLead (lead text : List Char) : List Char :=
  (lead.isPrefixOf? text).getD text

def dropTail? (tail text : List Char) : Option (List Char) :=
  tail.isSuffixOf? text

theorem eq_append_of_splitFirst {separator : Char} {text before after : List Char}
    (h : splitFirst separator text = some (before, after)) :
    text = before ++ separator :: after ∧ separator ∉ before := by
  induction text generalizing before with
  | nil => simp [splitFirst] at h
  | cons c rest ih =>
    by_cases hc : c = separator
    · simp only [splitFirst, hc, if_true, Option.some.injEq, Prod.mk.injEq] at h
      simp [hc, ← h.1, ← h.2]
    · simp only [splitFirst, if_neg hc, Option.map_eq_some_iff, Prod.mk.injEq, Prod.exists] at h
      obtain ⟨head, tail, found, rfl, rfl⟩ := h
      have := ih found
      grind

theorem splitFirst_eq_none_iff {separator : Char} {text : List Char} :
    splitFirst separator text = none ↔ separator ∉ text := by
  induction text with
  | nil => simp [splitFirst]
  | cons c rest ih =>
    rw [splitFirst]
    split
    · simp_all
    · rw [Option.map_eq_none_iff, ih, List.mem_cons]
      grind

end LedgerClient.Text
