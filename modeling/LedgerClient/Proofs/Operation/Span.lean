import LedgerClient.OperationData

/-!
The rules for spans of time in operations, and the ways in which a span is refused.
-/

namespace LedgerClient

theorem getD_of_forall {α : Type} {field : Option α} {own : α} (holds : α → Prop)
    (default : holds own) (set : ∀ value, field = some value → holds value) :
    holds (field.getD own) := by
  cases field with
  | none => exact default
  | some value => exact set value rfl

namespace Duration

/-- Whole seconds, 1 to 180 of them. -/
def IsValid (duration : Duration) : Prop :=
  duration.nanos = 0 ∧ 1 ≤ duration.seconds ∧ duration.seconds ≤ 180

theorem checkWhole_cases (duration : Duration) (subject : String) :
    duration.checkWhole subject = .ok () ∧ duration.nanos = 0 ∨
      duration.checkWhole subject =
          .error (.invalidArgument (.fractionalSeconds subject duration)) ∧
        duration.nanos ≠ 0 := by
  by_cases whole : duration.nanos = 0
  · exact .inl ⟨by simp [checkWhole, isWholeSeconds, whole], whole⟩
  · exact .inr ⟨by simp [checkWhole, isWholeSeconds, whole], whole⟩

theorem checkValid_cases (duration : Duration) :
    duration.checkValid = .ok () ∧ duration.IsValid ∨
      duration.checkValid =
          .error (.invalidArgument (.fractionalSeconds "transaction valid duration" duration)) ∧
        duration.nanos ≠ 0 ∨
      duration.checkValid = .error (.invalidArgument (.validDurationRange duration)) ∧
        duration.nanos = 0 ∧ ¬ (1 ≤ duration.seconds ∧ duration.seconds ≤ 180) := by
  unfold checkValid
  rcases duration.checkWhole_cases "transaction valid duration" with ⟨checked, whole⟩ |
    ⟨checked, nonzero⟩
  · rw [checked]
    by_cases inside : 1 ≤ duration.seconds ∧ duration.seconds ≤ 180
    · exact .inl ⟨if_pos inside, whole, inside⟩
    · exact .inr (.inr ⟨if_neg inside, whole, inside⟩)
  · rw [checked]
    exact .inr (.inl ⟨rfl, nonzero⟩)

end Duration

/-- A refusal of a span of time: it is no whole number of seconds, or out of range. -/
inductive LedgerError.RefusesSpan (span : Duration) : LedgerError → Prop
  | fraction (subject : String) : span.nanos ≠ 0 →
      RefusesSpan span (.invalidArgument (.fractionalSeconds subject span))
  | range : span.nanos = 0 → ¬ (1 ≤ span.seconds ∧ span.seconds ≤ 180) →
      RefusesSpan span (.invalidArgument (.validDurationRange span))

namespace Duration

theorem refusesSpan_of_checkValid {span : Duration} {cause : LedgerError}
    (refused : span.checkValid = .error cause) : cause.RefusesSpan span := by
  rcases span.checkValid_cases with ⟨checked, _⟩ | ⟨checked, nonzero⟩ | ⟨checked, whole, outside⟩
  · rw [checked] at refused
    cases refused
  · rw [checked] at refused
    cases refused
    exact .fraction _ nonzero
  · rw [checked] at refused
    cases refused
    exact .range whole outside

theorem refusesSpan_of_checkRenewal {span : Duration} {cause : LedgerError}
    (refused : span.checkRenewal = .error cause) : cause.RefusesSpan span := by
  rcases span.checkWhole_cases "auto renew period" with ⟨checked, _⟩ | ⟨checked, nonzero⟩
  · rw [checkRenewal, checked] at refused
    cases refused
  · rw [checkRenewal, checked] at refused
    cases refused
    exact .fraction _ nonzero

end Duration

end LedgerClient
