import LedgerClient.Proofs.Json.Text

/-! JSON that has a text: everything but what could not be read. Such a text is read to its end wherever
it stands, though not always as the same value: numbers may change their form or become null, and what
is nested too deep becomes unreadable. -/

namespace LedgerClient.Json

inductive Encodable : Json → Prop
  | null : Encodable .null
  | bool (value : Bool) : Encodable (.bool value)
  | number (value : Number) : Encodable (.number value)
  | string (value : String) : Encodable (.string value)
  | array {items : List Json} (ending : Ending) (all : ∀ item ∈ items, Encodable item) :
    Encodable (.array items ending)
  | object {members : List (String × Json)} (ending : Ending)
    (all : ∀ member ∈ members, Encodable member.2) : Encodable (.object members ending)

theorem Written.encodable {json : Json} (h : Written json) : Encodable json := by
  induction h with
  | null => exact .null
  | bool value => exact .bool value
  | string value => exact .string value
  | integer low high => exact .number _
  | items all ih => exact .array _ ih
  | members names all ih => exact .object _ ih

theorem Encodable.opens {json : Json} (h : Encodable json) : json.Opens := by
  cases h with
  | null => exact opens_of_null (by rw [print])
  | bool value => exact Opens.bool value
  | number value =>
    rcases value.text_eq_null_or_reads with null | ⟨number, reads⟩
    · exact opens_of_null (by rw [print, null])
    · exact opens_of_readsNumber (by rw [print]; exact reads)
  | string value => exact Opens.string value
  | array ending all => exact Opens.array _ ending
  | object ending all => exact Opens.object _ ending

/-- What is read from the text of a value inside `depth` arrays and objects. -/
def readBack (depth : Nat) (json : Json) : Json :=
  (readValue (2 * (print json).length) depth ((print json).map some)).1

theorem ReadsAs.readBack_eq {json value : Json} {depth : Nat} (h : json.ReadsAs depth value) :
    json.readBack depth = value := by
  have all := h _ [] (Nat.le_refl _) Ends.nil
  rw [List.append_nil] at all
  rw [readBack, all]

theorem ReadsAs.readBack {json value : Json} {depth : Nat} (h : json.ReadsAs depth value) :
    json.ReadsAs depth (json.readBack depth) := by
  rw [h.readBack_eq]
  exact h

theorem Encodable.reads {json : Json} (h : Encodable json) (depth : Nat) :
    json.ReadsAs depth (json.readBack depth) := by
  induction h generalizing depth with
  | null => exact (readsAs_null (by rw [print]) depth).readBack
  | bool value => exact (readsAs_bool value depth).readBack
  | number value =>
    rcases value.text_eq_null_or_reads with null | ⟨number, reads⟩
    · exact (readsAs_null (by rw [print, null]) depth).readBack
    · exact (readsAs_number (by rw [print]; exact reads) depth).readBack
  | string value => exact (readsAs_string value depth).readBack
  | array ending all ih =>
    exact (readsAs_array ending (fun item hi => (all item hi).opens)
      fun item hi => ih item hi (depth + 1)).readBack
  | object ending all ih =>
    exact (@readsAs_object _ ending depth (Json.readBack (depth + 1))
      fun member hm => ih member hm (depth + 1)).readBack

theorem Written.readBack_eq {json : Json} (h : Written json) {depth : Nat}
    (deep : json.depth + depth ≤ maxDepth) : json.readBack depth = json := by
  rw [(h.reads depth).readBack_eq, upTo_of_depth_le (by omega)]

def readMember (member : String × Json) : String × Json :=
  (member.1, member.2.readBack 1)

theorem read_print_ofMembers {members : List (String × Json)}
    (encodable : ∀ member ∈ members, member.2.Encodable) :
    read ((print (ofMembers members)).map some) =
      (.object (members.map readMember) .closed, true) :=
  ReadsAs.read_print (@readsAs_object members .closed 0 (readBack 1)
    fun member hm => (encodable member hm).reads 1)

theorem Written.readMember_eq {members : List (String × Json)} (h : Written (ofMembers members))
    (deep : (ofMembers members).depth ≤ maxDepth) {member : String × Json} (hm : member ∈ members) :
    readMember member = member := by
  cases h with
  | members names all =>
    have shallow := depth_le_of_mem_members hm
    rw [depth_ofMembers] at deep
    exact Prod.ext rfl ((all member hm).readBack_eq (by omega))

end LedgerClient.Json
