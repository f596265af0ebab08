import LedgerClient.Proofs.Json.Object

/-! Where values stand in JSON. A path names the members on the way from an object to a value inside
it. Cutting JSON at a nesting limit changes nothing on the paths that end above the limit. -/

namespace LedgerClient.Json

/-- The values at a path of member names: none if it does not lead anywhere, several if names repeat
on the way. -/
def valuesAt : List String → Json → List Json
  | [], json => [json]
  | name :: path, .object members _ =>
    members.flatMap fun member => if member.1 = name then member.2.valuesAt path else []
  | _ :: _, _ => []

inductive Contains : Json → Json → Prop
  | self (json : Json) : Contains json json
  | item {items : List Json} {ending : Ending} {item part : Json} (there : item ∈ items)
    (inside : Contains item part) : Contains (.array items ending) part
  | member {members : List (String × Json)} {ending : Ending} {name : String} {value part : Json}
    (there : (name, value) ∈ members) (inside : Contains value part) :
    Contains (.object members ending) part

variable {fields : List Field} {name : String} {path : List String}

theorem valuesAt_of_not_mem {members : List (String × Json)} {ending : Ending}
    (absent : name ∉ members.map Prod.fst) :
    valuesAt (name :: path) (.object members ending) = [] := by
  rw [valuesAt, List.flatMap_eq_nil_iff]
  intro member hm
  refine if_neg ?_
  rintro rfl
  exact absent (List.mem_map_of_mem hm)

@[simp] theorem valuesAt_member (name : String) (path : List String) (value : Json) :
    valuesAt (name :: path) (ofMembers [(name, value)]) = valuesAt path value := by
  simp [ofMembers, valuesAt]

theorem flatMap_valuesAt_nil (written : Option Json) :
    written.toList.flatMap (valuesAt []) = written.toList := by
  cases written <;> rfl

theorem valuesAt_membersOf {written : Option Json} (names : (fields.map Prod.fst).Nodup)
    (there : (name, written) ∈ fields) :
    valuesAt (name :: path) (ofMembers (membersOf fields)) =
      written.toList.flatMap (valuesAt path) := by
  cases written with
  | none => exact valuesAt_of_not_mem (not_mem_membersOf names there)
  | some value =>
    -- Names differ, so that nothing else has this one before the member or after it.
    have distinct := (names_membersOf_sublist fields).nodup names
    obtain ⟨before, after, split⟩ := List.append_of_mem (mem_membersOf.mpr there)
    rw [split, List.map_append, List.map_cons, List.nodup_append] at distinct
    obtain ⟨-, distinctAfter, apart⟩ := distinct
    have early : valuesAt (name :: path) (ofMembers before) = [] :=
      valuesAt_of_not_mem fun found => apart name found name List.mem_cons_self rfl
    have late : valuesAt (name :: path) (ofMembers after) = [] :=
      valuesAt_of_not_mem (List.nodup_cons.mp distinctAfter).1
    rw [ofMembers, valuesAt] at early late ⊢
    rw [split, List.flatMap_append, List.flatMap_cons, early, late]
    simp

theorem valuesAt_upTo {limit : Nat} {json : Json} (above : path.length ≤ limit) :
    valuesAt path (json.upTo limit) =
      (valuesAt path json).map (upTo (limit - path.length)) := by
  induction path generalizing limit json with
  | nil => rfl
  | cons name path ih =>
    obtain ⟨limit, rfl⟩ : ∃ less, limit = less + 1 := ⟨limit - 1, by simp at above; omega⟩
    have inside : path.length ≤ limit := Nat.le_of_succ_le_succ above
    rw [List.length_cons, Nat.add_sub_add_right]
    cases json with
    | object members ending =>
      rw [upTo, valuesAt, valuesAt, List.flatMap_map, List.map_flatMap]
      refine List.flatMap_congr fun member _ => ?_
      dsimp only
      split
      · exact ih inside
      · rfl
    | _ => rfl

theorem valuesAt_upTo_of_depth_le {limit : Nat} {json : Json} (above : path.length ≤ limit)
    (shallow : ∀ value ∈ valuesAt path json, value.depth ≤ limit - path.length) :
    valuesAt path (json.upTo limit) = valuesAt path json := by
  rw [valuesAt_upTo above, List.map_congr_left fun value hv => upTo_of_depth_le (shallow value hv),
    List.map_id']

end LedgerClient.Json
