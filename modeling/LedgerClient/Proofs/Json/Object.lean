import LedgerClient.Proofs.Json.Tree
import Mathlib.Data.List.Nodup

/-! Objects made of fields, each of which is written or left out. A tree that presents such an object
shows every field as it was written, and shows that the others were left out. -/

namespace LedgerClient.Json

abbrev Field := String × Option Json

def membersOf (fields : List Field) : List (String × Json) :=
  fields.filterMap fun (name, json) => json.map (name, ·)

/-- Whether entries show a field: they present what was written for it, or leave it out as well. -/
def Shows (entries : List (String × Json)) (name : String) : Option Json → Prop
  | some json => json.depth ≤ maxDepth ∧ ∃ tree, (name, tree) ∈ entries ∧ Presents json tree
  | none => name ∉ entries.map Prod.fst

variable {fields : List Field} {name : String} {json : Json}

theorem Shows.of_mem {entries : List (String × Json)} {written : Option Json} {tree : Json}
    (shows : Shows entries name written) (distinct : (entries.map Prod.fst).Nodup)
    (ht : (name, tree) ∈ entries) :
    ∃ json, written = some json ∧ json.depth ≤ maxDepth ∧ Presents json tree := by
  cases written with
  | none => exact absurd (List.mem_map_of_mem (f := Prod.fst) ht) shows
  | some json =>
    obtain ⟨deep, other, ho, presents⟩ := shows
    have same := List.inj_on_of_nodup_map distinct ht ho rfl
    exact ⟨json, rfl, deep, (Prod.mk.inj same).2 ▸ presents⟩

theorem membersOf_append (fields others : List Field) :
    membersOf (fields ++ others) = membersOf fields ++ membersOf others :=
  List.filterMap_append

theorem mem_membersOf : (name, json) ∈ membersOf fields ↔ (name, some json) ∈ fields := by
  rw [membersOf, List.mem_filterMap]
  constructor
  · rintro ⟨⟨other, written⟩, hf, found⟩
    obtain ⟨value, rfl, same⟩ := Option.map_eq_some_iff.mp found
    cases same
    exact hf
  · intro hf
    exact ⟨(name, some json), hf, rfl⟩

theorem names_membersOf_sublist (fields : List Field) :
    ((membersOf fields).map Prod.fst).Sublist (fields.map Prod.fst) := by
  induction fields with
  | nil => exact List.Sublist.slnil
  | cons field rest ih =>
    obtain ⟨name, written⟩ := field
    cases written with
    | none => exact ih.cons name
    | some json => exact ih.cons_cons name

theorem not_mem_membersOf (names : (fields.map Prod.fst).Nodup) (h : (name, none) ∈ fields) :
    name ∉ (membersOf fields).map Prod.fst := by
  intro found
  obtain ⟨⟨other, json⟩, hm, rfl⟩ := List.mem_map.mp found
  have same := List.inj_on_of_nodup_map names h (mem_membersOf.mp hm) rfl
  cases same

theorem written_membersOf (names : (fields.map Prod.fst).Nodup)
    (written : ∀ name json, (name, some json) ∈ fields → Written json) :
    Written (ofMembers (membersOf fields)) := by
  refine Written.members ((names_membersOf_sublist fields).nodup names) ?_
  rintro ⟨name, json⟩ hm
  exact written name json (mem_membersOf.mp hm)

theorem shows_of_presents (names : (fields.map Prod.fst).Nodup)
    (deep : (ofMembers (membersOf fields)).depth ≤ maxDepth) {tree : Json}
    (presents : Presents (ofMembers (membersOf fields)) tree) :
    ∃ entries ends, tree = .object entries ends ∧ ends ≠ .broken ∧
      (entries.map Prod.fst).Nodup ∧ ∀ field ∈ fields, Shows entries field.1 field.2 := by
  obtain ⟨entries, ends, rfl, closed, distinct, same, all⟩ := presents.of_ofMembers
  refine ⟨entries, ends, rfl, closed, distinct, ?_⟩
  rintro ⟨name, written⟩ hf
  cases written with
  | none =>
    intro found
    exact not_mem_membersOf names hf (same.mem_iff.mp found)
  | some json =>
    have member := mem_membersOf.mpr hf
    have bound := depth_le_of_mem_members member
    rw [depth_ofMembers] at deep
    exact ⟨by omega, all name json member⟩

theorem Presents.of_entry {members entries : List (String × Json)} {ends : Ending}
    (presents : Presents (ofMembers members) (.object entries ends)) {value : Json}
    (there : (name, value) ∈ entries) : ∃ json, (name, json) ∈ members ∧ Presents json value := by
  obtain ⟨_, _, whole, -, distinct, same, all⟩ := presents.of_ofMembers
  cases whole
  have named : name ∈ members.map Prod.fst := same.mem_iff.mp (List.mem_map_of_mem there)
  obtain ⟨⟨_, json⟩, member, rfl⟩ := List.mem_map.mp named
  obtain ⟨other, found, presents⟩ := all _ json member
  obtain rfl : value = other := (Prod.mk.inj (List.inj_on_of_nodup_map distinct there found rfl)).2
  exact ⟨json, member, presents⟩

/-! ### Members by name -/

theorem member?_of_mem {entries : List (String × Json)} {ending : Ending} {value : Json}
    (distinct : (entries.map Prod.fst).Nodup) (there : (name, value) ∈ entries) :
    member? name (.object entries ending) = some value := by
  rw [member?]
  induction entries with
  | nil => cases there
  | cons entry rest ih =>
    obtain ⟨fresh, distinctRest⟩ := List.nodup_cons.mp distinct
    rcases List.mem_cons.mp there with rfl | later
    · simp
    · have other : entry.1 ≠ name := fun same =>
        fresh (same ▸ List.mem_map_of_mem (f := Prod.fst) later)
      rw [List.find?_cons_of_neg (by simpa using other)]
      exact ih distinctRest later

theorem member?_of_not_mem {entries : List (String × Json)} {ending : Ending}
    (absent : name ∉ entries.map Prod.fst) : member? name (.object entries ending) = none := by
  rw [member?, Option.map_eq_none_iff, List.find?_eq_none]
  intro entry there
  rw [decide_eq_true_eq]
  rintro rfl
  exact absent (List.mem_map_of_mem there)

theorem Presents.exists_member? {tree : Json} (presents : Presents (ofMembers (membersOf fields)) tree)
    (there : (name, some json) ∈ fields) :
    ∃ value, tree.member? name = some value ∧ Presents json value := by
  obtain ⟨entries, ends, rfl, -, distinct, -, all⟩ := presents.of_ofMembers
  obtain ⟨value, found, presents⟩ := all name json (mem_membersOf.mpr there)
  exact ⟨value, member?_of_mem distinct found, presents⟩

theorem Presents.member?_eq_none {members : List (String × Json)} {tree : Json}
    (presents : Presents (ofMembers members) tree) (absent : name ∉ members.map Prod.fst) :
    tree.member? name = none := by
  obtain ⟨entries, ends, rfl, -, -, same, -⟩ := presents.of_ofMembers
  exact member?_of_not_mem fun found => absent (same.mem_iff.mp found)

end LedgerClient.Json
