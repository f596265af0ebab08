import LedgerClient.Json.Tree
import LedgerClient.Proofs.Json.Shape
import Mathlib.Data.List.Forall2

/-! Finished trees present the JSON that was written: the same values at the same places, with the
members of objects in any order but under distinct keys. -/

namespace LedgerClient.Json

/-- Whether a tree that is read holds exactly what was written. -/
inductive Presents : Json → Json → Prop
  | null : Presents .null .null
  | bool (value : Bool) : Presents (.bool value) (.bool value)
  | string (value : String) : Presents (.string value) (.string value)
  | number (value : Number) : Presents (.number value) (.number value)
  | array {items trees : List Json} {ending ends : Ending} (all : List.Forall₂ Presents items trees)
    (complete : ends ≠ .broken) : Presents (.array items ending) (.array trees ends)
  | object {members entries tree : List (String × Json)} {ending ends : Ending}
    (names : entries.map Prod.fst = members.map Prod.fst)
    (values : List.Forall₂ Presents (members.map Prod.snd) (entries.map Prod.snd))
    (order : tree.Perm entries) (distinct : (tree.map Prod.fst).Nodup) (complete : ends ≠ .broken) :
    Presents (.object members ending) (.object tree ends)

theorem Presents.eq_string {value : String} {tree : Json} (h : Presents (.string value) tree) :
    tree = .string value := by
  cases h
  rfl

theorem Presents.eq_ofInt {n : Int} {tree : Json} (h : Presents (ofInt n) tree) :
    tree = ofInt n := by
  rw [ofInt] at h
  cases h
  rfl

theorem insertMember_perm {key : String} {value : Json} {sorted : List (String × Json)}
    (h : key ∉ sorted.map Prod.fst) :
    (insertMember key value sorted).Perm ((key, value) :: sorted) := by
  induction sorted with
  | nil => exact List.Perm.refl _
  | cons first rest ih =>
    obtain ⟨k, v⟩ := first
    rw [List.map_cons, List.mem_cons, not_or] at h
    rw [insertMember, if_neg h.1]
    split
    · exact List.Perm.refl _
    · exact ((ih h.2).cons (k, v)).trans (List.Perm.swap _ _ _)

theorem foldl_insertMember_perm (members sorted : List (String × Json))
    (h : ((sorted ++ members).map Prod.fst).Nodup) :
    (members.foldl (fun sorted (key, value) => insertMember key value sorted) sorted).Perm
      (sorted ++ members) := by
  induction members generalizing sorted with
  | nil => rw [List.append_nil]; exact List.Perm.refl _
  | cons member rest ih =>
    obtain ⟨key, value⟩ := member
    have fresh : key ∉ sorted.map Prod.fst := by
      rw [List.map_append, List.nodup_append] at h
      intro hk
      exact h.2.2 key hk key List.mem_cons_self rfl
    have inserted : (insertMember key value sorted ++ rest).Perm (sorted ++ (key, value) :: rest) :=
      ((insertMember_perm fresh).append_right rest).trans List.perm_middle.symm
    rw [List.foldl_cons]
    refine (ih _ ?_).trans inserted
    exact (inserted.map Prod.fst).nodup_iff.mpr h

theorem sortMembers_perm {members : List (String × Json)} (h : (members.map Prod.fst).Nodup) :
    (sortMembers members).Perm members :=
  foldl_insertMember_perm members [] h

theorem finishItems_presents {items : List Json}
    (h : ∀ item ∈ items, ∃ tree, finish item = some tree ∧ Presents item tree) :
    ∃ trees, finishItems items = some trees ∧ List.Forall₂ Presents items trees := by
  induction items with
  | nil => exact ⟨[], by rw [finishItems], List.Forall₂.nil⟩
  | cons item rest ih =>
    obtain ⟨tree, done, presents⟩ := h item List.mem_cons_self
    obtain ⟨trees, rests, all⟩ := ih fun other ho => h other (List.mem_cons_of_mem item ho)
    refine ⟨tree :: trees, ?_, List.Forall₂.cons presents all⟩
    rw [finishItems, done, rests]
    rfl

theorem finishMembers_presents {members : List (String × Json)}
    (h : ∀ member ∈ members, ∃ tree, finish member.2 = some tree ∧ Presents member.2 tree) :
    ∃ entries, finishMembers members = some entries ∧
      entries.map Prod.fst = members.map Prod.fst ∧
      List.Forall₂ Presents (members.map Prod.snd) (entries.map Prod.snd) := by
  induction members with
  | nil => exact ⟨[], by rw [finishMembers], rfl, List.Forall₂.nil⟩
  | cons member rest ih =>
    obtain ⟨key, value⟩ := member
    obtain ⟨tree, done, presents⟩ := h (key, value) List.mem_cons_self
    obtain ⟨entries, rests, names, all⟩ := ih fun other ho => h other (List.mem_cons_of_mem _ ho)
    refine ⟨(key, tree) :: entries, ?_, ?_, List.Forall₂.cons presents all⟩
    · rw [finishMembers, done, rests]
      rfl
    · rw [List.map_cons, List.map_cons, names]

theorem Written.finish_presents {json : Json} (h : Written json) :
    ∃ tree, finish json = some tree ∧ Presents json tree := by
  induction h with
  | null => exact ⟨.null, by rw [finish], Presents.null⟩
  | bool value => exact ⟨.bool value, by rw [finish], Presents.bool value⟩
  | string value => exact ⟨.string value, by rw [finish], Presents.string value⟩
  | @integer n low high =>
    refine ⟨ofInt n, ?_, Presents.number _⟩
    have word : Number.toWord? (.integer (n < 0) n.natAbs) = some n := by
      rw [Number.toWord?, toInt?_ofInt]
      simp [low, high]
    have finite : Number.isFinite (.integer (n < 0) n.natAbs) = true := by
      rw [Number.isFinite, word]
      rfl
    rw [ofInt, finish, if_pos finite]
  | items all ih =>
    obtain ⟨trees, done, presents⟩ := finishItems_presents ih
    refine ⟨.array trees .counted, ?_, Presents.array presents (by decide)⟩
    rw [ofItems, finish, done]
    · rfl
    · intro same
      cases same
  | @members members names all ih =>
    obtain ⟨entries, done, keys, presents⟩ := finishMembers_presents ih
    have distinct : (entries.map Prod.fst).Nodup := keys ▸ names
    have sorted := sortMembers_perm distinct
    have distinct' : ((sortMembers entries).map Prod.fst).Nodup :=
      (sorted.map Prod.fst).nodup_iff.mpr distinct
    refine ⟨.object (sortMembers entries) .counted, ?_,
      Presents.object keys presents sorted distinct' (by decide)⟩
    rw [ofMembers, finish, done]
    · rfl
    · intro same
      cases same

theorem Written.presents_self {json : Json} (h : Written json) : Presents json json := by
  induction h with
  | null => exact Presents.null
  | bool value => exact Presents.bool value
  | string value => exact Presents.string value
  | integer low high => exact Presents.number _
  | items all ih => exact Presents.array (List.forall₂_same.mpr ih) (by decide)
  | @members members names all ih =>
    have values : List.Forall₂ Presents (members.map Prod.snd) (members.map Prod.snd) := by
      refine List.forall₂_same.mpr ?_
      intro value hv
      obtain ⟨member, hm, rfl⟩ := List.mem_map.mp hv
      exact ih member hm
    exact Presents.object rfl values (List.Perm.refl _) names (by decide)

theorem Presents.of_ofItems {items : List Json} {tree : Json} (h : Presents (ofItems items) tree) :
    ∃ trees ends, tree = .array trees ends ∧ ends ≠ .broken ∧
      List.Forall₂ Presents items trees := by
  rw [ofItems] at h
  cases h with
  | array all complete => exact ⟨_, _, rfl, complete, all⟩

theorem exists_entry {members entries : List (String × Json)}
    (names : entries.map Prod.fst = members.map Prod.fst)
    (values : List.Forall₂ Presents (members.map Prod.snd) (entries.map Prod.snd))
    {name : String} {json : Json} (member : (name, json) ∈ members) :
    ∃ value, (name, value) ∈ entries ∧ Presents json value := by
  induction members generalizing entries with
  | nil => cases member
  | cons first rest ih =>
    cases entries with
    | nil => cases names
    | cons entry entries =>
      obtain ⟨key, value⟩ := entry
      obtain ⟨same, names⟩ := List.cons.inj names
      cases values with
      | cons presents values =>
        rcases List.mem_cons.mp member with rfl | member
        · obtain rfl : key = name := same
          exact ⟨value, List.mem_cons_self, presents⟩
        · obtain ⟨value, there, presents⟩ := ih names values member
          exact ⟨value, List.mem_cons_of_mem _ there, presents⟩

theorem Presents.of_ofMembers {members : List (String × Json)} {tree : Json}
    (h : Presents (ofMembers members) tree) :
    ∃ entries ends, tree = .object entries ends ∧ ends ≠ .broken ∧
      (entries.map Prod.fst).Nodup ∧ (entries.map Prod.fst).Perm (members.map Prod.fst) ∧
      ∀ name json, (name, json) ∈ members →
        ∃ value, (name, value) ∈ entries ∧ Presents json value := by
  rw [ofMembers] at h
  cases h with
  | @object _ entries tree _ ends names values order distinct complete =>
    refine ⟨tree, ends, rfl, complete, distinct, names ▸ order.map Prod.fst, ?_⟩
    intro name json member
    obtain ⟨value, there, presents⟩ := exists_entry names values member
    exact ⟨value, order.mem_iff.mpr there, presents⟩

theorem Presents.perm {json : Json} {members others : List (String × Json)} {ending : Ending}
    (presents : Presents json (.object members ending)) (order : others.Perm members) :
    Presents json (.object others ending) := by
  cases presents with
  | object names values entries distinct complete =>
    exact .object names values (order.trans entries)
      ((order.map Prod.fst).nodup_iff.mpr distinct) complete

theorem Presents.of_member {name : String} {json tree : Json}
    (h : Presents (ofMembers [(name, json)]) tree) :
    ∃ value ends, tree = .object [(name, value)] ends ∧ ends ≠ .broken ∧ Presents json value := by
  obtain ⟨entries, ends, rfl, complete, -, names, all⟩ := h.of_ofMembers
  obtain ⟨value, there, presents⟩ := all name json List.mem_cons_self
  have single : entries.length = 1 := by
    have := names.length_eq
    rwa [List.length_map, List.length_map] at this
  obtain ⟨entry, rfl⟩ := List.length_eq_one_iff.mp single
  rw [← List.mem_singleton.mp there]
  exact ⟨value, ends, rfl, complete, presents⟩

end LedgerClient.Json
