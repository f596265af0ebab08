import LedgerClient.Json.Basic

/-! The JSON that is written: integers of one word, and objects without repeated keys, nested to some
depth. Of JSON that is nested deeper than a limit, the reader keeps the levels within it. -/

namespace LedgerClient.Json

mutual

def depth : Json → Nat
  | .array items _ => depthOfItems items + 1
  | .object members _ => depthOfMembers members + 1
  | .null | .bool _ | .number _ | .string _ | .unreadable => 0

def depthOfItems : List Json → Nat
  | [] => 0
  | item :: rest => max (depth item) (depthOfItems rest)

def depthOfMembers : List (String × Json) → Nat
  | [] => 0
  | (_, value) :: rest => max (depth value) (depthOfMembers rest)

end

theorem depth_ofItems (items : List Json) : (ofItems items).depth = depthOfItems items + 1 := by
  rw [ofItems, depth]

theorem depth_ofMembers (members : List (String × Json)) :
    (ofMembers members).depth = depthOfMembers members + 1 := by
  rw [ofMembers, depth]

theorem depth_member (name : String) (value : Json) :
    (ofMembers [(name, value)]).depth = value.depth + 1 := by
  rw [depth_ofMembers, depthOfMembers, depthOfMembers, Nat.max_zero]

theorem depth_le_of_mem_items {items : List Json} {item : Json} (h : item ∈ items) :
    item.depth ≤ depthOfItems items := by
  induction items with
  | nil => cases h
  | cons first rest ih =>
    rw [depthOfItems]
    rcases List.mem_cons.mp h with rfl | h
    · exact Nat.le_max_left _ _
    · exact Nat.le_trans (ih h) (Nat.le_max_right _ _)

theorem exists_of_lt_depthOfItems {items : List Json} {depth : Nat} (h : depth < depthOfItems items) :
    ∃ item ∈ items, depth < item.depth := by
  induction items with
  | nil => cases h
  | cons first rest ih =>
    rw [depthOfItems] at h
    have either : depth < first.depth ∨ depth < depthOfItems rest := by omega
    rcases either with h | h
    · exact ⟨first, List.mem_cons_self, h⟩
    · obtain ⟨item, hi, deep⟩ := ih h
      exact ⟨item, List.mem_cons_of_mem first hi, deep⟩

theorem depth_le_of_mem_members {members : List (String × Json)} {name : String} {value : Json}
    (h : (name, value) ∈ members) : value.depth ≤ depthOfMembers members := by
  induction members with
  | nil => cases h
  | cons first rest ih =>
    obtain ⟨key, other⟩ := first
    rw [depthOfMembers]
    rcases List.mem_cons.mp h with same | h
    · rw [(Prod.mk.inj same).2]
      exact Nat.le_max_left _ _
    · exact Nat.le_trans (ih h) (Nat.le_max_right _ _)

theorem depthOfMembers_append (members others : List (String × Json)) :
    depthOfMembers (members ++ others) = max (depthOfMembers members) (depthOfMembers others) := by
  induction members with
  | nil => exact (Nat.zero_max _).symm
  | cons member rest ih => rw [List.cons_append, depthOfMembers, depthOfMembers, ih, Nat.max_assoc]

theorem depth_append_le {members others bounds : List (String × Json)}
    (h : depthOfMembers others ≤ depthOfMembers bounds) :
    (ofMembers (members ++ others)).depth ≤ (ofMembers (members ++ bounds)).depth := by
  rw [depth_ofMembers, depth_ofMembers, depthOfMembers_append, depthOfMembers_append]
  omega

theorem depthOfMembers_le {members : List (String × Json)} {bound : Nat}
    (each : ∀ member ∈ members, member.2.depth ≤ bound) : depthOfMembers members ≤ bound := by
  induction members with
  | nil => exact Nat.zero_le bound
  | cons member rest ih =>
    obtain ⟨first, others⟩ := List.forall_mem_cons.mp each
    exact Nat.max_le.mpr ⟨first, ih others⟩

/-- A value with as many levels of arrays and objects as the limit allows; what is nested deeper is
unreadable. -/
def upTo : (limit : Nat) → Json → Json
  | 0, .array .. => .unreadable
  | 0, .object .. => .unreadable
  | limit + 1, .array items ending => .array (items.map (upTo limit)) ending
  | limit + 1, .object members ending =>
    .object (members.map fun (name, value) => (name, upTo limit value)) ending
  | _, .null => .null
  | _, .bool value => .bool value
  | _, .number value => .number value
  | _, .string value => .string value
  | _, .unreadable => .unreadable

theorem upTo_of_depth_le {json : Json} {limit : Nat} (h : json.depth ≤ limit) :
    json.upTo limit = json := by
  induction limit generalizing json with
  | zero => cases json <;> simp_all [upTo, depth]
  | succ limit ih =>
    cases json with
    | array items ending =>
      rw [depth] at h
      have each : ∀ item ∈ items, item.upTo limit = item := fun item hi =>
        ih (Nat.le_trans (depth_le_of_mem_items hi) (Nat.le_of_succ_le_succ h))
      rw [upTo, List.map_congr_left each, List.map_id']
    | object members ending =>
      rw [depth] at h
      have each : ∀ member ∈ members, (member.1, member.2.upTo limit) = member := fun member hm =>
        Prod.ext rfl (ih (Nat.le_trans (depth_le_of_mem_members hm) (Nat.le_of_succ_le_succ h)))
      rw [upTo, List.map_congr_left each, List.map_id']
    | _ => rw [upTo]

/-- What the codecs write. -/
inductive Written : Json → Prop
  | null : Written .null
  | bool (value : Bool) : Written (.bool value)
  | string (value : String) : Written (.string value)
  | integer {n : Int} (low : -9223372036854775808 ≤ n) (high : n ≤ 18446744073709551615) :
    Written (ofInt n)
  | items {items : List Json} (all : ∀ item ∈ items, Written item) : Written (ofItems items)
  | members {members : List (String × Json)} (names : (members.map Prod.fst).Nodup)
    (all : ∀ member ∈ members, Written member.2) : Written (ofMembers members)

theorem ofNat_eq_ofInt (n : Nat) : ofNat n = ofInt n := rfl

theorem Written.member {value : Json} (h : Written value) (name : String) :
    Written (ofMembers [(name, value)]) := by
  refine Written.members (by simp) ?_
  intro member hm
  rw [List.mem_singleton.mp hm]
  exact h

end LedgerClient.Json
