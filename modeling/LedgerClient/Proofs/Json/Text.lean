import LedgerClient.Proofs.Json.Numbers
import LedgerClient.Proofs.Json.Shape
import LedgerClient.Proofs.Json.Strings

/-! Written JSON reads back as it is, up to the nesting limit of the reader, which passes over what is
nested deeper. Every character of a text pays for two calls of the reader, so its fuel never runs
out. -/

namespace LedgerClient.Json

-- Slow to derive, so the equations are derived once, before the proofs that rewrite with them.
attribute [local simp] readValue readItems readMembers

/-- What a value is read as from its text, wherever it stands inside `depth` arrays and objects. -/
def ReadsAs (depth : Nat) (json value : Json) : Prop :=
  ∀ (fuel : Nat) (rest : Symbols), 2 * (print json).length ≤ fuel → Ends rest →
    readValue fuel depth ((print json).map some ++ rest) = (value, some rest)

/-- Whether a value is read back from its text, with the levels that are left where it stands. -/
def Reads (json : Json) : Prop :=
  ∀ depth, json.ReadsAs depth (json.upTo (maxDepth - depth))

/-- Whether the text of a value begins with no blank and no closing bracket. -/
def Opens (json : Json) : Prop :=
  ∃ first tail, print json = first :: tail ∧ isBlank (some first) = false ∧ first ≠ ']'

theorem skipBlanks_cons {c : Char} (h : isBlank (some c) = false) (rest : Symbols) :
    skipBlanks (some c :: rest) = some c :: rest := by
  rw [skipBlanks, List.dropWhile_cons_of_neg]
  rw [h]
  exact Bool.false_ne_true

theorem ReadsNumber.exists_first {text : List Char} {number : Number}
    (reads : ReadsNumber text number) :
    ∃ first tail, text = first :: tail ∧ isBlank (some first) = false ∧
      ∀ c : Char, c ≠ '-' → c.isDigit = false → first ≠ c := by
  obtain ⟨first, tail, same, sort⟩ := reads.opens
  have other : ∀ c : Char, c ≠ '-' → c.isDigit = false → first ≠ c := by
    rintro c dash digit rfl
    rcases sort with same | same
    · exact dash same
    · rw [digit] at same
      cases same
  refine ⟨first, tail, same, ?_, other⟩
  simp only [isBlank, Bool.or_eq_false_iff, beq_eq_false_iff_ne]
  exact ⟨⟨⟨other ' ' (by decide) rfl, other '\n' (by decide) rfl⟩, other '\t' (by decide) rfl⟩,
    other '\r' (by decide) rfl⟩

theorem opens_of_readsNumber {json : Json} {number : Number}
    (reads : ReadsNumber (print json) number) : json.Opens := by
  obtain ⟨first, tail, same, blank, other⟩ := reads.exists_first
  exact ⟨first, tail, same, blank, other ']' (by decide) rfl⟩

theorem opens_of_null {json : Json} (text : print json = "null".toList) : json.Opens :=
  ⟨'n', _, text, rfl, by decide⟩

theorem Opens.bool (value : Bool) : (Json.bool value).Opens := by
  cases value with
  | true => exact ⟨'t', _, by rw [print]; rfl, rfl, by decide⟩
  | false => exact ⟨'f', _, by rw [print]; rfl, rfl, by decide⟩

theorem Opens.string (value : String) : (Json.string value).Opens :=
  ⟨'"', _, by rw [print]; rfl, rfl, by decide⟩

theorem Opens.array (items : List Json) (ending : Ending) : (Json.array items ending).Opens :=
  ⟨'[', _, by rw [print]; rfl, rfl, by decide⟩

theorem Opens.object (members : List (String × Json)) (ending : Ending) :
    (Json.object members ending).Opens :=
  ⟨'\x7b', _, by rw [print]; rfl, rfl, by decide⟩

theorem readsNumber_ofInt {n : Int} (low : -9223372036854775808 ≤ n)
    (high : n ≤ 18446744073709551615) :
    ReadsNumber (print (ofInt n)) (.integer (n < 0) n.natAbs) :=
  print_ofInt low high ▸ readsNumber_toString n

theorem Written.opens {json : Json} (h : Written json) : json.Opens := by
  cases h with
  | null => exact opens_of_null (by rw [print])
  | bool value => exact Opens.bool value
  | string value => exact Opens.string value
  | integer low high => exact opens_of_readsNumber (readsNumber_ofInt low high)
  | items all => exact Opens.array _ _
  | members names all => exact Opens.object _ _

theorem readsAs_null {json : Json} (text : print json = "null".toList) (depth : Nat) :
    json.ReadsAs depth .null := by
  intro fuel rest fits ends
  rw [text] at fits ⊢
  obtain ⟨fuel, rfl⟩ : ∃ less, fuel = less + 1 := ⟨fuel - 1, by simp at fits; omega⟩
  rfl

theorem readsAs_bool (value : Bool) (depth : Nat) : (Json.bool value).ReadsAs depth (.bool value) := by
  intro fuel rest fits ends
  obtain ⟨fuel, rfl⟩ : ∃ less, fuel = less + 1 :=
    ⟨fuel - 1, by cases value <;> simp [print] at fits <;> omega⟩
  cases value with
  | true => rw [print]; rfl
  | false => rw [print]; rfl

theorem readsAs_string (value : String) (depth : Nat) :
    (Json.string value).ReadsAs depth (.string value) := by
  intro fuel rest fits ends
  obtain ⟨tail, text, read⟩ := readString_quote value rest
  obtain ⟨fuel, rfl⟩ : ∃ less, fuel = less + 1 :=
    ⟨fuel - 1, by simp [print, quote] at fits; omega⟩
  rw [print, text, List.cons_append, readValue, skipBlanks_cons rfl]
  simp only [read, Option.map_some, Option.getD_some]

theorem readsAs_number {json : Json} {number : Number} (reads : ReadsNumber (print json) number)
    (depth : Nat) : json.ReadsAs depth (.number number) := by
  intro fuel rest fits ends
  have read := reads.read ends
  obtain ⟨first, tail, text, blank, other⟩ := reads.exists_first
  rw [text] at fits read ⊢
  obtain ⟨fuel, rfl⟩ : ∃ less, fuel = less + 1 :=
    ⟨fuel - 1, by rw [List.length_cons] at fits; omega⟩
  rw [List.map_cons, List.cons_append] at read ⊢
  rw [readValue, skipBlanks_cons blank]
  split
  · next same => exact absurd (Option.some.inj (List.cons.inj same).1) (other 'n' (by decide) rfl)
  · next same => exact absurd (Option.some.inj (List.cons.inj same).1) (other 't' (by decide) rfl)
  · next same => exact absurd (Option.some.inj (List.cons.inj same).1) (other 'f' (by decide) rfl)
  · next same => exact absurd (Option.some.inj (List.cons.inj same).1) (other '"' (by decide) rfl)
  · next same => exact absurd (Option.some.inj (List.cons.inj same).1) (other '[' (by decide) rfl)
  · next same =>
    exact absurd (Option.some.inj (List.cons.inj same).1) (other '\x7b' (by decide) rfl)
  · rw [read]

theorem printItems_cons_cons (item next : Json) (others : List Json) :
    printItems (item :: next :: others) = print item ++ ',' :: printItems (next :: others) := by
  rw [printItems]
  intro same
  cases same

theorem printMembers_cons_cons (key : String) (value : Json) (next : String × Json)
    (others : List (String × Json)) :
    printMembers ((key, value) :: next :: others) =
      quote key ++ ':' :: print value ++ ',' :: printMembers (next :: others) := by
  rw [printMembers]
  intro same
  cases same

theorem readItems_print {items : List Json} (ne : items ≠ []) {depth : Nat} {view : Json → Json}
    (all : ∀ item ∈ items, item.ReadsAs depth (view item)) {fuel : Nat} {rest : Symbols}
    (fits : 2 * (printItems items).length + 1 ≤ fuel) :
    readItems fuel depth ((printItems items).map some ++ some ']' :: rest) =
      (items.map view, .closed, some rest) := by
  induction items generalizing fuel with
  | nil => exact absurd rfl ne
  | cons item others ih =>
    obtain ⟨fuel, rfl⟩ : ∃ less, fuel = less + 1 := ⟨fuel - 1, by omega⟩
    have reads := all item List.mem_cons_self
    cases others with
    | nil =>
      rw [printItems] at fits ⊢
      have read := reads fuel (some ']' :: rest) (by omega) (.bracket rest)
      rw [readItems, read]
      rfl
    | cons next others =>
      rw [printItems_cons_cons] at fits ⊢
      rw [List.length_append, List.length_cons] at fits
      have enough : 2 * (printItems (next :: others)).length + 1 ≤ fuel := by omega
      have tail := ih (List.cons_ne_nil _ _)
        (fun item hi => all item (List.mem_cons_of_mem _ hi)) enough
      have read := reads fuel
        (some ',' :: ((printItems (next :: others)).map some ++ some ']' :: rest)) (by omega)
        (.comma _)
      rw [List.map_append, List.map_cons, List.append_assoc, List.cons_append, readItems, read]
      simp only [skipBlanks_cons (rfl : isBlank (some ',') = false), tail, consItem, List.map_cons]

def afterMember (key : String) (value : Json) (fuel depth : Nat) :
    Symbols → List (String × Json) × Ending × Option Symbols
  | some ',' :: rest => consMember key value (readMembers fuel depth rest)
  | some '\x7d' :: rest => consMember key value ([], .closed, some rest)
  | _ => consMember key value ([], .broken, none)

theorem readMembers_step {key : String} {json value : Json} {fuel depth : Nat}
    (reads : json.ReadsAs depth value) (fits : 2 * (print json).length ≤ fuel) {rest : Symbols}
    (ends : Ends rest) :
    readMembers (fuel + 1) depth ((quote key ++ ':' :: print json).map some ++ rest) =
      afterMember key value fuel depth (skipBlanks rest) := by
  obtain ⟨tail, text, string⟩ :=
    readString_quote key (some ':' :: ((print json).map some ++ rest))
  have read := reads fuel rest fits ends
  rw [List.map_append, List.map_cons, text, List.cons_append, List.cons_append, List.append_assoc,
    List.cons_append, readMembers, skipBlanks_cons rfl]
  simp only [string, skipBlanks_cons (rfl : isBlank (some ':') = false), read]
  rfl

theorem readMembers_print {members : List (String × Json)} (ne : members ≠ []) {depth : Nat}
    {view : Json → Json} (all : ∀ member ∈ members, member.2.ReadsAs depth (view member.2))
    {fuel : Nat} {rest : Symbols} (fits : 2 * (printMembers members).length + 1 ≤ fuel) :
    readMembers fuel depth ((printMembers members).map some ++ some '\x7d' :: rest) =
      (members.map fun (name, json) => (name, view json), .closed, some rest) := by
  induction members generalizing fuel with
  | nil => exact absurd rfl ne
  | cons member others ih =>
    obtain ⟨key, json⟩ := member
    obtain ⟨fuel, rfl⟩ : ∃ less, fuel = less + 1 := ⟨fuel - 1, by omega⟩
    have reads : json.ReadsAs depth (view json) := all (key, json) List.mem_cons_self
    cases others with
    | nil =>
      rw [printMembers] at fits ⊢
      rw [List.length_append, List.length_cons] at fits
      rw [readMembers_step reads (by omega) (.brace rest)]
      rfl
    | cons next others =>
      rw [printMembers_cons_cons] at fits ⊢
      rw [List.length_append, List.length_append, List.length_cons, List.length_cons] at fits
      have enough : 2 * (printMembers (next :: others)).length + 1 ≤ fuel := by omega
      have tail := ih (List.cons_ne_nil _ _)
        (fun member hm => all member (List.mem_cons_of_mem _ hm)) enough
      rw [List.map_append, List.append_assoc, List.map_cons, List.cons_append,
        readMembers_step reads (by omega) (.comma _)]
      simp only [skipBlanks_cons (rfl : isBlank (some ',') = false), afterMember, tail, consMember,
        List.map_cons]

theorem printItems_cons {item : Json} (h : item.Opens) (others : List Json) :
    ∃ first tail, printItems (item :: others) = first :: tail ∧ isBlank (some first) = false ∧
      first ≠ ']' := by
  obtain ⟨first, tail, text, blank, bracket⟩ := h
  cases others with
  | nil => exact ⟨first, tail, by rw [printItems, text], blank, bracket⟩
  | cons next others =>
    refine ⟨first, tail ++ ',' :: printItems (next :: others), ?_, blank, bracket⟩
    rw [printItems_cons_cons, text, List.cons_append]

theorem upTo_ofItems (items : List Json) (depth : Nat) :
    (ofItems items).upTo (maxDepth - depth) =
      if depth < maxDepth then .array (items.map (upTo (maxDepth - (depth + 1)))) .closed
      else .unreadable := by
  by_cases inside : depth < maxDepth
  · have left : maxDepth - depth = maxDepth - (depth + 1) + 1 := by omega
    rw [if_pos inside, left, ofItems, upTo]
  · have none : maxDepth - depth = 0 := by omega
    rw [if_neg inside, none, ofItems, upTo]

theorem upTo_ofMembers (members : List (String × Json)) (depth : Nat) :
    (ofMembers members).upTo (maxDepth - depth) =
      if depth < maxDepth then
        .object (members.map fun (name, value) => (name, value.upTo (maxDepth - (depth + 1)))) .closed
      else .unreadable := by
  by_cases inside : depth < maxDepth
  · have left : maxDepth - depth = maxDepth - (depth + 1) + 1 := by omega
    rw [if_pos inside, left, ofMembers, upTo]
  · have none : maxDepth - depth = 0 := by omega
    rw [if_neg inside, none, ofMembers, upTo]

theorem readsAs_array {items : List Json} (ending : Ending) (opens : ∀ item ∈ items, item.Opens)
    {depth : Nat} {view : Json → Json}
    (all : ∀ item ∈ items, item.ReadsAs (depth + 1) (view item)) :
    (Json.array items ending).ReadsAs depth
      (if depth < maxDepth then .array (items.map view) .closed else .unreadable) := by
  intro fuel rest fits ends
  have text : (print (.array items ending)).map some ++ rest =
      some '[' :: ((printItems items).map some ++ some ']' :: rest) := by
    rw [print, List.map_append, List.map_cons, List.append_assoc]
    rfl
  have length : (print (.array items ending)).length = (printItems items).length + 2 := by
    rw [print, List.length_append, List.length_cons]
    rfl
  obtain ⟨fuel, rfl⟩ : ∃ less, fuel = less + 1 := ⟨fuel - 1, by omega⟩
  rw [text, readValue, skipBlanks_cons rfl]
  cases items with
  | nil =>
    simp only [printItems, List.map_nil, List.nil_append,
      skipBlanks_cons (rfl : isBlank (some ']') = false)]
  | cons item others =>
    have enough : 2 * (printItems (item :: others)).length + 1 ≤ fuel := by omega
    have read : readItems fuel (depth + 1)
        ((printItems (item :: others)).map some ++ some ']' :: rest) =
          ((item :: others).map view, .closed, some rest) :=
      readItems_print (List.cons_ne_nil item others) all enough
    obtain ⟨first, tail, printed, blank, bracket⟩ :=
      printItems_cons (opens item List.mem_cons_self) others
    rw [printed, List.map_cons, List.cons_append] at read ⊢
    simp [skipBlanks_cons blank, bracket, read]

theorem readsAs_object {members : List (String × Json)} (ending : Ending) {depth : Nat}
    {view : Json → Json} (all : ∀ member ∈ members, member.2.ReadsAs (depth + 1) (view member.2)) :
    (Json.object members ending).ReadsAs depth
      (if depth < maxDepth then .object (members.map fun (name, json) => (name, view json)) .closed
        else .unreadable) := by
  intro fuel rest fits ends
  have text : (print (.object members ending)).map some ++ rest =
      some '\x7b' :: ((printMembers members).map some ++ some '\x7d' :: rest) := by
    rw [print, List.map_append, List.map_cons, List.append_assoc]
    rfl
  have length : (print (.object members ending)).length = (printMembers members).length + 2 := by
    rw [print, List.length_append, List.length_cons]
    rfl
  obtain ⟨fuel, rfl⟩ : ∃ less, fuel = less + 1 := ⟨fuel - 1, by omega⟩
  rw [text, readValue, skipBlanks_cons rfl]
  cases members with
  | nil =>
    simp only [printMembers, List.map_nil, List.nil_append,
      skipBlanks_cons (rfl : isBlank (some '\x7d') = false)]
  | cons member others =>
    have enough : 2 * (printMembers (member :: others)).length + 1 ≤ fuel := by omega
    have read : readMembers fuel (depth + 1)
        ((printMembers (member :: others)).map some ++ some '\x7d' :: rest) =
          ((member :: others).map fun (name, json) => (name, view json), .closed, some rest) :=
      readMembers_print (List.cons_ne_nil member others) all enough
    obtain ⟨key, json⟩ := member
    obtain ⟨tail, printed⟩ : ∃ tail, printMembers ((key, json) :: others) = '"' :: tail := by
      cases others with
      | nil => exact ⟨_, by rw [printMembers, quote]; rfl⟩
      | cons next others => exact ⟨_, by rw [printMembers_cons_cons, quote]; rfl⟩
    rw [printed, List.map_cons, List.cons_append] at read ⊢
    simp [skipBlanks_cons (rfl : isBlank (some '"') = false), read]

theorem Reads.items {items : List Json} (written : ∀ item ∈ items, Written item)
    (reads : ∀ item ∈ items, Reads item) : Reads (ofItems items) := by
  intro depth
  rw [upTo_ofItems]
  exact readsAs_array .closed (fun item hi => (written item hi).opens)
    fun item hi => reads item hi (depth + 1)

theorem Reads.members {members : List (String × Json)}
    (reads : ∀ member ∈ members, Reads member.2) : Reads (ofMembers members) := by
  intro depth
  rw [upTo_ofMembers]
  exact @readsAs_object members .closed depth (upTo (maxDepth - (depth + 1)))
    fun member hm => reads member hm (depth + 1)

theorem Written.reads {json : Json} (h : Written json) : Reads json := by
  induction h with
  | null =>
    intro depth
    rw [upTo]
    exact readsAs_null (by rw [print]) depth
  | bool value =>
    intro depth
    rw [upTo]
    exact readsAs_bool value depth
  | string value =>
    intro depth
    rw [upTo]
    exact readsAs_string value depth
  | integer low high =>
    intro depth
    rw [ofInt, upTo]
    exact readsAs_number (readsNumber_ofInt low high) depth
  | items all ih => exact Reads.items all ih
  | members names all ih => exact Reads.members ih

theorem ReadsAs.read_print {json value : Json} (h : json.ReadsAs 0 value) :
    read ((print json).map some) = (value, true) := by
  have enough : 2 * (print json).length ≤ 2 * ((print json).map some).length + 2 := by
    rw [List.length_map]
    omega
  have all := h _ [] enough Ends.nil
  rw [List.append_nil] at all
  rw [read, all]
  rfl

theorem Written.read_print_upTo {json : Json} (h : Written json) :
    read ((print json).map some) = (json.upTo maxDepth, true) :=
  (h.reads 0).read_print

theorem Written.read_print {json : Json} (h : Written json) (deep : json.depth ≤ maxDepth) :
    read ((print json).map some) = (json, true) := by
  rw [h.read_print_upTo, upTo_of_depth_le deep]

end LedgerClient.Json
