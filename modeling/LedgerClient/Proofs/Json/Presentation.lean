import LedgerClient.Proofs.Json.Decoded
import LedgerClient.Proofs.Json.Encodable
import LedgerClient.Proofs.Json.Record
import LedgerClient.Proofs.Json.RoundTrip

/-! Presentations of a record: the members that are written for it, in any order, without fields that
hold their default, and with members of foreign names. From the text of each presentation the same
record is read. -/

namespace LedgerClient

namespace Json

theorem depthOfItems_le_of_presents {items trees : List Json}
    (each : ∀ item ∈ items, ∀ tree, Presents item tree → tree.depth ≤ item.depth)
    (all : List.Forall₂ Presents items trees) : depthOfItems trees ≤ depthOfItems items := by
  induction all with
  | nil => exact Nat.le_refl _
  | cons presents rest ih =>
    obtain ⟨first, others⟩ := List.forall_mem_cons.mp each
    rw [depthOfItems, depthOfItems]
    have here := first _ presents
    have later := ih others
    omega

theorem Written.depth_le_of_presents {json : Json} (h : json.Written) {tree : Json}
    (presents : Presents json tree) : tree.depth ≤ json.depth := by
  induction h generalizing tree with
  | null =>
    cases presents
    exact Nat.le_refl _
  | bool value =>
    cases presents
    exact Nat.le_refl _
  | string value => exact Nat.le_of_eq (congrArg depth presents.eq_string)
  | integer low high => exact Nat.le_of_eq (congrArg depth presents.eq_ofInt)
  | items all ih =>
    obtain ⟨trees, ends, rfl, -, items⟩ := presents.of_ofItems
    rw [depth, depth_ofItems]
    exact Nat.succ_le_succ (depthOfItems_le_of_presents (fun item hi _ => ih item hi) items)
  | members names all ih =>
    obtain ⟨entries, ends, rfl, -⟩ := presents.of_ofMembers
    rw [depth, depth_ofMembers]
    refine Nat.succ_le_succ (depthOfMembers_le ?_)
    rintro ⟨name, value⟩ there
    obtain ⟨json, member, presents⟩ := presents.of_entry there
    exact Nat.le_trans (ih _ member presents) (depth_le_of_mem_members member)

end Json

namespace Record

variable {α : Type} {record : Record α} {value : α}

/-- Whether members present the fields of a value. -/
inductive Presentation (record : Record α) (value : α) : List (String × Json) → Prop
  /-- The members that are written, whatever order other objects inside them have. -/
  | written {members : List (String × Json)} (text : (Json.ofMembers members).Written)
    (presents : Json.Presents (record.codec.encode value) (Json.ofMembers members)) :
    Presentation record value members
  | reorder {members others : List (String × Json)} (h : Presentation record value members)
    (order : others.Perm members) : Presentation record value others
  /-- A field that may be missing can be left out where it has its default. -/
  | leaveOut {members : List (String × Json)} {slot : Slot α} {json : Json}
    (h : Presentation record value ((slot.name, json) :: members)) (there : slot ∈ record.slots)
    (optional : slot.required = false) (default : slot.write value = slot.write record.initial) :
    Presentation record value members
  /-- Members of other names can be added, also under one name. -/
  | add {members : List (String × Json)} {name : String} {json : Json}
    (h : Presentation record value members) (foreign : name ∉ record.slots.map Slot.name)
    (encodable : json.Encodable) : Presentation record value ((name, json) :: members)

theorem Presentation.encodable {members : List (String × Json)}
    (h : record.Presentation value members) : ∀ member ∈ members, member.2.Encodable := by
  induction h with
  | written text _ =>
    cases text with
    | members _ all => exact fun member hm => (all member hm).encodable
  | reorder _ order ih => exact fun member hm => ih member (order.mem_iff.mp hm)
  | leaveOut _ _ _ _ ih => exact fun member hm => ih member (List.mem_cons_of_mem _ hm)
  | add _ _ encodable ih => exact List.forall_mem_cons.mpr ⟨encodable, ih⟩

theorem Presentation.of_mem (restores : record.Restores value) {members : List (String × Json)}
    (h : record.Presentation value members) {slot : Slot α} (hs : slot ∈ record.slots) {tree : Json}
    (there : (slot.name, tree) ∈ members) :
    ∃ json, slot.write value = some json ∧ Json.Presents json tree ∧ tree.Written := by
  induction h with
  | written text presents =>
    cases text with
    | members _ all =>
      obtain ⟨json, member, presents⟩ := Json.Presents.of_entry presents there
      obtain ⟨other, ho, found⟩ := List.mem_filterMap.mp member
      obtain ⟨_, wrote, same⟩ := Option.map_eq_some_iff.mp found
      obtain ⟨named, rfl⟩ := Prod.mk.inj same
      obtain rfl := List.inj_on_of_nodup_map restores.names ho hs named
      exact ⟨_, wrote, presents, all _ there⟩
  | reorder _ order ih => exact ih (order.mem_iff.mp there)
  | leaveOut _ _ _ _ ih => exact ih (List.mem_cons_of_mem _ there)
  | add _ foreign _ ih =>
    rcases List.mem_cons.mp there with same | there
    · exact absurd (List.mem_map.mpr ⟨slot, hs, (Prod.mk.inj same).1⟩) foreign
    · exact ih there

/-! ### Members that make no difference -/

section

variable {slots : List (Slot α)} {name : String}

theorem readMembers_foreign (foreign : name ∉ slots.map Slot.name) (json : Json)
    (before after : List (String × Json)) (seen : List String) (start : α) :
    readMembers slots seen start (before ++ (name, json) :: after) =
      readMembers slots seen start (before ++ after) := by
  induction before generalizing seen start with
  | nil =>
    have unknown : slots.find? (·.name == name) = none := by
      rw [List.find?_eq_none]
      intro slot hs same
      exact foreign (List.mem_map.mpr ⟨slot, hs, beq_iff_eq.mp same⟩)
    rw [List.nil_append, readMembers, unknown]
    rfl
  | cons member before ih =>
    obtain ⟨other, found⟩ := member
    rw [List.cons_append, List.cons_append, readMembers, readMembers]
    cases slots.find? (·.name == other) with
    | none => exact ih seen start
    | some slot => simp only [ih]

theorem decodeMembers_foreign (foreign : name ∉ record.slots.map Slot.name) (json : Json)
    (before after : List (String × Json)) (ending : Json.Ending) :
    record.decodeMembers (before ++ (name, json) :: after) ending =
      record.decodeMembers (before ++ after) ending := by
  rw [decodeMembers, decodeMembers, readMembers_foreign foreign]

theorem readMembers_forget {members : List (String × Json)} {seen less final : List String}
    {start result : α} (fewer : less ⊆ seen) (only : seen ⊆ name :: less)
    (h : readMembers slots seen start members = .ok (result, final)) :
    ∃ found, readMembers slots less start members = .ok (result, found) ∧ final ⊆ name :: found := by
  induction members generalizing seen less start with
  | nil =>
    cases h
    exact ⟨less, rfl, only⟩
  | cons member rest ih =>
    obtain ⟨other, json⟩ := member
    rw [readMembers] at h ⊢
    cases known : slots.find? (·.name == other) with
    | none =>
      rw [known] at h
      exact ih fewer only h
    | some slot =>
      rw [known] at h
      dsimp only at h ⊢
      split at h
      · cases h
      · next unseen =>
        have stillUnseen : ¬ less.contains other = true := fun there =>
          unseen (List.contains_iff_mem.mpr (fewer (List.contains_iff_mem.mp there)))
        obtain ⟨next, read, h⟩ := Except.bind_eq_ok h
        rw [if_neg stillUnseen, read]
        refine ih (List.cons_subset_cons other fewer) ?_ h
        exact List.Subset.trans (List.cons_subset_cons other only)
          (List.Perm.swap name other less).subset

theorem find?_name (names : (slots.map Slot.name).Nodup) {slot : Slot α} (there : slot ∈ slots) :
    slots.find? (·.name == slot.name) = some slot := by
  cases found : slots.find? (·.name == slot.name) with
  | none => exact absurd (beq_self_eq_true slot.name) (List.find?_eq_none.mp found slot there)
  | some other =>
    have matched := List.find?_some found
    have same : other.name = slot.name := beq_iff_eq.mp matched
    rw [List.inj_on_of_nodup_map names (List.mem_of_find?_eq_some found) there same]

theorem decodeMembers_leaveOut {slot : Slot α} {json : Json} {members : List (String × Json)}
    {ending : Json.Ending} (names : (record.slots.map Slot.name).Nodup)
    (there : slot ∈ record.slots) (optional : slot.required = false)
    (unchanged : slot.read json record.initial = .ok record.initial)
    (h : record.decodeMembers ((slot.name, json) :: members) ending = .ok value) :
    record.decodeMembers members ending = .ok value := by
  obtain ⟨final, read, ended, complete⟩ := decodeMembers_eq_ok_iff.mp h
  rw [readMembers, find?_name names there] at read
  obtain ⟨start, here, read⟩ := Except.bind_eq_ok (read : slot.read json record.initial >>= _ = _)
  obtain rfl : record.initial = start := Except.ok.inj (unchanged.symm.trans here)
  obtain ⟨found, readRest, more⟩ :=
    readMembers_forget (List.nil_subset _) (List.Subset.refl _) read
  refine decodeMembers_eq_ok_iff.mpr ⟨found, readRest, ended, ?_⟩
  intro other ho required
  rcases List.mem_cons.mp (more (complete other ho required)) with same | seen
  · obtain rfl := List.inj_on_of_nodup_map names ho there same
    exact absurd (required.symm.trans optional) (by decide)
  · exact seen

end

/-! ### Reading a presentation -/

/-- The members of every presentation, as they are read from its text, make up the value. -/
theorem Presentation.decodeMembers_eq (restores : record.Restores value)
    (defaults : record.Restores record.initial) (deep : (record.codec.encode value).depth ≤ Json.maxDepth)
    {members : List (String × Json)} (h : record.Presentation value members)
    {others : List (String × Json)} (order : others.Perm members) :
    record.decodeMembers (others.map Json.readMember) .closed =
      .ok value := by
  induction h generalizing others with
  | written text presents =>
    have shallow := Nat.le_trans (restores.codec.written.depth_le_of_presents presents) deep
    have same : ∀ member ∈ others, Json.readMember member = id member := fun member hm =>
      text.readMember_eq shallow (order.mem_iff.mp hm)
    rw [List.map_congr_left same, List.map_id]
    exact restores.codec.decode deep _ (presents.perm order)
  | reorder _ before ih => exact ih (order.trans before)
  | @leaveOut members slot tree shown there optional default ih =>
    obtain ⟨json, wrote, presents, written⟩ := shown.of_mem restores there List.mem_cons_self
    have shallow : json.depth + 1 ≤ Json.maxDepth := by
      have inside := depth_le_of_write there json wrote
      have whole : (Json.ofMembers (record.members value)).depth ≤ Json.maxDepth := deep
      rw [Json.depth_ofMembers] at whole
      exact Nat.le_trans (Nat.succ_le_succ inside) whole
    have smaller := (restores.written slot there json wrote).depth_le_of_presents presents
    have same : Json.readMember (slot.name, tree) = (slot.name, tree) :=
      Prod.ext rfl (written.readBack_eq (Nat.le_trans (Nat.succ_le_succ smaller) shallow))
    have unchanged := defaults.reread slot there json (default ▸ wrote)
      (Nat.le_of_succ_le shallow) tree presents
    have whole := ih (order.cons (slot.name, tree))
    rw [List.map_cons, same] at whole
    exact decodeMembers_leaveOut restores.names there optional unchanged whole
  | @add members name json _ foreign _ ih =>
    obtain ⟨before, after, rfl⟩ := List.append_of_mem (order.mem_iff.mpr List.mem_cons_self)
    have rest : (before ++ after).Perm members :=
      (List.perm_middle.symm.trans order).cons_inv
    have read := ih rest
    rw [List.map_append] at read ⊢
    exact (decodeMembers_foreign foreign _ _ _ _).trans read

/-- Whether a value is read from its own text and from that of all other presentations. -/
structure ReadsBack (record : Record α) (value : α) : Prop where
  own : record.codec.decodeBytes (Bytes.ofText (record.codec.encodeText value)) = .ok value
  presented : ∀ members, record.Presentation value members →
    record.codec.decodeBytes (Bytes.ofText (Json.ofMembers members).text) = .ok value

theorem Restores.readsBack (restores : record.Restores value)
    (defaults : record.Restores record.initial)
    (deep : (record.codec.encode value).depth ≤ Json.maxDepth) : record.ReadsBack value := by
  have presented (members : List (String × Json)) (h : record.Presentation value members) :
      record.codec.decodeBytes (Bytes.ofText (Json.ofMembers members).text) = .ok value := by
    have whole : record.codec.decode
        (.object (members.map Json.readMember) .closed) = .ok value :=
      h.decodeMembers_eq restores defaults deep (List.Perm.refl members)
    rw [Codec.decodeBytes_ofText, Codec.decodeText, Json.text, String.toList_ofList,
      Codec.decodeSymbols, Json.read_print_ofMembers h.encodable]
    dsimp only
    rw [whole]
    rfl
  exact ⟨presented _ (.written restores.codec.written restores.codec.written.presents_self),
    presented⟩

end Record

end LedgerClient
