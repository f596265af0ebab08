import LedgerClient.Json.Record
import LedgerClient.Proofs.Json.Codec
import LedgerClient.Proofs.Json.Decoded
import LedgerClient.Proofs.Json.Object

/-! Records that restore what they write. Reading a field copies it from the written value into the
record, a second copy changes nothing, copies of different fields commute, and a record into which
every field was copied is the value. The entries may come in any order and may hold fields of other
records. -/

namespace LedgerClient

/-- Whether reading a field that a value shows copies it into any record, by `copy`. -/
structure Slot.Restores {α : Type} (initial value : α) (slot : Slot α) (copy : α → α) : Prop where
  written : ∀ json, slot.write value = some json → json.Written
  read : ∀ json, slot.write value = some json → json.depth ≤ Json.maxDepth →
    ∀ tree, Json.Presents json tree → ∀ record, slot.read tree record = .ok (copy record)
  missing : slot.write value = none → slot.required = false ∧ copy initial = initial

namespace Slot

variable {α β : Type} {initial value : α} {name : String} {codec : Codec β}

theorem restores_shown {slot : Slot α} {set : β → α → α} {b : β} {json : Json}
    (wrote : slot.write value = some json) (reads : slot.read = reader codec set)
    (written : json.Written)
    (decode : json.depth ≤ Json.maxDepth → ∀ tree, Json.Presents json tree →
      codec.decode tree = .ok b) :
    Restores initial value slot (set b) where
  written other same := Option.some.inj (wrote.symm.trans same) ▸ written
  read other same deep tree presents record := by
    obtain rfl := Option.some.inj (wrote.symm.trans same)
    rw [reads, reader, decode deep tree presents]
    rfl
  missing none := nomatch wrote.symm.trans none

theorem restores_mandatory {get : α → β} {set : β → α → α} (h : codec.Restores (get value)) :
    Restores initial value (mandatory name codec get set) (set (get value)) :=
  restores_shown rfl rfl h.written h.decode

theorem restores_defaulted {get : α → β} {set : β → α → α} (h : codec.Restores (get value)) :
    Restores initial value (defaulted name codec get set) (set (get value)) :=
  restores_shown rfl rfl h.written h.decode

theorem restores_optional {get : α → Option β} {set : Option β → α → α}
    (absent : set none initial = initial) (h : ∀ b, get value = some b → codec.Restores b) :
    Restores initial value (optional name codec get set) (set (get value)) where
  written json hj := by
    obtain ⟨b, hb, rfl⟩ := Option.map_eq_some_iff.mp hj
    exact (h b hb).written
  read json hj deep tree presents record := by
    obtain ⟨b, hb, rfl⟩ := Option.map_eq_some_iff.mp hj
    show (set · record) <$> codec.optional.decode tree = _
    rw [Codec.decode_optional (h b hb) deep presents, hb]
    rfl
  missing hj := ⟨rfl, by rw [Option.map_eq_none_iff.mp hj, absent]⟩

theorem restores_nullable {value : α} {get : α → Option β} {set : Option β → α → α}
    (h : ∀ b, get value = some b → codec.Restores b) :
    Restores initial value (nullable name codec get set) (set (get value)) := by
  cases held : get value with
  | none =>
    have wrote : (nullable name codec get set).write value = some .null := by
      show some (codec.optional.encode (get value)) = _
      rw [held]
      rfl
    refine restores_shown wrote rfl .null fun _ tree presents => ?_
    cases presents
    rfl
  | some b =>
    have restored := h b held
    have wrote : (nullable name codec get set).write value = some (codec.encode b) := by
      show some (codec.optional.encode (get value)) = _
      rw [held]
      rfl
    exact restores_shown wrote rfl restored.written fun deep _ presents =>
      Codec.decode_optional restored deep presents

theorem restores_memo {get : α → String} {set : String → α → α}
    (absent : set "" initial = initial) :
    Restores initial value (memo name get set) (set (get value)) where
  written json hj := by
    rw [memo] at hj
    dsimp only at hj
    split at hj
    · cases hj
    · exact Option.some.inj hj ▸ Json.Written.string _
  read json hj deep tree presents record := by
    rw [memo] at hj
    dsimp only at hj
    split at hj
    · cases hj
    · obtain rfl := Option.some.inj hj
      cases presents
      rfl
  missing hj := by
    rw [memo] at hj
    dsimp only at hj
    split at hj
    · next empty => exact ⟨rfl, by rw [empty, absent]⟩
    · cases hj

def WritesWithin (levels : Nat) (slot : Slot α) : Prop :=
  ∀ value json, slot.write value = some json → json.depth ≤ levels

section

variable {levels : Nat}

@[simp] theorem within_mandatory {get : α → β} {set : β → α → α} (h : codec.WritesWithin levels) :
    (mandatory name codec get set).WritesWithin levels := fun _ _ wrote =>
  Option.some.inj wrote ▸ h _

@[simp] theorem within_defaulted {get : α → β} {set : β → α → α} (h : codec.WritesWithin levels) :
    (defaulted name codec get set).WritesWithin levels := fun _ _ wrote =>
  Option.some.inj wrote ▸ h _

@[simp] theorem within_nullable {get : α → Option β} {set : Option β → α → α}
    (h : codec.WritesWithin levels) : (nullable name codec get set).WritesWithin levels :=
  within_defaulted (Codec.within_optional h)

end

end Slot

namespace Record

variable {α : Type}

abbrev Fields (α : Type) := List (Slot α × (α → α))

def Fields.Keeps (fields : Fields α) (change : α → α) : Prop :=
  ∀ field ∈ fields, ∀ record, change (field.2 record) = field.2 (change record)

section

variable {initial value : α} {fields : Fields α}

/-- What reading entries with these names leads to: what was in place stays, the fields of the
entries are copied and seen, and what was seen before stays seen. -/
structure Reading (fields : Fields α) (names seen final : List String) (record result : α) :
    Prop where
  kept : ∀ change, fields.Keeps change → change record = record → change result = result
  copied : ∀ field ∈ fields, field.1.name ∈ names →
    field.2 result = result ∧ field.1.name ∈ final
  grown : ∀ name ∈ seen, name ∈ final

theorem Reading.nil (fields : Fields α) (seen : List String) (record : α) :
    Reading fields [] seen seen record record where
  kept _ _ same := same
  copied _ _ h := by cases h
  grown _ h := h

theorem Reading.skip {names seen final : List String} {record result : α} {name : String}
    (foreign : ∀ field ∈ fields, field.1.name ≠ name)
    (rest : Reading fields names seen final record result) :
    Reading fields (name :: names) seen final record result where
  kept := rest.kept
  copied field hf hn := by
    rcases List.mem_cons.mp hn with same | hn
    · exact absurd same (foreign field hf)
    · exact rest.copied field hf hn
  grown := rest.grown

theorem Reading.copy {names seen final : List String} {record result : α}
    {field : Slot α × (α → α)} (hf : field ∈ fields)
    (twice : ∀ field ∈ fields, ∀ record, field.2 (field.2 record) = field.2 record)
    (commute : ∀ field ∈ fields, fields.Keeps field.2)
    (distinct : (fields.map fun field => field.1.name).Nodup)
    (rest : Reading fields names (field.1.name :: seen) final (field.2 record) result) :
    Reading fields (field.1.name :: names) seen final record result where
  kept change keeps unchanged := by
  -- The field of an entry is copied before the rest is read, and stays copied since later
  -- copies commute with it.
    refine rest.kept change keeps ?_
    rw [keeps field hf, unchanged]
  copied other ho hn := by
    rcases List.mem_cons.mp hn with same | hn
    · obtain rfl : other = field := List.inj_on_of_nodup_map distinct ho hf same
      refine ⟨rest.kept other.2 (commute other ho) (twice other ho record), ?_⟩
      exact rest.grown _ List.mem_cons_self
    · exact rest.copied other ho hn
  grown name hn := rest.grown name (List.mem_cons_of_mem _ hn)

theorem readMembers_restores
    (restores : ∀ field ∈ fields, Slot.Restores initial value field.1 field.2)
    (twice : ∀ field ∈ fields, ∀ record, field.2 (field.2 record) = field.2 record)
    (commute : ∀ field ∈ fields, fields.Keeps field.2)
    (names : (fields.map fun field => field.1.name).Nodup) {entries : List (String × Json)}
    (distinct : (entries.map Prod.fst).Nodup)
    (shown : ∀ field ∈ fields, ∀ tree, (field.1.name, tree) ∈ entries →
      ∃ json, field.1.write value = some json ∧ json.depth ≤ Json.maxDepth ∧
        Json.Presents json tree)
    {seen : List String} (unseen : ∀ name ∈ entries.map Prod.fst, name ∉ seen) (record : α) :
    ∃ result final, readMembers (fields.map Prod.fst) seen record entries = .ok (result, final) ∧
      Reading fields (entries.map Prod.fst) seen final record result := by
  induction entries generalizing seen record with
  | nil => exact ⟨record, seen, rfl, .nil fields seen record⟩
  | cons entry rest ih =>
    obtain ⟨name, tree⟩ := entry
    obtain ⟨fresh, restDistinct⟩ := List.nodup_cons.mp distinct
    have restShown : ∀ field ∈ fields, ∀ other, (field.1.name, other) ∈ rest →
        ∃ json, field.1.write value = some json ∧ json.depth ≤ Json.maxDepth ∧
          Json.Presents json other := fun field hf other ho =>
      shown field hf other (List.mem_cons_of_mem _ ho)
    rw [readMembers]
    cases found : (fields.map Prod.fst).find? (·.name == name) with
    | none =>
      have foreign : ∀ field ∈ fields, field.1.name ≠ name := by
        intro field hf same
        exact List.find?_eq_none.mp found field.1 (List.mem_map_of_mem hf) (beq_iff_eq.mpr same)
      have restUnseen : ∀ other ∈ rest.map Prod.fst, other ∉ seen := fun other ho =>
        unseen other (List.mem_cons_of_mem _ ho)
      obtain ⟨result, final, read, reading⟩ := ih restDistinct restShown restUnseen record
      exact ⟨result, final, read, reading.skip foreign⟩
    | some slot =>
      obtain ⟨field, hf, rfl⟩ := List.mem_map.mp (List.mem_of_find?_eq_some found)
      have matched := List.find?_some found
      obtain rfl : field.1.name = name := beq_iff_eq.mp matched
      have new : field.1.name ∉ seen := unseen field.1.name List.mem_cons_self
      obtain ⟨json, wrote, deep, presents⟩ := shown field hf tree List.mem_cons_self
      have read := (restores field hf).read json wrote deep tree presents record
      have restUnseen : ∀ other ∈ rest.map Prod.fst, other ∉ field.1.name :: seen := by
        intro other ho
        rw [List.mem_cons, not_or]
        refine ⟨?_, unseen other (List.mem_cons_of_mem _ ho)⟩
        rintro rfl
        exact fresh ho
      obtain ⟨result, final, readRest, reading⟩ :=
        ih restDistinct restShown restUnseen (field.2 record)
      refine ⟨result, final, ?_, reading.copy hf twice commute names⟩
      simp only [List.contains_eq_mem, new, decide_false, Bool.false_eq_true, if_false, read]
      exact readRest

theorem Reading.settled {entries : List (String × Json)} {seen final : List String} {result : α}
    (reading : Reading fields (entries.map Prod.fst) seen final initial result)
    {field : Slot α × (α → α)} (hf : field ∈ fields)
    (restores : Slot.Restores initial value field.1 field.2) (commute : fields.Keeps field.2)
    (shows : Json.Shows entries field.1.name (field.1.write value)) :
    field.2 result = result ∧ (field.1.required = true → field.1.name ∈ final) := by
  -- A field of the value is in place after the reading: it was copied, or it is missing and
  -- has its default.
  cases wrote : field.1.write value with
  | none =>
    obtain ⟨optional, default⟩ := restores.missing wrote
    refine ⟨reading.kept field.2 commute default, ?_⟩
    rw [optional]
    exact nofun
  | some json =>
    rw [wrote] at shows
    obtain ⟨-, tree, ht, -⟩ := shows
    obtain ⟨fixed, seen⟩ := reading.copied field hf (List.mem_map_of_mem (f := Prod.fst) ht)
    exact ⟨fixed, fun _ => seen⟩

theorem decodeMembers_restores {record : Record α} (keep : α → α)
    (slots : record.slots = fields.map Prod.fst)
    (restores : ∀ field ∈ fields, Slot.Restores record.initial value field.1 field.2)
    (twice : ∀ field ∈ fields, ∀ record, field.2 (field.2 record) = field.2 record)
    (commute : ∀ field ∈ fields, fields.Keeps field.2)
    (names : (fields.map fun field => field.1.name).Nodup)
    (keeps : fields.Keeps keep) (kept : keep record.initial = record.initial)
    (complete : ∀ r, keep r = r → (∀ field ∈ fields, field.2 r = r) → r = value)
    {entries : List (String × Json)} {ends : Json.Ending} (closed : ends ≠ .broken)
    (distinct : (entries.map Prod.fst).Nodup)
    (shows : ∀ field ∈ fields, Json.Shows entries field.1.name (field.1.write value)) :
    record.decodeMembers entries ends = .ok value := by
  obtain ⟨result, final, read, reading⟩ :=
    readMembers_restores restores twice commute names distinct
      (fun field hf _ => (shows field hf).of_mem distinct)
      (fun name _ => List.not_mem_nil : ∀ name ∈ entries.map Prod.fst, name ∉ []) record.initial
  have all : ∀ field ∈ fields, field.2 result = result ∧
      (field.1.required = true → field.1.name ∈ final) := fun field hf =>
    reading.settled hf (restores field hf) (commute field hf) (shows field hf)
  obtain rfl : result = value :=
    complete result (reading.kept keep keeps kept) fun field hf => (all field hf).1
  refine decodeMembers_eq_ok_iff.mpr ⟨final, slots ▸ read, Codec.checkEnding_of_ne closed, ?_⟩
  rw [slots]
  exact List.forall_mem_map.mpr fun field hf => (all field hf).2

end

/-- Whether a record of this value is read from all entries that show its fields, each of which adds
nothing to the value itself. -/
structure Restores (record : Record α) (value : α) : Prop where
  names : (record.slots.map Slot.name).Nodup
  written : ∀ slot ∈ record.slots, ∀ json, slot.write value = some json → json.Written
  reread : ∀ slot ∈ record.slots, ∀ json, slot.write value = some json →
    json.depth ≤ Json.maxDepth → ∀ tree, Json.Presents json tree → slot.read tree value = .ok value
  decode : ∀ {entries : List (String × Json)} {ends : Json.Ending}, ends ≠ .broken →
    (entries.map Prod.fst).Nodup →
      (∀ slot ∈ record.slots, Json.Shows entries slot.name (slot.write value)) →
        record.decodeMembers entries ends = .ok value

section

variable {record : Record α} {value : α} {copies : List (α → α)}

theorem foldr_eq_of_fixed {r : α} (fixed : ∀ f ∈ copies, f r = r) :
    copies.foldr (fun f r => f r) r = r := by
  induction copies with
  | nil => rfl
  | cons f rest ih =>
    rw [List.foldr_cons, ih fun g hg => fixed g (List.mem_cons_of_mem f hg)]
    exact fixed f List.mem_cons_self

theorem foldr_apply {f : α → α} (commute : ∀ g ∈ copies, ∀ r, f (g r) = g (f r)) (r : α) :
    copies.foldr (fun f r => f r) (f r) = f (copies.foldr (fun f r => f r) r) := by
  induction copies with
  | nil => rfl
  | cons g rest ih =>
    rw [List.foldr_cons, List.foldr_cons, ih fun h hh => commute h (List.mem_cons_of_mem g hh)]
    exact (commute g List.mem_cons_self _).symm

/-- The record law, where `keep` copies what no field holds. -/
theorem restores_keeping (keep : α → α)
    (slots : List.Forall₂ (Slot.Restores record.initial value) record.slots copies)
    (names : (record.slots.map Slot.name).Nodup)
    (twice : ∀ f ∈ copies, ∀ r, f (f r) = f r)
    (commute : copies.Pairwise fun f g => ∀ r, f (g r) = g (f r))
    (keeps : ∀ f ∈ copies, ∀ r, keep (f r) = f (keep r))
    (kept : keep record.initial = record.initial)
    (complete : ∀ r, keep (copies.foldr (fun f r => f r) r) = value) : record.Restores value := by
  obtain ⟨length, paired⟩ := List.forall₂_iff_zip.mp slots
  have firsts : (record.slots.zip copies).map Prod.fst = record.slots :=
    List.map_fst_zip (Nat.le_of_eq length)
  have seconds : (record.slots.zip copies).map Prod.snd = copies :=
    List.map_snd_zip (Nat.le_of_eq length.symm)
  have restores : ∀ field ∈ record.slots.zip copies,
      Slot.Restores record.initial value field.1 field.2 := fun field hf => paired hf
  have inCopies : ∀ field ∈ record.slots.zip copies, field.2 ∈ copies := fun field hf =>
    seconds ▸ List.mem_map_of_mem (f := Prod.snd) hf
  have both : ∀ f ∈ copies, ∀ g ∈ copies, ∀ r, f (g r) = g (f r) := fun f hf g hg =>
    commute.forall_of_forall_of_flip (fun _ _ _ => rfl) (commute.imp fun h r => (h r).symm) hf hg
  refine ⟨names, ?_, ?_, ?_⟩
  · intro slot hs
    obtain ⟨field, hf, rfl⟩ := List.mem_map.mp (firsts.symm ▸ hs)
    exact (restores field hf).written
  · intro slot hs json wrote deep tree presents
    obtain ⟨field, hf, rfl⟩ := List.mem_map.mp (firsts.symm ▸ hs)
    have hc := inCopies field hf
    have same : field.2 value = value := by
      rw [← complete value, ← keeps _ hc, ← foldr_apply (both _ hc), complete, complete]
    rw [(restores field hf).read json wrote deep tree presents, same]
  · intro entries ends closed distinct shows
    refine decodeMembers_restores keep firsts.symm restores
      (fun field hf => twice _ (inCopies field hf))
      (fun field hf other ho => both _ (inCopies field hf) _ (inCopies other ho)) ?_
      (fun field hf => keeps _ (inCopies field hf)) kept ?_ closed distinct ?_
    · rw [← firsts, List.map_map] at names
      exact names
    · intro r fixed all
      have unchanged : ∀ f ∈ copies, f r = r := by
        intro f hf
        obtain ⟨field, hm, rfl⟩ := List.mem_map.mp (seconds.symm ▸ hf)
        exact all field hm
      have whole := complete r
      rw [foldr_eq_of_fixed unchanged, fixed] at whole
      exact whole
    · intro field hf
      exact shows field.1 (firsts ▸ List.mem_map_of_mem (f := Prod.fst) hf)

theorem restores (slots : List.Forall₂ (Slot.Restores record.initial value) record.slots copies)
    (names : (record.slots.map Slot.name).Nodup)
    (twice : ∀ f ∈ copies, ∀ r, f (f r) = f r)
    (commute : copies.Pairwise fun f g => ∀ r, f (g r) = g (f r))
    (complete : ∀ r, copies.foldr (fun f r => f r) r = value) : record.Restores value :=
  restores_keeping id slots names twice commute (fun _ _ _ => rfl) rfl complete

end

def fields (record : Record α) (value : α) : List Json.Field :=
  record.slots.map fun slot => (slot.name, slot.write value)

theorem members_eq (record : Record α) (value : α) :
    record.members value = Json.membersOf (record.fields value) := by
  rw [members, Json.membersOf, fields, List.filterMap_map]
  rfl

theorem names_fields (record : Record α) (value : α) :
    (record.fields value).map Prod.fst = record.slots.map Slot.name := by
  rw [fields, List.map_map]
  rfl

namespace Restores

variable {record : Record α} {value : α}

theorem written_field (h : record.Restores value) {name : String} {json : Json}
    (hf : (name, some json) ∈ record.fields value) : json.Written := by
  obtain ⟨slot, hs, same⟩ := List.mem_map.mp hf
  exact h.written slot hs json (Prod.mk.inj same).2

theorem decode_of_fields (h : record.Restores value) {entries : List (String × Json)}
    {ends : Json.Ending} (closed : ends ≠ .broken) (distinct : (entries.map Prod.fst).Nodup)
    (shows : ∀ field ∈ record.fields value, Json.Shows entries field.1 field.2) :
    record.decodeMembers entries ends = .ok value :=
  h.decode closed distinct fun _ hs => shows _ (List.mem_map_of_mem hs)

theorem codec (h : record.Restores value) : record.codec.Restores value := by
  have names : ((record.fields value).map Prod.fst).Nodup := record.names_fields value ▸ h.names
  have text : record.codec.encode value =
      Json.ofMembers (Json.membersOf (record.fields value)) := by
    rw [← members_eq]
    rfl
  refine ⟨?_, ?_, ?_⟩
  · rw [text]
    exact Json.written_membersOf names fun name json hf => h.written_field hf
  · intro null
    cases null
  · intro deep tree presents
    rw [text] at deep presents
    obtain ⟨entries, ends, rfl, closed, distinct, shows⟩ :=
      Json.shows_of_presents names deep presents
    exact h.decode_of_fields closed distinct shows

end Restores

section

variable {β : Type} {first : Record α} {second : Record β} {a : α} {b : β}

theorem written_append (ha : first.Restores a) (hb : second.Restores b)
    (names : (first.slots.map Slot.name ++ second.slots.map Slot.name).Nodup) :
    (Json.ofMembers (first.members a ++ second.members b)).Written := by
  rw [members_eq, members_eq, ← Json.membersOf_append]
  refine Json.written_membersOf ?_ ?_
  · rw [List.map_append, names_fields, names_fields]
    exact names
  · intro name json hf
    rcases List.mem_append.mp hf with hf | hf
    · exact ha.written_field hf
    · exact hb.written_field hf

theorem decode_append (ha : first.Restores a) (hb : second.Restores b)
    (names : (first.slots.map Slot.name ++ second.slots.map Slot.name).Nodup) {json tree : Json}
    (encodes : json = Json.ofMembers (first.members a ++ second.members b))
    (deep : json.depth ≤ Json.maxDepth) (presents : Json.Presents json tree) {γ : Type} {c : γ}
    {decode : Json → Decoded γ} {join : β → α → γ} (joined : join b a = c)
    (decodes : ∀ entries ends, decode (.object entries ends) = do
      let b ← second.decodeMembers entries ends
      let a ← first.decodeMembers entries ends
      return join b a) : decode tree = .ok c := by
  subst encodes
  rw [members_eq, members_eq, ← Json.membersOf_append] at deep presents
  have distinctNames : ((first.fields a ++ second.fields b).map Prod.fst).Nodup := by
    rw [List.map_append, names_fields, names_fields]
    exact names
  obtain ⟨entries, ends, rfl, closed, distinct, shows⟩ :=
    Json.shows_of_presents distinctNames deep presents
  have readFirst := ha.decode_of_fields closed distinct fun field hf =>
    shows field (List.mem_append.mpr (.inl hf))
  have readSecond := hb.decode_of_fields closed distinct fun field hf =>
    shows field (List.mem_append.mpr (.inr hf))
  rw [decodes, readSecond, readFirst, ← joined]
  rfl

end

/-! ### Nesting -/

section

variable {record : Record α} {value : α}

theorem mem_members {slot : Slot α} {json : Json} (there : slot ∈ record.slots)
    (wrote : slot.write value = some json) : (slot.name, json) ∈ record.members value :=
  List.mem_filterMap.mpr ⟨slot, there, by rw [wrote]; rfl⟩

theorem depth_le_of_write {slot : Slot α} (there : slot ∈ record.slots) :
    ∀ json, slot.write value = some json →
      json.depth ≤ Json.depthOfMembers (record.members value) :=
  fun _ wrote => Json.depth_le_of_mem_members (mem_members there wrote)

theorem depthOfMembers_le {bound : Nat}
    (each : ∀ slot ∈ record.slots, ∀ json, slot.write value = some json → json.depth ≤ bound) :
    Json.depthOfMembers (record.members value) ≤ bound := by
  refine Json.depthOfMembers_le fun member hm => ?_
  obtain ⟨slot, there, written⟩ := List.mem_filterMap.mp hm
  obtain ⟨json, wrote, rfl⟩ := Option.map_eq_some_iff.mp written
  exact each slot there json wrote

theorem codec_within {levels : Nat} (each : ∀ slot ∈ record.slots, slot.WritesWithin levels) :
    record.codec.WritesWithin (levels + 1) := by
  intro value
  show (Json.ofMembers (record.members value)).depth ≤ levels + 1
  rw [Json.depth_ofMembers]
  exact Nat.succ_le_succ (depthOfMembers_le fun slot there => each slot there value)

end

end Record

end LedgerClient
