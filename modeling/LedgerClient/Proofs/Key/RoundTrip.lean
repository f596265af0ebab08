import LedgerClient.Proofs.Json.RoundTrip
import LedgerClient.Proofs.Key.Nesting

/-! Keys that are written and read again. Each list takes up three levels of JSON, so the nesting limit
of the reader leaves room for 42 lists inside each other. Keys nested up to there are restored. Deeper
ones can be built and written all the same, and what was written is refused. -/

namespace LedgerClient

namespace Key

mutual

def nesting : Key → Nat
  | .single _ | .contract _ | .delegatableContract _ => 0
  | .list keys _ => nestingOfAll keys + 1

def nestingOfAll : List Key → Nat
  | [] => 0
  | key :: rest => max (nesting key) (nestingOfAll rest)

end

/-- How many lists inside each other stay within the nesting limit of JSON. -/
def maxNesting : Nat :=
  Json.maxDepth / 3

example : maxNesting = 42 := by decide

theorem depth_listMembers (keys : List Json) (threshold : Option UInt32) :
    (Json.ofMembers (listMembers keys threshold)).depth = Json.depthOfItems keys + 2 := by
  rw [Json.depth_ofMembers, listMembers.eq_def, Json.depthOfMembers, Json.depth_ofItems]
  cases threshold with
  | none => rw [Json.depthOfMembers, Nat.max_zero]
  | some threshold =>
    have scalar : (Codec.uint32.encode threshold).depth = 0 := by
      show (Json.ofInt threshold.toNat).depth = 0
      rw [Json.ofInt, Json.depth]
    simp [Json.depthOfMembers, scalar]

mutual

theorem depth_bounds : (key : Key) →
    3 * key.nesting ≤ (encode key).depth ∧ (encode key).depth ≤ 3 * key.nesting + 1
  | .single _ | .contract _ | .delegatableContract _ => by
    rw [encode, Json.depth_member, Json.depth, nesting]
    omega
  | .list keys threshold => by
    have all := depthOfItems_bounds keys
    rw [depth_list, depth_listMembers, nesting]
    omega

theorem depthOfItems_bounds : (keys : List Key) →
    3 * nestingOfAll keys ≤ Json.depthOfItems (encodeAll keys) ∧
      Json.depthOfItems (encodeAll keys) ≤ 3 * nestingOfAll keys + 1
  | [] => by simp [nestingOfAll, encodeAll, Json.depthOfItems]
  | key :: rest => by
    have first := depth_bounds key
    have others := depthOfItems_bounds rest
    rw [nestingOfAll, encodeAll, Json.depthOfItems]
    omega

end

theorem depth_le_maxDepth_iff (key : Key) :
    (encode key).depth ≤ Json.maxDepth ↔ key.nesting ≤ maxNesting := by
  have bounds := depth_bounds key
  rw [maxNesting, Json.maxDepth]
  omega

theorem list_depth_le_maxDepth_iff (list : KeyList) :
    (KeyList.codec.encode list).depth ≤ Json.maxDepth ↔ list.toKey.nesting ≤ maxNesting := by
  have bounds := depthOfItems_bounds list.keys
  show (Json.ofMembers (listMembers (encodeAll list.keys) list.threshold)).depth ≤ _ ↔ _
  rw [depth_listMembers, KeyList.toKey, nesting, maxNesting, Json.maxDepth]
  omega

theorem decodeList_error {decodeKey : Json → Decoded Key} {json : Json} {fault : DecodeFault}
    (h : (Codec.list ⟨encode, decodeKey⟩).decode json = .error fault)
    (members : List (String × Json)) (ending : Json.Ending) :
    decodeList decodeKey (.object (("keys", json) :: members) ending) = .error fault := by
  -- A list whose keys are at fault is at fault itself, since its keys are written first.
  have keys : Slot.reader (Codec.list ⟨encode, decodeKey⟩)
      (fun keys (list : KeyList) => { list with keys }) json {} = .error fault := by
    rw [Slot.reader, h]
    rfl
  have record : (listRecord decodeKey).codec.decode (.object (("keys", json) :: members) ending) =
      .error fault := Record.decode_error rfl keys members ending
  rw [decodeList, record]
  rfl

theorem keys_upTo_of_deep {decodeKey : Json → Decoded Key} {keys : List Key} {levels : Nat}
    (each : ∀ key ∈ keys, decodeKey ((encode key).upTo (levels - 1)) =
      if (encode key).depth ≤ levels - 1 then .ok key else .error .malformed)
    (deep : levels < (Json.ofItems (encodeAll keys)).depth) :
    (Codec.list ⟨encode, decodeKey⟩).decode ((Json.ofItems (encodeAll keys)).upTo levels) =
      .error .malformed := by
  rw [Json.depth_ofItems, encodeAll_eq_map] at deep
  rw [encodeAll_eq_map, Json.ofItems]
  cases levels with
  | zero =>
    rw [Json.upTo]
    rfl
  | succ levels =>
    simp only [Nat.add_sub_cancel] at each
    obtain ⟨_, hi, deep⟩ := Json.exists_of_lt_depthOfItems (Nat.lt_of_succ_lt_succ deep)
    obtain ⟨deepest, hk, rfl⟩ := List.mem_map.mp hi
    have malformed : ((keys.map encode).map (Json.upTo levels)).mapM decodeKey =
        .error .malformed := by
      refine Codec.mapM_malformed ?_ ?_
      · intro item hi
        simp only [List.mem_map, exists_exists_and_eq_and] at hi
        obtain ⟨key, hk, rfl⟩ := hi
        have read := each key hk
        split at read
        · exact .inl ⟨key, read⟩
        · exact .inr read
      · have read := each deepest hk
        rw [if_neg (Nat.not_le.mpr deep)] at read
        exact ⟨_, List.mem_map_of_mem (List.mem_map_of_mem hk), read⟩
    rw [Json.upTo]
    show (do
      let values ← ((keys.map encode).map (Json.upTo levels)).mapM decodeKey
      Codec.checkEnding .closed
      return values) = _
    rw [malformed]
    rfl

theorem decodeList_upTo_of_deep {decodeKey : Json → Decoded Key} {list : KeyList} {levels : Nat}
    (each : ∀ key ∈ list.keys, decodeKey ((encode key).upTo (levels - 2)) =
      if (encode key).depth ≤ levels - 2 then .ok key else .error .malformed)
    (deep : levels < (KeyList.codec.encode list).depth) :
    decodeList decodeKey ((KeyList.codec.encode list).upTo levels) = .error .malformed := by
  have text : KeyList.codec.encode list =
      .object (listMembers (encodeAll list.keys) list.threshold) .closed := rfl
  have depth : (KeyList.codec.encode list).depth = Json.depthOfItems (encodeAll list.keys) + 2 :=
    depth_listMembers _ _
  rw [text]
  cases levels with
  | zero =>
    rw [Json.upTo]
    rfl
  | succ levels =>
    have array : levels < (Json.ofItems (encodeAll list.keys)).depth := by
      rw [Json.depth_ofItems]
      omega
    rw [Json.upTo]
    exact decodeList_error (keys_upTo_of_deep each array) _ _

theorem decodeUpTo_member_error {limit : Nat} {tag : String} {json : Json} {fault : DecodeFault}
    (h : decodeTagged (decodeUpTo limit) tag json = .error fault) :
    decodeUpTo (limit + 1) (.object [(tag, json)] .closed) = .error fault := by
  rw [decodeUpTo, h]
  rfl

theorem decodeUpTo_upTo_of_le {key : Key} (h : key.WellFormed) {limit levels : Nat}
    (within : levels ≤ limit) (shallow : levels ≤ Json.maxDepth)
    (whole : (encode key).depth ≤ levels) :
    decodeUpTo limit ((encode key).upTo levels) = .ok key := by
  have restores := codecUpTo_restores h (Nat.le_trans whole within)
  rw [Json.upTo_of_depth_le whole]
  exact restores.decode_encode (Nat.le_trans whole shallow)

theorem decodeUpTo_upTo_zero (limit : Nat) (key : Key) :
    decodeUpTo limit ((encode key).upTo 0) = .error .malformed := by
  have nothing : (encode key).upTo 0 = .unreadable := by
    cases key <;> rw [encode, Json.ofMembers, Json.upTo]
  rw [nothing]
  cases limit <;> rfl

theorem decodeUpTo_upTo_of_deep {key : Key} (h : key.WellFormed) {limit levels : Nat}
    (within : levels ≤ limit) (shallow : levels ≤ Json.maxDepth)
    (deep : levels < (encode key).depth) :
    decodeUpTo limit ((encode key).upTo levels) = .error .malformed := by
  induction h generalizing limit levels with
  | single key | contract id | delegatableContract id =>
    rw [encode, Json.depth_member, Json.depth] at deep
    obtain rfl := Nat.lt_one_iff.mp deep
    exact decodeUpTo_upTo_zero limit _
  | @list keys threshold all range ih =>
    cases levels with
    | zero => exact decodeUpTo_upTo_zero limit _
    | succ levels =>
      obtain ⟨limit, rfl⟩ : ∃ less, limit = less + 1 := ⟨limit - 1, by omega⟩
      -- Below the object of the key stand that of the list and the array, then the keys.
      have each : ∀ key ∈ keys, decodeUpTo limit ((encode key).upTo (levels - 2)) =
          if (encode key).depth ≤ levels - 2 then .ok key else .error .malformed := by
        intro key hk
        split
        · next whole => exact decodeUpTo_upTo_of_le (all key hk) (by omega) (by omega) whole
        · next deeper => exact ih key hk (by omega) (by omega) (Nat.not_le.mp deeper)
      have list : decodeList (decodeUpTo limit) ((KeyList.codec.encode ⟨keys, threshold⟩).upTo levels) =
          .error .malformed := by
        refine decodeList_upTo_of_deep each ?_
        rw [depth_list] at deep
        exact Nat.lt_of_succ_lt_succ deep
      have tagged : decodeTagged (decodeUpTo limit) "keyList"
          ((KeyList.codec.encode ⟨keys, threshold⟩).upTo levels) = .error .malformed := by
        rw [decodeTagged, if_neg (by decide), if_neg (by decide), if_neg (by decide), if_pos rfl, list]
        rfl
      rw [encode, Json.ofMembers, Json.upTo]
      exact decodeUpTo_member_error tagged

theorem decodeUpTo_upTo {key : Key} (h : key.WellFormed) {limit levels : Nat}
    (within : levels ≤ limit) (shallow : levels ≤ Json.maxDepth) :
    decodeUpTo limit ((encode key).upTo levels) =
      if (encode key).depth ≤ levels then .ok key else .error .malformed := by
  split
  · next whole => exact decodeUpTo_upTo_of_le h within shallow whole
  · next deep => exact decodeUpTo_upTo_of_deep h within shallow (Nat.not_le.mp deep)

theorem decodeBytes_encodeText {key : Key} (h : key.WellFormed) :
    codec.decodeBytes (Bytes.ofText (codec.encodeText key)) =
      if key.nesting ≤ maxNesting then .ok key else .error .malformed := by
  rw [Codec.decodeBytes_encodeText (codec_restores h).written]
  simp only [← depth_le_maxDepth_iff]
  exact decodeUpTo_upTo h (Nat.le_succ _) (Nat.le_refl _)

end Key

namespace KeyList

theorem codec_restores {list : KeyList} (h : list.toKey.WellFormed) : codec.Restores list := by
  cases h with
  | list all range =>
    exact Key.listCodecUpTo_restores (fun key hk => Key.codec_restores (all key hk)) range

theorem decodeBytes_encodeText {list : KeyList} (h : list.toKey.WellFormed) :
    codec.decodeBytes (Bytes.ofText (codec.encodeText list)) =
      if list.toKey.nesting ≤ Key.maxNesting then .ok list else .error .malformed := by
  have restores := codec_restores h
  rw [Codec.decodeBytes_encodeText restores.written]
  simp only [← Key.list_depth_le_maxDepth_iff]
  split
  · next whole =>
    rw [Json.upTo_of_depth_le whole]
    exact restores.decode_encode whole
  · next deep =>
    cases h with
    | list all range =>
      refine Key.decodeList_upTo_of_deep ?_ (Nat.not_le.mp deep)
      exact fun key hk => Key.decodeUpTo_upTo (all key hk) (by omega) (by omega)

end KeyList

/-- Every key and every list that callers can make is read from its own text, unless its lists stand
deeper inside each other than JSON may nest. -/
theorem Key.json_round_trip (key : Key) (list : KeyList) :
    (key.Built → Key.codec.decodeBytes (Bytes.ofText (Key.codec.encodeText key)) =
      if key.nesting ≤ Key.maxNesting then .ok key else .error .malformed) ∧
    (list.Built → KeyList.codec.decodeBytes (Bytes.ofText (KeyList.codec.encodeText list)) =
      if list.toKey.nesting ≤ Key.maxNesting then .ok list else .error .malformed) :=
  ⟨fun built => Key.decodeBytes_encodeText built.wellFormed,
    fun built => KeyList.decodeBytes_encodeText built.wellFormed⟩

/-- The empty list, inside as many further lists. -/
def KeyList.nested : Nat → KeyList
  | 0 => .empty
  | count + 1 => KeyList.empty.push (nested count).toKey

theorem KeyList.built_nested (count : Nat) : (nested count).Built := by
  have empty : KeyList.empty.Built := .ofKeys fun _ hk => nomatch hk
  induction count with
  | zero => exact empty
  | succ count ih => exact empty.push (.list ih)

theorem KeyList.nesting_nested (count : Nat) : (nested count).toKey.nesting = count + 1 := by
  induction count with
  | zero => rfl
  | succ count ih =>
    show (Key.list [(nested count).toKey] none).nesting = _
    rw [Key.nesting, Key.nestingOfAll, Key.nestingOfAll, ih, Nat.max_zero]

theorem Key.json_round_trip_nested :
    Key.codec.decodeBytes (Bytes.ofText (Key.codec.encodeText (KeyList.nested 41).toKey)) =
        .ok (KeyList.nested 41).toKey ∧
      KeyList.codec.decodeBytes (Bytes.ofText (KeyList.codec.encodeText (KeyList.nested 42))) =
        .error .malformed := by
  obtain ⟨key, list⟩ := Key.json_round_trip (KeyList.nested 41).toKey (KeyList.nested 42)
  have key := key (.list (KeyList.built_nested 41))
  have list := list (KeyList.built_nested 42)
  rw [KeyList.nesting_nested] at key list
  rw [if_pos (by decide)] at key
  rw [if_neg (by decide)] at list
  exact ⟨key, list⟩

/-- A key of 43 lists inside each other can be built and written, but not read again. -/
theorem Key.json_refused_nested :
    Key.codec.decodeBytes (Bytes.ofText (Key.codec.encodeText (KeyList.nested 42).toKey)) =
        .error .malformed ∧
      ¬ ∀ key : Key, key.Built →
        Key.codec.decodeBytes (Bytes.ofText (Key.codec.encodeText key)) = .ok key := by
  have built : (KeyList.nested 42).toKey.Built := .list (KeyList.built_nested 42)
  have refused := Key.decodeBytes_encodeText built.wellFormed
  rw [KeyList.nesting_nested, if_neg (by decide)] at refused
  refine ⟨refused, fun all => ?_⟩
  rw [all _ built] at refused
  cases refused

end LedgerClient
