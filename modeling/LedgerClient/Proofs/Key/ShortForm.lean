import LedgerClient.Proofs.Key.Derivation
import LedgerClient.Proofs.Key.Encodings

/-! The short form of private keys. Behind the lead of the Ed25519 form nothing is read but 32 secret
bytes. Behind the lead of the ECDSA form the reader of ECDSA keys goes on, and this one accepts the
lead once more: what it reads are the 32 secret bytes or a structure around them, behind any number of
leads. -/

namespace LedgerClient

namespace Der

theorem length_of_readTagged {tag : UInt8} {bytes contents rest : Bytes}
    (read : readTagged tag bytes = some (contents, rest)) :
    contents.length + rest.length ≤ bytes.length := by
  obtain ⟨-, rfl⟩ := readTagged_eq_some_iff.mp read
  rw [List.length_append]
  exact Nat.add_le_add_right (Element.length_contents_le ⟨tag, contents⟩) _

theorem length_of_readWholeTagged {tag : UInt8} {bytes contents : Bytes}
    (read : readWholeTagged tag bytes = some contents) : contents.length ≤ bytes.length := by
  obtain ⟨-, rfl⟩ := readWholeTagged_eq_some_iff.mp read
  exact Element.length_contents_le ⟨tag, contents⟩

end Der

namespace PrivateKey

variable {bytes rest core : Bytes} {key : PrivateKey} {kind other : KeyKind}

theorem expectKind_eq_ok_iff {result : Except LedgerError PrivateKey} :
    (result >>= expectKind kind) = .ok key ↔ result = .ok key ∧ key.kind = kind := by
  cases result with
  | error fault => simp [bind, Except.bind]
  | ok found =>
    simp only [bind, Except.bind, expectKind]
    split
    · next same => simp; rintro rfl; exact same
    · next other => simp; rintro rfl; exact other

/-! ## Leads -/

theorem derLead_append_inj {behind : Bytes} :
    derLead kind ++ rest = derLead other ++ behind ↔ kind = other ∧ rest = behind := by
  -- The leads of the two kinds differ in their second byte.
  cases kind <;> cases other <;> simp [derLead]

theorem derLead_append_eq_derBytes_iff :
    derLead kind ++ rest = key.derBytes ↔ key.kind = kind ∧ rest = key.rawBytes := by
  rw [derBytes, derLead_append_inj, eq_comm]

theorem afterLead?_derLead :
    Bytes.afterLead? (derLead other) (derLead kind ++ rest) =
      if kind = other then some rest else none := by
  split
  · next same => exact Bytes.afterLead?_eq_some_iff.mpr (by rw [same])
  · next different =>
    rw [Option.eq_none_iff_forall_ne_some]
    intro behind found
    exact different (derLead_append_inj.mp (Bytes.afterLead?_eq_some_iff.mp found)).1

theorem ofDerBytes_ed25519Lead (length : rest.length = 32) :
    ofDerBytes (derLead .ed25519 ++ rest) = ofSeed rest := by
  have seed : (some rest).filter (·.length = 32) = some rest :=
    Option.filter_some_pos (decide_eq_true length)
  rw [ofDerBytes, afterLead?_derLead, if_pos rfl, seed]

theorem ofDerBytes_ecdsaLead (rest : Bytes) :
    ofDerBytes (derLead .ecdsa ++ rest) = ofBytesEcdsa rest := by
  rw [ofDerBytes, afterLead?_derLead, if_neg (by decide), Option.filter_none]
  dsimp only
  split
  · next secret found =>
    rw [afterLead?_derLead, if_pos rfl] at found
    cases found
    rfl
  · next none =>
    rw [afterLead?_derLead, if_pos rfl] at none
    cases none

theorem ofDerBytes_of_structure
    (notShort : ∀ seed : Bytes, seed.length = 32 → bytes ≠ derLead .ed25519 ++ seed)
    (noLead : ∀ secret, bytes ≠ derLead .ecdsa ++ secret) :
    ofDerBytes bytes = .ok key ↔ ofStructure? bytes = some key := by
  have noSeed : (Bytes.afterLead? (derLead .ed25519) bytes).filter (·.length = 32) = none := by
    rw [Option.filter_eq_none_iff]
    intro seed found length
    exact notShort seed (of_decide_eq_true length) (Bytes.afterLead?_eq_some_iff.mp found)
  rw [ofDerBytes, noSeed]
  dsimp only
  split
  · next secret found => exact absurd (Bytes.afterLead?_eq_some_iff.mp found) (noLead secret)
  · cases ofStructure? bytes with
    | none => simp
    | some found => simp

/-! ## Structures -/

/-- What the short form has in the place of the algorithm. For ECDSA it is the curve, where the
general structure has elliptic curves, with this curve as their parameter. -/
def shortAlgorithm : KeyKind → Der.Algorithm
  | .ed25519 => ⟨KeyAlgorithm.ed25519, none⟩
  | .ecdsa => ⟨KeyAlgorithm.secp256k1, none⟩

def shortContents (kind : KeyKind) (rest : Bytes) : Bytes :=
  Der.Element.bytes ⟨Der.Tag.integer, [0]⟩ ++
    (Der.Element.bytes ⟨Der.Tag.sequence, (shortAlgorithm kind).bytes⟩ ++
      (0x04 :: 0x22 :: 0x04 :: 0x20 :: rest))

theorem derLead_append (kind : KeyKind) (rest : Bytes) :
    derLead kind ++ rest =
      0x30 :: .ofNat ((derLead kind).length + 30) :: shortContents kind rest := by
  cases kind <;> rfl

theorem length_shortContents (kind : KeyKind) (rest : Bytes) :
    (shortContents kind rest).length + 2 = (derLead kind).length + rest.length := by
  have split := congrArg List.length (derLead_append kind rest)
  rw [List.length_append, List.length_cons, List.length_cons] at split
  exact split.symm

theorem readWholeTagged_derLead {contents : Bytes}
    (read : Der.readWholeTagged Der.Tag.sequence (derLead kind ++ rest) = some contents) :
    rest.length = 32 ∧ contents = shortContents kind rest := by
  have count : (UInt8.ofNat ((derLead kind).length + 30)).toNat = (derLead kind).length + 30 := by
    cases kind <;> rfl
  have short : UInt8.ofNat ((derLead kind).length + 30) < 0x80 := by
    cases kind <;> decide
  rw [derLead_append] at read
  obtain ⟨rfl, length⟩ := Der.eq_of_readWholeTagged short read
  have whole := length_shortContents kind rest
  exact ⟨by omega, rfl⟩

theorem readTagged_version (rest : Bytes) :
    Der.readTagged Der.Tag.integer (Der.Element.bytes ⟨Der.Tag.integer, [0]⟩ ++ rest) =
      some ([0], rest) :=
  Der.readTagged_eq_some_iff.mpr ⟨⟨rfl, by decide⟩, rfl⟩

theorem readable_shortAlgorithm (kind : KeyKind) : (shortAlgorithm kind).Readable := by
  cases kind with
  | ed25519 => exact ⟨⟨rfl, by decide⟩, nofun⟩
  | ecdsa => exact ⟨⟨rfl, by decide⟩, nofun⟩

theorem readTagged_secret (length : rest.length = 32) :
    Der.readTagged Der.Tag.octetString (0x04 :: 0x22 :: 0x04 :: 0x20 :: rest) =
      some (0x04 :: 0x20 :: rest, []) := by
  have count : (0x04 :: 0x20 :: rest).length = 34 := by
    rw [List.length_cons, List.length_cons, length]
  have short : (0x04 :: 0x20 :: rest).length < 0x80 := by
    rw [count]
    decide
  refine Der.readTagged_eq_some_iff.mpr ⟨⟨rfl, Nat.le_trans (Nat.le_of_lt short) (by decide)⟩, ?_⟩
  rw [Der.Element.bytes_of_length_lt short, count, List.append_nil]
  rfl

theorem readKeyInfo_derLead {info : KeyInfo} (read : readKeyInfo (derLead kind ++ rest) = some info) :
    rest.length = 32 ∧ info = ⟨shortAlgorithm kind, 0x04 :: 0x20 :: rest, none⟩ := by
  obtain ⟨contents, whole, inside⟩ := Option.bind_eq_some_iff.mp read
  obtain ⟨length, rfl⟩ := readWholeTagged_derLead whole
  have algorithm (behind : Bytes) : Der.readTagged Der.Tag.sequence
      (Der.Element.bytes ⟨Der.Tag.sequence, (shortAlgorithm kind).bytes⟩ ++ behind) =
        some ((shortAlgorithm kind).bytes, behind) :=
    Der.readTagged_eq_some_iff.mpr ⟨⟨rfl, by cases kind <;> decide⟩, rfl⟩
  have described := Der.readAlgorithm_eq_some_iff.mpr ⟨readable_shortAlgorithm kind, rfl⟩
  have noField : Der.readField 1 [] = some (none, []) := by
    rw [Der.readField]
    rfl
  have noFields : Der.areFields [] = true := by
    rw [Der.areFields]
    rfl
  simp only [Option.bind_eq_bind, Option.bind_some, shortContents, readTagged_version, algorithm,
    described, readTagged_secret length, noField, noFields, readPublicField] at inside
  cases inside
  exact ⟨length, rfl⟩

theorem ecdsaOfBare?_derLead (kind : KeyKind) (rest : Bytes) :
    ecdsaOfBare? (derLead kind ++ rest) = none := by
  rw [Option.eq_none_iff_forall_ne_some]
  intro key read
  obtain ⟨contents, whole, inside⟩ := Option.bind_eq_some_iff.mp read
  obtain ⟨-, rfl⟩ := readWholeTagged_derLead whole
  rw [shortContents, readTagged_version] at inside
  cases inside

theorem cases_of_ofStructure? (read : ofStructure? bytes = some key) :
    (∃ info, readKeyInfo bytes = some info ∧
      ((∃ found, ed25519OfKeyInfo? info = some found ∧ key = ed25519 found) ∨
        (KeyAlgorithm.isSecp256k1 info.algorithm = true ∧
          ∃ found, ecdsaOfBare? info.secret = some found ∧ key = ecdsa found))) ∨
      ∃ found, ecdsaOfBare? bytes = some found ∧ key = ecdsa found := by
  rw [ofStructure?, Option.orElse_eq_some] at read
  rcases read with general | ⟨-, bare⟩
  · left
    obtain ⟨info, isInfo, inside⟩ := Option.bind_eq_some_iff.mp general
    refine ⟨info, isInfo, ?_⟩
    rcases (Option.orElse_eq_some _ _ _).mp inside with isEdwards | ⟨-, isCurve⟩
    · left
      obtain ⟨found, reading, rfl⟩ := Option.map_eq_some_iff.mp isEdwards
      exact ⟨found, reading, rfl⟩
    · right
      obtain ⟨_, curve, secret⟩ := Option.bind_eq_some_iff.mp isCurve
      obtain ⟨found, reading, rfl⟩ := Option.map_eq_some_iff.mp secret
      exact ⟨(Option.guard_eq_some' _).mp curve, found, reading, rfl⟩
  · right
    obtain ⟨found, reading, rfl⟩ := Option.map_eq_some_iff.mp bare
    exact ⟨found, reading, rfl⟩

theorem ofStructure?_derLead (read : ofStructure? (derLead kind ++ rest) = some key) :
    kind = .ed25519 ∧ derLead kind ++ rest = key.derBytes := by
  rcases cases_of_ofStructure? read with ⟨info, general, inside⟩ | ⟨found, bare, -⟩
  · obtain ⟨length, rfl⟩ := readKeyInfo_derLead general
    have notCurve : KeyAlgorithm.isSecp256k1 (shortAlgorithm kind) = false := by
      cases kind <;> rfl
    rcases inside with ⟨found, isEdwards, rfl⟩ | ⟨curve, -⟩
    · obtain ⟨_, algorithm, secret⟩ := Option.bind_eq_some_iff.mp isEdwards
      cases kind with
      | ed25519 =>
        obtain ⟨again, isSeed, matching⟩ := Option.bind_eq_some_iff.mp secret
        cases matching
        exact ⟨rfl, derLead_append_eq_derBytes_iff.mpr
          ⟨rfl, EdDsa.SigningKey.ofSeed?_eq_some_iff.mp isSeed⟩⟩
      | ecdsa => cases algorithm
    · rw [notCurve] at curve
      cases curve
  · rw [ecdsaOfBare?_derLead] at bare
    cases bare

theorem length_of_ecdsaOfBare? {found : Ecdsa.SigningKey} (read : ecdsaOfBare? bytes = some found) :
    24 ≤ bytes.length := by
  obtain ⟨body, whole, read⟩ := Option.bind_eq_some_iff.mp read
  obtain ⟨⟨version, behind⟩, first, read⟩ := Option.bind_eq_some_iff.mp read
  obtain ⟨_, -, read⟩ := Option.bind_eq_some_iff.mp read
  obtain ⟨⟨secret, fields⟩, second, read⟩ := Option.bind_eq_some_iff.mp read
  obtain ⟨⟨curve, last⟩, -, read⟩ := Option.bind_eq_some_iff.mp read
  obtain ⟨_, -, read⟩ := Option.bind_eq_some_iff.mp read
  obtain ⟨⟨field, unread⟩, -, read⟩ := Option.bind_eq_some_iff.mp read
  obtain ⟨publicKey, -, read⟩ := Option.bind_eq_some_iff.mp read
  obtain ⟨_, -, read⟩ := Option.bind_eq_some_iff.mp read
  obtain ⟨_, bounds, -⟩ := Option.bind_eq_some_iff.mp read
  have length := ((Option.guard_eq_some' _).mp bounds).1
  have inWhole := Der.length_of_readWholeTagged whole
  have inFirst := Der.length_of_readTagged first
  have inSecond := Der.length_of_readTagged second
  omega

theorem length_of_readKeyInfo {info : KeyInfo} (read : readKeyInfo bytes = some info) :
    info.secret.length ≤ bytes.length := by
  obtain ⟨body, whole, read⟩ := Option.bind_eq_some_iff.mp read
  obtain ⟨⟨version, behind⟩, first, read⟩ := Option.bind_eq_some_iff.mp read
  obtain ⟨_, -, read⟩ := Option.bind_eq_some_iff.mp read
  obtain ⟨⟨algorithm, last⟩, second, read⟩ := Option.bind_eq_some_iff.mp read
  obtain ⟨described, -, read⟩ := Option.bind_eq_some_iff.mp read
  obtain ⟨⟨secret, fields⟩, third, read⟩ := Option.bind_eq_some_iff.mp read
  obtain ⟨⟨field, unread⟩, -, read⟩ := Option.bind_eq_some_iff.mp read
  obtain ⟨publicKey, -, read⟩ := Option.bind_eq_some_iff.mp read
  obtain ⟨_, -, read⟩ := Option.bind_eq_some_iff.mp read
  obtain ⟨_, -, same⟩ := Option.bind_eq_some_iff.mp read
  cases same
  have inWhole := Der.length_of_readWholeTagged whole
  have inFirst := Der.length_of_readTagged first
  have inSecond := Der.length_of_readTagged second
  have inThird := Der.length_of_readTagged third
  dsimp only
  omega

theorem length_of_ofStructure? (read : ofStructure? bytes = some key) (isEcdsa : key.kind = .ecdsa) :
    24 ≤ bytes.length := by
  -- A structure of an ECDSA key holds at least the 24 bytes of its secret.
  rcases cases_of_ofStructure? read with ⟨info, general, inside⟩ | ⟨found, bare, -⟩
  · rcases inside with ⟨found, -, rfl⟩ | ⟨-, found, bare, -⟩
    · cases isEcdsa
    · exact Nat.le_trans (length_of_ecdsaOfBare? bare) (length_of_readKeyInfo general)
  · exact length_of_ecdsaOfBare? bare

/-! ## Repeated leads -/

def ecdsaLeads (count : Nat) : Bytes :=
  (List.replicate count (derLead .ecdsa)).flatten

theorem ecdsaLeads_succ_append (count : Nat) (rest : Bytes) :
    ecdsaLeads (count + 1) ++ rest = derLead .ecdsa ++ (ecdsaLeads count ++ rest) := by
  rw [ecdsaLeads, List.replicate_succ, List.flatten_cons, List.append_assoc]
  rfl

/-- What an ECDSA key is read from, short leads apart: its secret bytes, or a structure, which must
not be as long as these. -/
inductive EcdsaCore : Bytes → PrivateKey → Prop
  | secret {key : PrivateKey} (isEcdsa : key.kind = .ecdsa) : EcdsaCore key.rawBytes key
  | enclosed {bytes : Bytes} {key : PrivateKey} (isEcdsa : key.kind = .ecdsa)
      (long : bytes.length ≠ 32) (read : ofStructure? bytes = some key) : EcdsaCore bytes key

theorem EcdsaCore.kind_eq (isCore : EcdsaCore core key) : key.kind = .ecdsa := by
  cases isCore with
  | secret isEcdsa => exact isEcdsa
  | enclosed isEcdsa _ _ => exact isEcdsa

theorem EcdsaCore.length_le (isCore : EcdsaCore core key) : 24 ≤ core.length := by
  cases isCore with
  | secret => exact key.length_rawBytes.symm ▸ (by decide)
  | enclosed isEcdsa _ read => exact length_of_ofStructure? read isEcdsa

theorem ofBytesEcdsa_of_length (length : bytes.length = 32) : ofBytesEcdsa bytes = ofSecret bytes :=
  if_pos length

theorem ofBytesEcdsa_eq_ok_iff_of_length (long : bytes.length ≠ 32) :
    ofBytesEcdsa bytes = .ok key ↔ ofDerBytes bytes = .ok key ∧ key.kind = .ecdsa := by
  rw [ofBytesEcdsa, if_neg long, expectKind_eq_ok_iff]

theorem ofBytesEcdsa_leads (isCore : EcdsaCore core key) (count : Nat) :
    ofBytesEcdsa (ecdsaLeads count ++ core) = .ok key := by
  induction count with
  | zero =>
    have alone : ecdsaLeads 0 ++ core = core := rfl
    rw [alone]
    cases isCore with
    | secret isEcdsa =>
      rw [ofBytesEcdsa_of_length key.length_rawBytes, ofSecret_eq_ok_iff]
      exact ⟨isEcdsa, rfl⟩
    | enclosed isEcdsa long read =>
      rw [ofBytesEcdsa_eq_ok_iff_of_length long, ofDerBytes_of_structure]
      · exact ⟨read, isEcdsa⟩
      · rintro seed - rfl
        have isShort := derLead_append_eq_derBytes_iff.mp (ofStructure?_derLead read).2
        rw [isShort.1] at isEcdsa
        cases isEcdsa
      · rintro secret rfl
        cases (ofStructure?_derLead read).1
  | succ count ih =>
    have lead : (derLead .ecdsa).length = 18 := rfl
    have length := isCore.length_le
    have long : (derLead .ecdsa ++ (ecdsaLeads count ++ core)).length ≠ 32 := by
      rw [List.length_append, List.length_append]
      omega
    rw [ecdsaLeads_succ_append, ofBytesEcdsa_eq_ok_iff_of_length long, ofDerBytes_ecdsaLead]
    exact ⟨ih, isCore.kind_eq⟩

theorem ofDerBytes_ed25519Lead_eq_ok_iff :
    ofDerBytes (derLead .ed25519 ++ rest) = .ok key ↔ derLead .ed25519 ++ rest = key.derBytes := by
  by_cases length : rest.length = 32
  · rw [ofDerBytes_ed25519Lead length, ofSeed_eq_ok_iff, derLead_append_eq_derBytes_iff]
  · constructor
    · intro read
      rw [ofDerBytes_of_structure] at read
      · exact (ofStructure?_derLead read).2
      · intro seed isLong same
        obtain ⟨-, rfl⟩ := derLead_append_inj.mp same
        exact length isLong
      · intro secret same
        cases (derLead_append_inj.mp same).1
    · intro isShort
      obtain ⟨-, rfl⟩ := derLead_append_eq_derBytes_iff.mp isShort
      exact absurd key.length_rawBytes length

/-- Behind any number of leads the same is read, and nothing else is. -/
theorem ofBytesEcdsa_eq_ok_iff :
    ofBytesEcdsa bytes = .ok key ↔
      ∃ count core, bytes = ecdsaLeads count ++ core ∧ EcdsaCore core key := by
  constructor
  · intro read
    -- The induction is on the length: the two readers call each other behind every lead.
    induction length : bytes.length using Nat.strongRecOn generalizing bytes with
    | ind n ih =>
      by_cases short : bytes.length = 32
      · rw [ofBytesEcdsa_of_length short, ofSecret_eq_ok_iff] at read
        obtain ⟨isEcdsa, rfl⟩ := read
        exact ⟨0, key.rawBytes, rfl, .secret isEcdsa⟩
      obtain ⟨encoded, isEcdsa⟩ := (ofBytesEcdsa_eq_ok_iff_of_length short).mp read
      by_cases lead : ∃ secret, bytes = derLead .ecdsa ++ secret
      · obtain ⟨secret, rfl⟩ := lead
        rw [ofDerBytes_ecdsaLead] at encoded
        have shorter : secret.length < n := by
          rw [← length, List.length_append]
          exact Nat.lt_add_of_pos_left (by decide)
        obtain ⟨count, core, rfl, isCore⟩ := ih _ shorter encoded rfl
        exact ⟨count + 1, core, (ecdsaLeads_succ_append count core).symm, isCore⟩
      · refine ⟨0, bytes, rfl, .enclosed isEcdsa short ?_⟩
        rw [ofDerBytes_of_structure] at encoded
        · exact encoded
        · rintro seed - rfl
          rw [ofDerBytes_ed25519Lead_eq_ok_iff, derLead_append_eq_derBytes_iff, isEcdsa] at encoded
          cases encoded.1
        · exact not_exists.mp lead
  · rintro ⟨count, core, rfl, isCore⟩
    exact ofBytesEcdsa_leads isCore count

/-! ## The short form and what else is read like it -/

/-- Behind the lead of the short Ed25519 form only that form is read. Behind the lead of the short
ECDSA form a key is read from its secret bytes or a structure, with any number of further leads before
either, and what is read is the short form exactly if 32 bytes stand behind its lead. -/
theorem behind_lead_read_iff (rest : Bytes) (key : PrivateKey) :
    (ofDerBytes (derLead .ed25519 ++ rest) = .ok key ↔ derLead .ed25519 ++ rest = key.derBytes) ∧
      (ofDerBytes (derLead .ecdsa ++ rest) = .ok key ↔
        ∃ count core, rest = ecdsaLeads count ++ core ∧ EcdsaCore core key) ∧
      ∀ kind, ofDerBytes (derLead kind ++ rest) = .ok key →
        key.kind = kind ∧ (derLead kind ++ rest = key.derBytes ↔ rest.length = 32) := by
  refine ⟨ofDerBytes_ed25519Lead_eq_ok_iff, ?_, ?_⟩
  · rw [ofDerBytes_ecdsaLead, ofBytesEcdsa_eq_ok_iff]
  · intro kind read
    rw [derLead_append_eq_derBytes_iff]
    cases kind with
    | ed25519 =>
      rw [ofDerBytes_ed25519Lead_eq_ok_iff, derLead_append_eq_derBytes_iff] at read
      obtain ⟨isKind, rfl⟩ := read
      exact ⟨isKind, by simp [isKind, key.length_rawBytes]⟩
    | ecdsa =>
      rw [ofDerBytes_ecdsaLead] at read
      obtain ⟨count, core, -, isCore⟩ := ofBytesEcdsa_eq_ok_iff.mp read
      refine ⟨isCore.kind_eq, ?_, ?_⟩
      · rintro ⟨-, rfl⟩
        exact key.length_rawBytes
      · intro length
        rwa [ofBytesEcdsa_of_length length, ofSecret_eq_ok_iff] at read

def one : PrivateKey :=
  .ecdsa ⟨1, .base, by decide +kernel⟩

theorem behind_lead_read_iff_repeated :
    ofDerBytes (derLead .ecdsa ++ one.derBytes) = .ok one ∧ one.kind = .ecdsa ∧
      (derLead .ecdsa ++ one.derBytes = one.derBytes ↔ one.derBytes.length = 32) := by
  have laws := behind_lead_read_iff one.derBytes one
  have read := laws.2.1.mpr ⟨1, one.rawBytes, rfl, .secret rfl⟩
  exact ⟨read, laws.2.2 .ecdsa read⟩

def bareOne : Bytes :=
  0x30 :: 0x25 :: 0x02 :: 0x01 :: 0x01 :: 0x04 :: 0x20 :: one.rawBytes

/-- The short ECDSA form is not read strictly: behind its lead stands the short form itself, or a
structure, and not 32 bytes, and the key is read. -/
theorem repeated_lead_read :
    (ofDerBytes (derLead .ecdsa ++ one.derBytes) = .ok one ∧ one.derBytes.length ≠ 32 ∧
        derLead .ecdsa ++ one.derBytes ≠ one.derBytes) ∧
      ofDerBytes (derLead .ecdsa ++ bareOne) = .ok one ∧ bareOne.length ≠ 32 ∧
        derLead .ecdsa ++ bareOne ≠ one.derBytes := by
  have structured : ofStructure? bareOne = some one := by decide +kernel
  refine ⟨⟨?_, by decide, by decide⟩, ?_, by decide, by decide⟩
  · rw [ofDerBytes_ecdsaLead]
    exact ofBytesEcdsa_leads (.secret rfl) 1
  · rw [ofDerBytes_ecdsaLead]
    exact ofBytesEcdsa_leads (.enclosed rfl (by decide) structured) 0

end PrivateKey

end LedgerClient
