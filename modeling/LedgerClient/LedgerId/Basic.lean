import LedgerClient.Text.Hex

/-!
Ledger ids: byte strings that name a network. The three public networks have names; every other id
is written in hexadecimal.
-/

namespace LedgerClient

structure LedgerId where
  bytes : Bytes
  deriving DecidableEq

namespace LedgerId

def mainnet : LedgerId := ⟨[0]⟩
def testnet : LedgerId := ⟨[1]⟩
def previewnet : LedgerId := ⟨[2]⟩

def name? (ledger : LedgerId) : Option String :=
  if ledger = mainnet then some "mainnet"
  else if ledger = testnet then some "testnet"
  else if ledger = previewnet then some "previewnet"
  else none

def ofName? (text : String) : Option LedgerId :=
  if text = "mainnet" then some mainnet
  else if text = "testnet" then some testnet
  else if text = "previewnet" then some previewnet
  else none

/-- The written form: the name of a public network, else hexadecimal. -/
def text (ledger : LedgerId) : String :=
  ledger.name?.getD (Text.Hex.encode ledger.bytes)

theorem ofName?_of_name? {ledger : LedgerId} {name : String} (h : ledger.name? = some name) :
    ofName? name = some ledger := by
  unfold name? at h
  split at h
  · next named => cases h; simp [ofName?, named]
  split at h
  · next named => cases h; simp [ofName?, named]
  split at h
  · next named => cases h; simp [ofName?, named]
  · cases h

theorem name?_of_ofName? {ledger : LedgerId} {name : String} (h : ofName? name = some ledger) :
    ledger.name? = some name := by
  unfold ofName? at h
  split at h
  · next named => cases h; rw [named]; rfl
  split at h
  · next named => cases h; rw [named]; rfl
  split at h
  · next named => cases h; rw [named]; rfl
  · cases h

theorem name?_getD (ledger : LedgerId) (other : String) :
    ledger.name?.getD other =
      if ledger.bytes = [0] then "mainnet"
      else if ledger.bytes = [1] then "testnet"
      else if ledger.bytes = [2] then "previewnet"
      else other := by
  obtain ⟨bytes⟩ := ledger
  simp only [name?, mainnet, testnet, previewnet, LedgerId.mk.injEq]
  split
  · rfl
  split
  · rfl
  split
  · rfl
  · rfl

end LedgerId

end LedgerClient
