import LedgerClient.Proofs.Json.Object
import LedgerClient.Proofs.Json.Scalar
import LedgerClient.Response.Account
import Mathlib.Data.List.Perm.Basic
import Mathlib.Data.List.Perm.Subperm

/-! Balances by token are read from their object in any order. Every entry is put at its place, so the
sorted list is the one that was written. -/

namespace LedgerClient.TokenBalances

def member (entry : TokenId × UInt64) : String × Json :=
  (entry.1.text, Codec.uint64.encode entry.2)

theorem encode_eq (balances : TokenBalances) :
    codec.encode balances = Json.ofMembers (balances.entries.map member) := rfl

theorem map_fst_member (entries : List (TokenId × UInt64)) :
    (entries.map member).map Prod.fst = entries.map (·.1.text) := by
  rw [List.map_map]
  rfl

theorem nodup_texts (balances : TokenBalances) : (balances.entries.map (·.1.text)).Nodup := by
  rw [List.Nodup, List.pairwise_map]
  refine balances.sorted.imp ?_
  intro first second before same
  rw [same] at before
  exact String.lt_irrefl _ before

theorem insertEntry_perm {token : TokenId} {balance : UInt64} {entries : List (TokenId × UInt64)}
    (fresh : token.text ∉ entries.map (·.1.text)) :
    (insertEntry token balance entries).Perm ((token, balance) :: entries) := by
  induction entries with
  | nil => exact List.Perm.refl _
  | cons first rest ih =>
    obtain ⟨t, b⟩ := first
    rw [List.map_cons, List.mem_cons, not_or] at fresh
    rw [insertEntry, if_neg fresh.1]
    split
    · exact List.Perm.refl _
    · exact ((ih fresh.2).cons (t, b)).trans (List.Perm.swap _ _ _)

theorem readMembers_member (balances : TokenBalances) (entry : TokenId × UInt64)
    (rest : List (String × Json)) :
    balances.readMembers (member entry :: rest) =
      (balances.insert entry.1 entry.2).readMembers rest := by
  have presents := (Codec.restores_uint64 entry.2).written.presents_self
  have balance : Codec.uint64.decode (Codec.uint64.encode entry.2) = .ok entry.2 :=
    (Codec.restores_uint64 entry.2).decode (Nat.zero_le _) _ presents
  rw [member, readMembers, entry.1.parse_text, balance]
  rfl

theorem readMembers_perm (entries : List (TokenId × UInt64)) (balances : TokenBalances)
    (distinct : ((balances.entries ++ entries).map (·.1.text)).Nodup) :
    ∃ result : TokenBalances, balances.readMembers (entries.map member) = .ok result ∧
      result.entries.Perm (balances.entries ++ entries) := by
  induction entries generalizing balances with
  | nil => exact ⟨balances, rfl, by rw [List.append_nil]⟩
  | cons entry rest ih =>
    have fresh : entry.1.text ∉ balances.entries.map (·.1.text) := by
      rw [List.map_append, List.nodup_append] at distinct
      intro found
      exact distinct.2.2 _ found _ List.mem_cons_self rfl
    have inserted : ((balances.insert entry.1 entry.2).entries ++ rest).Perm
        (balances.entries ++ entry :: rest) :=
      ((insertEntry_perm fresh).append_right rest).trans List.perm_middle.symm
    obtain ⟨result, read, order⟩ := ih (balances.insert entry.1 entry.2)
      ((inserted.map (·.1.text)).nodup_iff.mpr distinct)
    refine ⟨result, ?_, order.trans inserted⟩
    rw [List.map_cons, readMembers_member, read]

theorem eq_of_perm {balances others : TokenBalances}
    (order : balances.entries.Perm others.entries) : balances = others := by
  obtain ⟨entries, sorted⟩ := balances
  obtain ⟨entries', sorted'⟩ := others
  obtain rfl : entries = entries' :=
    List.Perm.eq_of_pairwise
      (fun a b _ _ before after => absurd (String.lt_trans before after) (String.lt_irrefl _))
      sorted sorted' order
  rfl

theorem exists_entries_of_presents {balances : TokenBalances} {tree : Json}
    (presents : Json.Presents (codec.encode balances) tree) :
    ∃ (entries : List (TokenId × UInt64)) (ends : Json.Ending),
      tree = .object (entries.map member) ends ∧ ends ≠ .broken ∧
        entries.Perm balances.entries := by
  rw [encode_eq] at presents
  obtain ⟨members, ends, rfl, complete, distinct, names, all⟩ := presents.of_ofMembers
  have names' := balances.nodup_texts
  rw [← map_fst_member] at names'
  -- No member is lost, and there are as many as were written.
  have kept : balances.entries.map member ⊆ members := by
    intro written hw
    obtain ⟨entry, -, rfl⟩ := List.mem_map.mp hw
    obtain ⟨value, there, same⟩ := all _ _ hw
    have number : value = Json.ofInt entry.2.toNat := Json.Presents.eq_ofInt same
    rw [number] at there
    exact there
  have count : members.length = (balances.entries.map member).length := by
    simpa using names.length_eq
  have order : members.Perm (balances.entries.map member) :=
    ((names'.of_map.subperm kept).perm_of_length_le (Nat.le_of_eq count)).symm
  have paired : List.Forall₂ (fun written entry => written = member entry)
      (balances.entries.map member) balances.entries := by
    rw [List.forall₂_map_left_iff]
    exact List.forall₂_same.mpr fun _ _ => rfl
  obtain ⟨entries, written, perm⟩ := List.perm_comp_forall₂ order paired
  refine ⟨entries, ends, ?_, complete, perm⟩
  have same : members = entries.map member := by
    rw [← List.forall₂_eq_eq_eq, List.forall₂_map_right_iff]
    exact written
  rw [same]

@[simp] theorem codec_within : codec.WritesWithin 1 := by
  intro balances
  rw [encode_eq, Json.depth_ofMembers]
  refine Nat.succ_le_succ (Json.depthOfMembers_le fun written hw => ?_)
  obtain ⟨entry, -, rfl⟩ := List.mem_map.mp hw
  exact Nat.le_refl 0

theorem codec_restores (balances : TokenBalances) : codec.Restores balances where
  written := by
    rw [encode_eq]
    refine Json.Written.members (by rw [map_fst_member]; exact balances.nodup_texts) ?_
    intro entry he
    obtain ⟨entry, -, rfl⟩ := List.mem_map.mp he
    exact (Codec.restores_uint64 entry.2).written
  ne_null h := by cases h
  decode _ tree presents := by
    obtain ⟨entries, ends, rfl, complete, order⟩ := exists_entries_of_presents presents
    have distinct : ((empty.entries ++ entries).map (·.1.text)).Nodup :=
      (order.map (·.1.text)).nodup_iff.mpr balances.nodup_texts
    obtain ⟨result, read, all⟩ := readMembers_perm entries empty distinct
    obtain rfl : result = balances := eq_of_perm (all.trans order)
    show (do
      let balances ← readMembers empty (entries.map member)
      Codec.checkEnding ends
      return balances) = _
    rw [read]
    show (do
      Codec.checkEnding ends
      return result) = _
    rw [Codec.checkEnding_of_ne complete]
    rfl

end LedgerClient.TokenBalances
