import BridgeMint.Proofs.Store.Effects
import BridgeMint.Proofs.Store.Root

/-!
# Entries of a ledger

What messages do to the accounts can be written down as entries: a message counted, an amount taken or
given, an amount minted.  Each entry adds to what came before, whatever that was, so a list of entries says
what is different afterwards, and the order of the entries does not matter.
-/

namespace BridgeMint

/-- One entry of what is done to the accounts. -/
inductive Posting where
  /-- A message of the account was counted. -/
  | counted (account : Address)
  | taken (account : Address) (amount : Nat)
  | given (account : Address) (amount : Nat)
  /-- The mint contract lowered what is left to mint. -/
  | minted (amount : Nat)

namespace Posting

/-- The account that is written. -/
def account : Posting → Address
  | counted a | taken a _ | given a _ => a
  | minted _ => MintContract.address

/-- The messages of an account that are counted. -/
def counts (a : Address) : Posting → Nat
  | counted b => if a = b then 1 else 0
  | _ => 0

/-- What is taken from an account. -/
def debits (a : Address) : Posting → Nat
  | taken b amount => if a = b then amount else 0
  | _ => 0

/-- What is given to an account. -/
def credits (a : Address) : Posting → Nat
  | given b amount => if a = b then amount else 0
  | _ => 0

/-- What is minted. -/
def mints : Posting → Nat
  | minted amount => amount
  | _ => 0

end Posting

namespace Store

/-- The store `t` comes from `s` by the entries: what they add up to is all that is different. -/
structure Posted (entries : List Posting) (s t : Store) : Prop where
  nonce_eq : ∀ a, (t.nonce a).toNat = (s.nonce a).toNat + (entries.map (·.counts a)).sum
  balance_eq : ∀ a, (t.balance a).toNat + (entries.map (·.debits a)).sum =
    (s.balance a).toNat + (entries.map (·.credits a)).sum
  mintLimit_eq : t.mintLimit.toNat + (entries.map (·.mints)).sum = s.mintLimit.toNat
  word_eq : ∀ a key, ¬ (a = MintContract.address ∧ key = MintContract.limitSlot) →
    t.word a key = s.word a key
  touched : Touched (entries.map (·.account)) s t

/-! ## Lists of entries -/

theorem posted_nil (s : Store) : Posted [] s s :=
  ⟨fun _ => rfl, fun _ => rfl, rfl, fun _ _ _ => rfl, fun a => by simp, fun _ => rfl, fun _ => rfl⟩

/-- Entries after entries are all of them in a row. -/
theorem Posted.trans {entries entries' : List Posting} {s t u : Store} (h : Posted entries s t)
    (h' : Posted entries' t u) : Posted (entries ++ entries') s u := by
  refine ⟨fun a => ?_, fun a => ?_, ?_, fun a key hne => ?_, ?_⟩
  · rw [h'.nonce_eq, h.nonce_eq, List.map_append, List.sum_append, Nat.add_assoc]
  · -- Whatever is given in both is given in the sum, and likewise for what is taken.
    have hfirst := h.balance_eq a
    have hsecond := h'.balance_eq a
    simp only [List.map_append, List.sum_append]
    omega
  · have hfirst := h.mintLimit_eq
    have hsecond := h'.mintLimit_eq
    simp only [List.map_append, List.sum_append]
    omega
  · rw [h'.word_eq a key hne, h.word_eq a key hne]
  · rw [List.map_append]
    exact h.touched.trans h'.touched

/-- Entries are read off the accounts. -/
theorem Posted.congr {entries : List Posting} {s t t' : Store} (h : Posted entries s t)
    (ht : t'.accounts = t.accounts) : Posted entries s t' := by
  obtain ⟨accounts, _, _, _, _, _⟩ := t'
  subst ht
  exact ⟨h.nonce_eq, h.balance_eq, h.mintLimit_eq, h.word_eq, h.touched.hasAccount_iff,
    h.touched.code_eq, h.touched.digest_eq⟩

/-- The same entries in another order come to the same reads. -/
theorem Posted.sameReads {entries entries' : List Posting} {s t t' : Store} (h : Posted entries s t)
    (h' : Posted entries' s t') (hperm : entries.Perm entries') : t.SameReads t' := by
  -- A sum does not depend on the order.
  have hsum : ∀ f : Posting → Nat, (entries.map f).sum = (entries'.map f).sum := fun f =>
    (hperm.map f).sum_eq
  refine ⟨fun a => ?_, fun a => ?_, fun a => ?_, fun a => ?_, fun a key => ?_⟩
  · rw [Bool.eq_iff_iff, h.touched.hasAccount_iff, h'.touched.hasAccount_iff, (hperm.map _).mem_iff]
  · rw [← UInt64.toNat_inj, h.nonce_eq, h'.nonce_eq, hsum]
  · have hbalance := h.balance_eq a
    have hbalance' := h'.balance_eq a
    rw [hsum, hsum] at hbalance
    rw [← UInt256.toNat_inj]
    omega
  · rw [h.touched.code_eq, h'.touched.code_eq]
  · by_cases hslot : a = MintContract.address ∧ key = MintContract.limitSlot
    · -- What is left to mint is a number, and the word is that number.
      obtain ⟨rfl, rfl⟩ := hslot
      have hlimit := h.mintLimit_eq
      have hlimit' := h'.mintLimit_eq
      rw [hsum] at hlimit
      have hsame : t.mintLimit = t'.mintLimit := by
        rw [← UInt256.toNat_inj]
        omega
      have hword := congrArg UInt256.toWord hsame
      rw [mintLimit, mintLimit, UInt256.toWord_ofWord, UInt256.toWord_ofWord] at hword
      exact hword
    · rw [h.word_eq a key hslot, h'.word_eq a key hslot]

/-! ## Single entries -/

/-- A written balance is an entry that says by how much it changed. -/
theorem BalancesWritten.posted {entry : Posting} {a : Address} {s t : Store}
    (h : BalancesWritten [a] s t) (haccount : entry.account = a)
    (hcounts : ∀ a, entry.counts a = 0) (hmints : entry.mints = 0)
    (hbalance : ∀ a', (t.balance a').toNat + entry.debits a' =
      (s.balance a').toNat + entry.credits a') : Posted [entry] s t := by
  refine ⟨fun a' => ?_, fun a' => ?_, ?_, fun a' key _ => h.word_eq a' key, ?_⟩
  · simp [hcounts, h.nonce_eq]
  · simpa using hbalance a'
  · simp [hmints, h.mintLimit_eq]
  · simpa [haccount] using h.toTouched

theorem posted_subBalance {s t : Store} {a : Address} {amount : UInt256}
    (h : s.subBalance a amount = .ok t) : Posted [.taken a amount.toNat] s t := by
  obtain ⟨hwritten, hbalance⟩ := subBalance_effect h
  exact hwritten.posted rfl (fun _ => rfl) rfl hbalance

theorem posted_addBalance {s t : Store} {a : Address} {amount : UInt256}
    (h : s.addBalance a amount = .ok t) : Posted [.given a amount.toNat] s t := by
  obtain ⟨hwritten, hbalance⟩ := addBalance_effect h
  exact hwritten.posted rfl (fun _ => rfl) rfl hbalance

/-- Raising a nonce by one is one entry. -/
theorem posted_setNonce {s : Store} {a : Address} {next : UInt64}
    (hnext : next.toNat = (s.nonce a).toNat + 1) : Posted [.counted a] s (s.setNonce a next) := by
  have htouched : Touched [a] s (s.setNonce a next) := touched_write s a (m := .nonce next) nofun
  refine ⟨fun a' => ?_, fun a' => ?_, ?_, fun a' key _ => word_setNonce s a a' next key, htouched⟩
  · rw [setNonce_eq_write, nonce_write]
    split
    · next heq =>
      rw [heq, List.map_singleton, List.sum_singleton, Posting.counts, if_pos rfl]
      exact hnext
    · next hne =>
      rw [List.map_singleton, List.sum_singleton, Posting.counts, if_neg hne]
      rfl
  · -- The write of a nonce keeps every balance, and what is left to mint.
    have hbalance : (s.setNonce a next).balance a' = s.balance a' :=
      record_write_congr (m := .nonce next) (·.header.balance) rfl a'
    rw [hbalance]
    rfl
  · rw [mintLimit_setNonce]
    rfl

/-- Lowering what is left to mint is one entry. -/
theorem posted_setLimit {s : Store} {limit : UInt256} {amount : Nat}
    (hlimit : limit.toNat + amount = s.mintLimit.toNat) :
    Posted [.minted amount] s
      (s.setWord MintContract.address MintContract.limitSlot limit.toWord) := by
  have htouched : Touched [MintContract.address] s
      (s.setWord MintContract.address MintContract.limitSlot limit.toWord) :=
    touched_write s _ (m := .word MintContract.limitSlot limit.toWord) nofun
  refine ⟨fun a => ?_, fun a => ?_, ?_, fun a key hne => ?_, htouched⟩
  · rw [nonce_setWord]
    rfl
  · rw [balance_setWord]
    rfl
  · rw [mintLimit_setWord]
    exact hlimit
  · rw [word_setWord, if_neg hne]

end Store

end BridgeMint
