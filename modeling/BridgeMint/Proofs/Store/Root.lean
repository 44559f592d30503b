import BridgeMint.Proofs.Canonical.Records
import BridgeMint.Proofs.Store.Invariant
import BridgeMint.Store.Root

/-!
# The encoding of the accounts is canonical

Two stores that answer every read alike have the same accounts, however they came about: a stored word is
never zero, and the digest of the code follows from the code.  The encoding lists the accounts in the
order of their addresses, and its parts can be told apart, so that the accounts can be read back from it.
-/

namespace BridgeMint

namespace AccountRecord

/-! ## What can be read of a record -/

/-- What can be read of a record. -/
def shown (r : AccountRecord) : UInt64 × UInt256 × Bytes × SortedMap Word Word :=
  (r.header.nonce, r.header.balance, r.code, r.storage)

/-- Which words are stored, and which not, can be read off the words. -/
theorem Sound.get?_eq {r : AccountRecord} (h : r.Sound) (key : Word) :
    r.storage.get? key = if r.word key = .zero then none else some (r.word key) := by
  cases hget : r.storage.get? key with
  | none => simp [word, hget]
  | some value => simp [word, hget, h.word_ne_zero key value hget]

/-- A record is determined by its nonce, balance, code and words. -/
theorem Sound.eq_of_reads {r r' : AccountRecord} (h : r.Sound) (h' : r'.Sound)
    (hnonce : r.header.nonce = r'.header.nonce) (hbalance : r.header.balance = r'.header.balance)
    (hcode : r.code = r'.code) (hword : ∀ key, r.word key = r'.word key) : r = r' := by
  have hdigest : r.header.codeHash = r'.header.codeHash := by
    rw [h.codeHash_eq, h'.codeHash_eq, hcode]
  have hstorage : r.storage = r'.storage := by
    refine SortedMap.ext_get? fun key => ?_
    rw [h.get?_eq, h'.get?_eq, hword]
  obtain ⟨⟨nonce, balance, codeHash⟩, code, storage⟩ := r
  obtain ⟨⟨nonce', balance', codeHash'⟩, code', storage'⟩ := r'
  simp only at hnonce hbalance hdigest hcode hstorage
  rw [hnonce, hbalance, hdigest, hcode, hstorage]

end AccountRecord

namespace Store

/-- Two stores answer alike whether an account exists, its nonce, its balance, its code and its words. -/
structure SameReads (s t : Store) : Prop where
  hasAccount_eq : ∀ a, s.hasAccount a = t.hasAccount a
  nonce_eq : ∀ a, s.nonce a = t.nonce a
  balance_eq : ∀ a, s.balance a = t.balance a
  code_eq : ∀ a, s.code a = t.code a
  word_eq : ∀ a key, s.word a key = t.word a key

/-- Reads look at the accounts, and not at their digests. -/
theorem sameReads_of_shown {s t : Store}
    (h : s.accounts.map AccountRecord.shown = t.accounts.map AccountRecord.shown) : s.SameReads t := by
  have hget : ∀ a, (s.accounts.get? a).map AccountRecord.shown =
      (t.accounts.get? a).map AccountRecord.shown := by
    intro a
    rw [← SortedMap.get?_map, ← SortedMap.get?_map, h]
  have hrecord : ∀ a, (s.record a).shown = (t.record a).shown := by
    intro a
    rw [record, record, ← Option.getD_map AccountRecord.shown, hget, Option.getD_map]
  -- Every read but that of existence looks at a shown part of the record.
  refine ⟨fun a => ?_, fun a => ?_, fun a => ?_, fun a => ?_, fun a key => ?_⟩
  · rw [hasAccount_eq_isSome, hasAccount_eq_isSome, ← Option.isSome_map, hget, Option.isSome_map]
  · exact congrArg (·.1) (hrecord a)
  · exact congrArg (·.2.1) (hrecord a)
  · exact congrArg (·.2.2.1) (hrecord a)
  · exact congrArg (fun shown => (shown.2.2.2.get? key).getD .zero) (hrecord a)

/-- The accounts are determined by what can be read. -/
theorem SameReads.accounts_eq {s t : Store} (h : s.SameReads t) (hs : s.Sound) (ht : t.Sound) :
    s.accounts = t.accounts := by
  -- Account by account: both stores have it or neither has, and its records read alike.
  refine SortedMap.ext_get? fun a => ?_
  have hexists := h.hasAccount_eq a
  cases hsa : s.hasAccount a with
  | false =>
    have hta : t.hasAccount a = false := hexists.symm.trans hsa
    rw [get?_of_not_hasAccount hsa, get?_of_not_hasAccount hta]
  | true =>
    have hta : t.hasAccount a = true := hexists.symm.trans hsa
    have hrecord : s.record a = t.record a :=
      (hs.record a).eq_of_reads (ht.record a) (h.nonce_eq a) (h.balance_eq a) (h.code_eq a)
        (h.word_eq a)
    rw [get?_of_hasAccount hsa, get?_of_hasAccount hta, hrecord]

/-! ## What is encoded -/

/-- An account as it is listed for the encoding. -/
def listed (entry : Address × AccountRecord) : Address × Account × Bytes × List (Word × Word) :=
  (entry.1, entry.2.header, entry.2.code, entry.2.storage.entries)

/-- What is hashed is the list of accounts in the order of their addresses. -/
theorem encodeAccounts_eq (s : Store) :
    s.encodeAccounts = Codec.accountEntries.encode (s.accounts.entries.map listed) := rfl

/-- Different entries are listed differently: the words are in order, so their list determines the map. -/
theorem listed_injective : Function.Injective listed := by
  rintro ⟨a, header, code, storage⟩ ⟨a', header', code', storage'⟩ h
  simp only [listed, Prod.mk.injEq] at h
  obtain ⟨rfl, rfl, rfl, hentries⟩ := h
  rw [SortedMap.ext hentries]

/-- Four bytes are enough for the number of accounts, the length of each code and the number of words of
each account. -/
structure FitsCounts (s : Store) : Prop where
  accounts : s.accounts.size < 2 ^ 32
  code : ∀ a, (s.code a).length < 2 ^ 32
  storage : ∀ a, (s.record a).storage.size < 2 ^ 32

/-- The counts are those of the accounts that exist; the others have neither code nor words. -/
theorem fitsCounts_iff {s : Store} :
    s.FitsCounts ↔ s.accounts.size < 2 ^ 32 ∧
      ∀ entry ∈ s.accounts.entries,
        entry.2.code.length < 2 ^ 32 ∧ entry.2.storage.size < 2 ^ 32 := by
  constructor
  · intro h
    refine ⟨h.accounts, ?_⟩
    rintro ⟨a, r⟩ hmem
    have hrecord : s.record a = r := record_of_get? ((SortedMap.mem_entries _ _).mp hmem)
    have hcode := h.code a
    have hstorage := h.storage a
    rw [code, hrecord] at hcode
    rw [hrecord] at hstorage
    exact ⟨hcode, hstorage⟩
  · rintro ⟨haccounts, hentries⟩
    have hrecord : ∀ a, (s.record a).code.length < 2 ^ 32 ∧ (s.record a).storage.size < 2 ^ 32 := by
      intro a
      -- An account that does not exist reads as a record without code and words.
      cases hexists : s.hasAccount a with
      | false =>
        rw [record_of_not_hasAccount hexists]
        decide
      | true => exact hentries _ ((SortedMap.mem_entries _ (a, s.record a)).mpr (get?_of_hasAccount hexists))
    refine ⟨haccounts, fun a => ?_, fun a => ?_⟩
    · obtain ⟨hcode, -⟩ := hrecord a
      exact hcode
    · obtain ⟨-, hstorage⟩ := hrecord a
      exact hstorage

instance (s : Store) : Decidable s.FitsCounts :=
  decidable_of_iff _ fitsCounts_iff.symm

/-- A list of accounts can be read back if four bytes are enough for its counts. -/
theorem restores_accountEntries :
    Codec.accountEntries.Restores fun entries =>
      entries.length < 2 ^ 32 ∧
        ∀ entry ∈ entries, entry.2.2.1.length < 2 ^ 32 ∧ entry.2.2.2.length < 2 ^ 32 := by
  have hwords := (Codec.exact_fixedBytes 32).pair (Codec.exact_fixedBytes 32)
  have hrecord := Codec.exact_account.pair (Codec.exact_byteString.pair hwords.list)
  have hentries : Codec.accountEntries.Exact _ := ((Codec.exact_fixedBytes 20).pair hrecord).list
  refine hentries.restores.mono fun entries ⟨hcount, hentry⟩ => ⟨hcount, fun entry hmem => ?_⟩
  obtain ⟨hcode, hstorage⟩ := hentry entry hmem
  -- Addresses, digests and words have a fixed length, so only the two counts have to fit.
  exact ⟨trivial, trivial, hcode, hstorage, fun _ _ => ⟨trivial, trivial⟩⟩

/-- The counts of the store are those of its list. -/
theorem FitsCounts.listed {s : Store} (h : s.FitsCounts) :
    (s.accounts.entries.map listed).length < 2 ^ 32 ∧
      ∀ entry ∈ s.accounts.entries.map Store.listed,
        entry.2.2.1.length < 2 ^ 32 ∧ entry.2.2.2.length < 2 ^ 32 := by
  obtain ⟨haccounts, hentries⟩ := fitsCounts_iff.mp h
  rw [List.length_map]
  exact ⟨haccounts, List.forall_mem_map.mpr hentries⟩

/-- Different accounts have different encodings. -/
theorem encodeAccounts_inj {s t : Store} (hs : s.FitsCounts) (ht : t.FitsCounts) :
    s.encodeAccounts = t.encodeAccounts ↔ s.accounts = t.accounts := by
  rw [encodeAccounts_eq, encodeAccounts_eq, restores_accountEntries.encode_inj hs.listed ht.listed,
    (List.map_injective_iff.mpr listed_injective).eq_iff]
  constructor
  · exact SortedMap.ext
  · intro h
    rw [h]

/-- Two stores, however they came about, hash the same byte string if and only if they answer every read
alike. -/
theorem encodeAccounts_eq_iff_sameReads {s t : Store} (hs : s.Reachable) (ht : t.Reachable)
    (hsfits : s.FitsCounts) (htfits : t.FitsCounts) :
    s.encodeAccounts = t.encodeAccounts ↔ s.SameReads t := by
  rw [encodeAccounts_inj hsfits htfits]
  constructor
  · intro h
    exact sameReads_of_shown (by rw [h])
  · intro h
    exact h.accounts_eq hs.sound ht.sound

/-- An account with a nonce, and another one with a word, in three writes. -/
def directStore : Store :=
  (withBalances [(.ofNat 7, .ofNat 1000)]).after
    [.setNonce (.ofNat 7) 3, .setWord (.ofNat 9) (.ofNat 1) (.ofNat 5)]

/-- The same accounts by a detour: written in another order, with a word and code that do not stay, a
zero word, and a change that is taken back. -/
def detourStore : Store :=
  (withBalances []).after
    [.setWord (.ofNat 9) (.ofNat 2) (.ofNat 6), .setCode (.ofNat 9) [1],
      .setWord (.ofNat 9) (.ofNat 1) (.ofNat 5), .snapshot, .addBalance (.ofNat 8) (.ofNat 1),
      .setNonce (.ofNat 9) 2, .revertTo 0, .setCode (.ofNat 9) [], .addBalance (.ofNat 7) (.ofNat 1000),
      .setWord (.ofNat 9) (.ofNat 2) .zero, .setWord (.ofNat 7) (.ofNat 4) .zero,
      .setNonce (.ofNat 7) 3, .commit]

theorem encodeAccounts_eq_iff_sameReads_detour :
    directStore.encodeAccounts = detourStore.encodeAccounts ∧
      directStore.encodeAccounts ≠ (detourStore.setNonce (.ofNat 8) 0).encodeAccounts := by
  have hdirect : directStore.Reachable := (Reachable.withBalances _).after _
  have hdetour : detourStore.Reachable := (Reachable.withBalances _).after _
  have hlater : (detourStore.setNonce (.ofNat 8) 0).Reachable := hdetour.perform (.setNonce (.ofNat 8) 0)
  constructor
  · -- The digests are left out, so that nothing has to be hashed.
    have hshown : directStore.accounts.map AccountRecord.shown =
        detourStore.accounts.map AccountRecord.shown := by decide +kernel
    exact (encodeAccounts_eq_iff_sameReads hdirect hdetour (by decide) (by decide)).mpr
      (sameReads_of_shown hshown)
  · -- The nonce is what it was, but now the account exists.
    intro heq
    have hreads := (encodeAccounts_eq_iff_sameReads hdirect hlater (by decide) (by decide)).mp heq
    exact absurd (hreads.hasAccount_eq (.ofNat 8)) (by decide)

end Store

end BridgeMint
