import BridgeMint.Proofs.Store.Copying
import BridgeMint.Proofs.Transition.Settlement

/-!
# What a failed message costs

A message that is carried out but fails leaves two traces: its nonce is counted, and the gas it used is
paid for.  Whatever its code did to the store is taken back exactly, as long as digests tell whether there
is code.
-/

namespace BridgeMint

namespace Executor

variable {σ : Type}

/-- The executor uses only operations that can be taken back exactly: the journal knows them, and the digest
tells whether the code they set is empty. -/
def Reversible (executor : Executor σ) : Prop :=
  executor.Confined fun s op => op.IsJournaled s.nextSnapshot ∧ op.CodeTold

/-- What can be taken back exactly can be taken back. -/
theorem Reversible.journaled {executor : Executor σ} (h : executor.Reversible) :
    executor.Journaled := by
  intro context request w hw
  obtain ⟨ops, hops, hstore⟩ := h context request w hw
  refine ⟨ops, fun op hop => ?_, hstore⟩
  obtain ⟨hjournaled, -⟩ := hops op hop
  exact hjournaled

end Executor

namespace Store

/-- A message has been counted and its fee has passed from the sender to the receiver; all else is as it
was. -/
structure CostsOnly (sender receiver : Address) (fee : Nat) (s t : Store) : Prop
    extends Settled sender receiver 0 fee s t where
  word_eq : ∀ a key, t.word a key = s.word a key
  logs_eq : t.logs = s.logs

theorem CodesTold.addBalance {s t : Store} (h : s.CodesTold) {a : Address} {amount : UInt256}
    (hadd : s.addBalance a amount = .ok t) : t.CodesTold := by
  obtain ⟨b, -, rfl⟩ := addBalance_eq_ok.mp hadd
  exact h.write nofun

theorem CodesTold.subBalance {s t : Store} (h : s.CodesTold) {a : Address} {amount : UInt256}
    (hsub : s.subBalance a amount = .ok t) : t.CodesTold := by
  obtain ⟨b, -, rfl⟩ := subBalance_eq_ok.mp hsub
  exact h.write nofun

end Store

namespace Step

variable {σ : Type} {executor : Executor σ} {context : ExecutionContext} {message : Message}
  {s t u : Store}

/-! ## Codes and their digests -/

theorem ValueMoved.codesTold (h : ValueMoved message s t) (hs : s.CodesTold) : t.CodesTold := by
  obtain ⟨recipient, v, -, hsub, hadd⟩ := h
  exact (hs.subBalance hsub).addBalance hadd

/-- A call of a reversible executor keeps them, too. -/
theorem CallBody.codesTold {b : Bool} (h : CallBody executor context message s b t)
    (he : executor.Reversible) (hs : s.Reachable) (htold : s.CodesTold) : t.CodesTold := by
  cases h with
  | creation _ => exact htold
  | transfer hmoved => exact hmoved.codesTold htold
  | @code v request hmoved =>
    have hv := hmoved.reachable hs
    obtain ⟨ops, hops, hstore⟩ := he context request v hv
    rw [hstore]
    refine (hmoved.codesTold htold).after hv.sound fun op hop => ?_
    obtain ⟨-, hcode⟩ := hops op hop
    exact hcode

/-! ## Failing -/

/-- A failed call is taken back exactly to where its nonce had just been counted. -/
theorem failedCall_accounts {b : Bool}
    (h : CallBody executor context message (beforeCall message s).2 b u) (he : executor.Reversible)
    (hs : s.Reachable) (htold : s.CodesTold) (hrevert : u.revertTo (beforeCall message s).1 = .ok t) :
    t.accounts = (s.setNonce message.sender (message.nonce + 1)).accounts := by
  have hagree := failedCall_agree h he.journaled hs hrevert
  rw [Store.setNonce_eq_write] at hagree ⊢
  have hcounted : (s.write message.sender (.nonce (message.nonce + 1))).CodesTold := htold.write nofun
  have hsound := hs.sound.write message.sender (.nonce (message.nonce + 1))
  -- What the call left, and what going back made of it.
  have hbefore := beforeCall_reachable message hs
  have hu := h.reachable he hbefore
  have hutold : u.CodesTold := h.codesTold he hbefore hcounted
  have hback : Store.Move u (.revertTo (beforeCall message s).1) t := .revertTo hrevert
  have hcode : (Operation.revertTo (beforeCall message s).1).CodeTold := trivial
  have httold : t.CodesTold := hutold.move hu.sound hcode hback
  exact hagree.accounts_eq (hu.sound.move hback) hsound httold hcounted

/-- Whichever way a message fails, its nonce is counted, and nothing else comes of it. -/
theorem Body.counted_of_failed (h : Body executor context message s false t)
    (he : executor.Reversible) (hs : s.Reachable) (htold : s.CodesTold)
    (hnonce : message.nonce = s.nonce message.sender) (hlast : message.nonce.toNat < 2 ^ 64 - 1) :
    Store.Counted message.sender 0 s t ∧ (∀ a key, t.word a key = s.word a key) ∧ t.logs = s.logs := by
  -- The nonce is not the last one, so it has a successor.
  have hnext := Message.toNat_next_nonce hnonce hlast
  have hcounted : Store.Counted message.sender 0 s
      (s.setNonce message.sender (message.nonce + 1)) :=
    Store.counted_setNonce hnext
  cases h with
  | @unpaidMint instruction hmint =>
    -- The mint is counted for its sender, who is that of the message.
    obtain ⟨-, -, hrenders⟩ := readable_of_mintIn? hmint
    rw [hrenders.sender_eq, ← hnonce]
    exact ⟨hcounted, fun a key => Store.word_setNonce s _ a _ key, Store.logs_setNonce s _ _⟩
  | failedCall hbody hrevert =>
    -- Words and logs follow from what the journal knows; the code takes the accounts themselves.
    have hagree := failedCall_agree hbody he.journaled hs hrevert
    have haccounts := failedCall_accounts hbody he hs htold hrevert
    refine ⟨hcounted.congr haccounts, fun a key => ?_, ?_⟩
    · rw [hagree.word, Store.word_setNonce]
    · rw [hagree.logs, Store.logs_setNonce]

/-- A message that is carried out but fails costs exactly the gas it used and a nonce.  This holds whatever
its code did and reported, and whichever of the accounts involved are the same. -/
theorem applyMessage_failed {config : ChainConfig} {outcome : Outcome} {w w' : World σ}
    (hw : w.store.Reachable) (htold : w.store.CodesTold) (he : executor.Reversible)
    (h : runOn (applyMessage config executor context message) w = (.ok outcome, w'))
    (hfailure : outcome.failure.isSome = true) :
    Store.CostsOnly message.sender (config.feeReceiver context.block)
      (outcome.gasUsed.toNat * message.gasPrice.toNat) w.store w'.store := by
  obtain ⟨hacceptable, meter, v₀, v, ran, -, hran, houtcome, ⟨cost, hbuy⟩, hbefore, hafter, hsettled⟩ :=
    applyMessage_settled h
  obtain ⟨hbody, -⟩ := runMessage_ok hran
  have hfailed : ran.failure.isNone = false := by
    rw [houtcome] at hfailure
    rw [← Option.not_isSome, hfailure]
    rfl
  rw [hfailed] at hbody
  -- Buying the gas has changed neither the nonce nor any code.
  have hnonce : message.nonce = v₀.store.nonce message.sender := by
    rw [hbefore.nonce_eq]
    exact hacceptable.nonce_eq
  obtain ⟨hcounted, hwords, hlogs⟩ := hbody.counted_of_failed he (hw.subBalance hbuy)
    (htold.subBalance hbuy) hnonce hacceptable.nonce_lt
  refine ⟨hsettled 0 hcounted, fun a key => ?_, ?_⟩
  · rw [hafter.word_eq, hwords, hbefore.word_eq]
  · rw [hafter.logs_eq, hlogs, hbefore.logs_eq]

/-- An account with funds, and one with code. -/
def codedStore : Store :=
  (Store.withBalances [(.ofNat 7, .ofNat 100000)]).perform
    (.setCode (.ofNat 9) MintContract.bytecode)

theorem codedStore_reachable : codedStore.Reachable :=
  (Store.Reachable.withBalances _).perform _

/-- The digest of its code is not that of no code. -/
theorem codesTold_codedStore : codedStore.CodesTold := by
  have hcode : (Operation.setCode (.ofNat 9) MintContract.bytecode).CodeTold := fun h =>
    absurd h MintContract.codeHash_ne_emptyDigest
  have hbefore := Store.codesTold_withBalances [(.ofNat 7, .ofNat 100000)]
  exact hbefore.move (Store.Reachable.withBalances _).sound hcode (Store.perform_move _ _)

/-- Code that writes, logs, takes a snapshot and gives away what it was sent, and then reports a failure
without a cause and more gas than there was. -/
def wastefulScripts : List (Address × Executor.Script) :=
  [(.ofNat 9, ⟨[.setWord (.ofNat 9) .zero (.ofUInt64 1), .addLog (.unplaced (.ofNat 9) [] [] 1),
    .snapshot, .subBalance (.ofNat 9) (.ofNat 3), .addBalance (.ofNat 10) (.ofNat 3),
    .setNonce (.ofNat 7) 40], ⟨false, [1], 1000000, none⟩⟩)]

/-- A call of that code with a value, in a block whose fees a new account receives. -/
def wastefulRun : Except LedgerError Outcome × World (List Executor.ScriptedCall) :=
  runOn (applyMessage .mainnet (.scripted wastefulScripts) (.ofBlock (.simple 1 (.ofNat 8)))
      ((Message.call (.ofNat 7) (.ofNat 9) 0 30000 2).withValue 3))
    (.ofStore codedStore [])

theorem applyMessage_failed_wasteful :
    wastefulRun.1 = .ok ⟨30000, some (.reverted none), [1], false⟩ ∧
      Store.CostsOnly (.ofNat 7) (.ofNat 8) 60000 codedStore wastefulRun.2.store := by
  have hreversible : (Executor.scripted wastefulScripts).Reversible := by
    refine Executor.confined_scripted ?_
    simp [wastefulScripts, Operation.IsJournaled, Operation.CodeTold]
  have hresult : wastefulRun.1 = .ok ⟨30000, some (.reverted none), [1], false⟩ := rfl
  have hrun : wastefulRun = (.ok ⟨30000, some (.reverted none), [1], false⟩, wastefulRun.2) := by
    rw [← hresult, Prod.mk.eta]
  exact ⟨hresult, applyMessage_failed codedStore_reachable codesTold_codedStore hreversible hrun rfl⟩

/-- The digest of the receiver of the fees does not stay as it was: it reads as zero before, when there is
no such account, and as that of no code once the account has come into being. -/
theorem codeHash_ne_of_failed_call :
    codedStore.Reachable ∧ codedStore.CodesTold ∧ (Executor.null : Executor Unit).Reversible ∧
      ∃ outcome w', runOn (applyMessage .mainnet (.null : Executor Unit)
          (.ofBlock (.simple 1 (.ofNat 8))) (.call (.ofNat 7) (.ofNat 9) 0 30000 2))
          (.ofStore codedStore ()) = (.ok outcome, w') ∧
        outcome.failure.isSome = true ∧
        w'.store.codeHash (.ofNat 8) ≠ codedStore.codeHash (.ofNat 8) := by
  refine ⟨codedStore_reachable, codesTold_codedStore, Executor.confined_null _, _, _, rfl, rfl, ?_⟩
  exact Word.emptyDigest_ne_zero

end Step

end BridgeMint
