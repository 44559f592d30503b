import BridgeMint.Proofs.Transition.Balances

/-!
# Conservation of value

A message that is carried out keeps the sum of all balances and what is left to mint: a mint moves its
amount from the latter to the former, and everything else moves value between accounts.
-/

namespace BridgeMint

namespace Step

variable {σ : Type} {executor : Executor σ} {context : ExecutionContext} {message : Message}

/-- A call that succeeds keeps what there is in all. -/
theorem CallBody.supply {s t : Store} (h : CallBody executor context message s true t)
    (hc : executor.Conserves) (hs : s.Reachable) : t.supply = s.supply := by
  -- The case of a creation is ruled out, because it does not succeed.
  generalize hb : true = b at h
  cases h with
  | creation _ => cases hb
  | transfer hmoved =>
    rw [Store.supply, hmoved.totalBalance, hmoved.rebalanced.mintLimit_eq]
    rfl
  | @code v request hmoved =>
    obtain ⟨htotal, hword⟩ := hc context request v (hmoved.reachable hs) hb.symm
    have hlimit := hmoved.rebalanced.mintLimit_eq
    simp only [Store.supply, Store.mintLimit] at hlimit ⊢
    rw [htotal, hword, hmoved.totalBalance, hlimit]

/-- A mint moves its amount from what is left to mint to its sender. -/
theorem supply_mint {s u : Store} {instruction : Instruction} {next : UInt64} {log : Log}
    (hmint : message.mintIn? s = some instruction)
    (hadd : (beforeMint instruction next s).addBalance instruction.sender instruction.amount =
      .ok u) : (u.addLog log).supply = s.supply := by
  obtain ⟨-, -, -, hlimit⟩ := mintIn?_eq_some hmint
  have hleft := UInt256.checkedSub_eq_some_iff.mp hlimit
  obtain ⟨htotal, -⟩ := Store.totalBalance_addBalance hadd
  -- Adding a log has no part in it.
  show u.totalBalance + u.mintLimit.toNat = s.totalBalance + s.mintLimit.toNat
  rw [htotal, totalBalance_beforeMint, mintLimit_of_mint hadd]
  omega

/-- Whichever way a message runs, it keeps what there is in all. -/
theorem Body.supply {s t : Store} {b : Bool} (h : Body executor context message s b t)
    (hj : executor.Journaled) (hc : executor.Conserves) (hs : s.Reachable) :
    t.supply = s.supply := by
  cases h with
  | unpaidMint _ =>
    -- A mint that cannot be paid for only counts the nonce.
    rw [Store.supply, Store.totalBalance_setNonce, Store.mintLimit_setNonce]
    rfl
  | mint hmint _ hadd => exact supply_mint hmint hadd
  | call hbody =>
    rw [hbody.supply hc (beforeCall_reachable message hs), Store.supply, totalBalance_beforeCall,
      mintLimit_beforeCall]
    rfl
  | failedCall hbody hrevert =>
    -- Whatever a failed call has done is taken back.
    have hagree := failedCall_agree hbody hj hs hrevert
    rw [Store.supply, hagree.totalBalance, hagree.mintLimit, Store.totalBalance_setNonce,
      Store.mintLimit_setNonce]
    rfl

/-- A message that is carried out keeps the sum of all balances and what is left to mint, whichever way
it runs and whichever of the accounts involved are the same. -/
theorem supply_applyMessage {config : ChainConfig} {outcome : Outcome} {w w' : World σ}
    (hw : w.store.Reachable) (hj : executor.Journaled) (hc : executor.Conserves)
    (h : runOn (applyMessage config executor context message) w = (.ok outcome, w')) :
    w'.store.supply = w.store.supply := by
  obtain ⟨cost, s, t, u, meter, happrove, hbuy, hbody, hmeter, hrefund, hfee⟩ := applyMessage_ok h
  -- Buying the gas takes the cost out, and running the message keeps what is left.
  obtain ⟨hbought, hs⟩ := Store.totalBalance_subBalance hbuy
  have hran := hbody.supply hj hc (hw.subBalance hbuy)
  obtain ⟨hrefunded, hu⟩ := Store.totalBalance_addBalance hrefund
  obtain ⟨hpaid, hw'⟩ := Store.totalBalance_addBalance hfee
  -- What is paid back and what is paid as a fee make up the cost.
  have hfees := refund_add_fee hmeter (message.toNat_of_approve happrove)
  simp only [Store.supply, hw'.mintLimit_eq, hu.mintLimit_eq, hs.mintLimit_eq] at hran ⊢
  omega

/-- Code that writes one word of its own storage and adds a log. -/
def counterScripts : List (Address × Executor.Script) :=
  [(.ofNat 9, ⟨[.setWord (.ofNat 9) .zero (.ofUInt64 1), .addLog (.unplaced (.ofNat 9) [] [] 1)],
    .success [] 50⟩)]

/-- Such code conserves value: it writes no balance, and no word of the mint contract. -/
theorem conserves_counterScripts : (Executor.scripted counterScripts).Conserves := by
  intro context request w _ hsucceeded
  rcases Executor.answer_scripted counterScripts context request w with
    ⟨hfailed, -⟩ | ⟨entry, hentry, -, hstore⟩
  · rw [hfailed] at hsucceeded
    cases hsucceeded
  · rw [List.mem_singleton.mp hentry] at hstore
    rw [hstore]
    refine ⟨Store.totalBalance_setWord w.store _ _ _, ?_⟩
    show (w.store.write (.ofNat 9) (.word .zero (.ofUInt64 1))).word MintContract.address _ = _
    rw [Store.word_write, if_neg (by decide)]

/-- A call of that code, with a value. -/
def counterRun : Except LedgerError Outcome × World (List Executor.ScriptedCall) :=
  runOn (applyMessage .mainnet (.scripted counterScripts) (.ofBlock (.simple 1 (.ofNat 8)))
      ((Message.call (.ofNat 7) (.ofNat 9) 0 30000 2).withValue 3))
    (.ofStore ((Store.withBalances [(.ofNat 7, .ofNat 100000)]).perform (.setCode (.ofNat 9) [0])) [])

theorem supply_applyMessage_counter :
    counterRun.1 = .ok ⟨21050, none, [], false⟩ ∧ counterRun.2.store.supply = 100000 := by
  have hreachable : ((Store.withBalances [(.ofNat 7, .ofNat 100000)]).perform
      (.setCode (.ofNat 9) [0])).Reachable := (Store.Reachable.withBalances _).perform _
  have hjournaled : (Executor.scripted counterScripts).Journaled := by
    refine Executor.confined_scripted ?_
    simp [counterScripts, Operation.IsJournaled]
  have hresult : counterRun.1 = .ok ⟨21050, none, [], false⟩ := rfl
  have hrun : counterRun = (.ok ⟨21050, none, [], false⟩, counterRun.2) := Prod.ext hresult rfl
  have hbefore : ((Store.withBalances [(.ofNat 7, .ofNat 100000)]).perform
      (.setCode (.ofNat 9) [0])).supply = 100000 := rfl
  have hkept := supply_applyMessage hreachable hjournaled conserves_counterScripts hrun
  exact ⟨hresult, hkept.trans hbefore⟩

end Step

end BridgeMint
