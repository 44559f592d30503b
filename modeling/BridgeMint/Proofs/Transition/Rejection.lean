import BridgeMint.Proofs.Transition.Balances

/-!
# Which messages are refused

As long as all there is fits in 256 bits, the checks at the start are the only ones that refuse a
message.  Every later step that could be refused finds what it needs: the sender has been found able to
pay, no balance can exceed the sum of all, a call can always be taken back, and gas is charged only up to
what is left.
-/

namespace BridgeMint

namespace Step

variable {σ : Type} {executor : Executor σ} {context : ExecutionContext} {message : Message}
  {w : World σ}

/-! ## Steps that are not refused -/

theorem runOn_attempt_of_ok {f : Store → Except StoreError Store} {s : Store}
    (h : f w.store = .ok s) : runOn (attempt f) w = (.ok (), w.withStore s) :=
  attempt_ok.mpr ⟨s, h, rfl⟩

/-- Moving the value and running the code always comes to a result. -/
theorem exists_runOn_runInside (executor : Executor σ) (context : ExecutionContext)
    {meter : GasMeter} {limit : UInt64} (hmeter : meter.Within limit)
    (hvalue : message.value.toNat ≤ (w.store.balance message.sender).toNat)
    (hfits : w.store.totalBalance < UInt256.size) :
    ∃ ran v, runOn (runInside executor context message meter) w = (.ok ran, v) := by
  unfold runInside
  cases hrecipient : message.recipient with
  | none => exact ⟨_, _, rfl⟩
  | some recipient =>
    -- What was taken from the sender leaves room for what is given to the recipient.
    obtain ⟨u, hsub⟩ := Store.subBalance_of_le hvalue
    obtain ⟨htaken, -⟩ := Store.totalBalance_subBalance hsub
    have hroom : u.totalBalance + message.value.toNat < UInt256.size := by omega
    obtain ⟨t, hadd⟩ := Store.addBalance_of_fits hroom recipient
    simp only [runCode]
    rw [runOn_bind_of_ok (runOn_attempt_of_ok (f := (·.subBalance message.sender message.value)) hsub),
      runOn_bind_of_ok (runOn_attempt_of_ok (w := w.withStore u)
        (f := (·.addBalance recipient message.value)) hadd),
      runOn_bind_of_ok (runOn_store _)]
    split
    · exact ⟨_, _, rfl⟩
    · -- At most what is left is charged.
      rw [runOn_bind_of_ok (runOn_liftM _ _)]
      have hcharge : ∀ used, meter.charge (min used meter.remaining) =
          .ok { meter with used := meter.used + min used meter.remaining } := fun used =>
        hmeter.charge_remaining (Std.min_le_right)
      rw [runOn_bind_of_ok (charge_ok.mpr ⟨hcharge _, rfl⟩)]
      exact ⟨_, _, rfl⟩

/-- A call that failed can be taken back, so concluding a call is not refused. -/
theorem exists_runOn_concludeCall {id : Nat} (ran : Ran)
    (hrevert : ∃ t, w.store.revertTo id = .ok t) :
    ∃ ran' v, runOn (concludeCall id ran) w = (.ok ran', v) := by
  unfold concludeCall
  cases ran.failure with
  | none => exact ⟨_, _, rfl⟩
  | some cause =>
    obtain ⟨t, ht⟩ := hrevert
    simp only
    rw [runOn_bind_of_ok (revertTo_ok.mpr ⟨t, ht, rfl⟩)]
    -- The ways to fail differ only in what is left of the gas.
    cases cause <;> exact ⟨_, _, rfl⟩

/-- A call whose value is held runs to an end as long as all balances together fit. -/
theorem exists_runOn_runCall {meter : GasMeter} {limit : UInt64} (hmeter : meter.Within limit)
    (hj : executor.Journaled) (hw : w.store.Reachable)
    (hvalue : message.value.toNat ≤ (w.store.balance message.sender).toNat)
    (hfits : w.store.totalBalance < UInt256.size) :
    ∃ ran v, runOn (runCall executor context message meter) w = (.ok ran, v) := by
  unfold runCall
  rw [runOn_bind_of_ok (runOn_change _ _)]
  obtain ⟨w₁, hstart, hstore₁⟩ := exists_runOn_traceStart
    { sender := message.sender, recipient := message.recipient.getD .zero
      isCreation := message.isCreation, input := message.data, gas := meter.remaining
      value := message.value } (w.withStore (w.store.setNonce message.sender (message.nonce + 1)))
  rw [runOn_bind_of_ok hstart, runOn_bind_of_ok (runOn_snapshot _)]
  -- Counting the nonce and opening a snapshot leave the balances alone.
  have hopened : (w₁.withStore w₁.store.snapshot.2).store = (beforeCall message w.store).2 := by
    rw [World.store_withStore, hstore₁]
    rfl
  have hvalue' : message.value.toNat ≤
      ((beforeCall message w.store).2.balance message.sender).toNat := by
    have hbalance : (beforeCall message w.store).2.balance message.sender =
        w.store.balance message.sender := by
      show (w.store.write message.sender (.nonce (message.nonce + 1))).balance message.sender = _
      rw [Store.balance_write, if_pos rfl]
      rfl
    rw [hbalance]
    exact hvalue
  have hfits' : (beforeCall message w.store).2.totalBalance < UInt256.size := by
    rw [totalBalance_beforeCall]
    exact hfits
  rw [← hopened] at hvalue' hfits'
  obtain ⟨inner, w₂, hinside⟩ := exists_runOn_runInside executor context hmeter hvalue' hfits'
  rw [runOn_bind_of_ok hinside]
  -- The inside extends the store in which the snapshot was opened, so it can be taken back.
  obtain ⟨hbody, -⟩ := runInside_ok hinside
  rw [hopened] at hbody
  obtain ⟨t, hrevert, -⟩ := Store.revertTo_extends
    (hbody.extends hj (beforeCall_reachable message hw))
  have htaken : ∃ t, w₂.store.revertTo w₁.store.snapshot.1 = .ok t := by
    rw [hstore₁]
    exact ⟨t, hrevert⟩
  obtain ⟨ran, w₃, hconclude⟩ := exists_runOn_concludeCall inner htaken
  rw [runOn_bind_of_ok hconclude]
  obtain ⟨w₄, hend, -⟩ := exists_runOn_traceEnd
    { output := ran.output, gasUsed := meter.remaining - ran.meter.remaining
      failure := ran.failure.map CallError.message } w₃
  rw [runOn_bind_of_ok hend]
  exact ⟨ran, w₄, rfl⟩

/-- An instruction is carried out when the nonce has a successor and the amount fits. -/
theorem exists_runOn_applyInstruction (context : ExecutionContext) {instruction : Instruction}
    (gas : UInt64) (hnonce : (w.store.nonce instruction.sender).toNat + 1 < UInt64.size)
    (hfits : w.store.totalBalance + instruction.amount.toNat < UInt256.size) :
    ∃ v, runOn (applyInstruction context instruction gas) w = (.ok (), v) := by
  -- The nonce has a successor, and the amount fits wherever it is credited.
  have hnext : nextNonce? (w.store.nonce instruction.sender) =
      some (w.store.nonce instruction.sender + 1) := if_pos hnonce
  generalize w.store.nonce instruction.sender + 1 = next at hnext
  have hroom : (beforeMint instruction next w.store).totalBalance + instruction.amount.toNat <
      UInt256.size := by
    rw [totalBalance_beforeMint]
    exact hfits
  obtain ⟨u, hadd⟩ := Store.addBalance_of_fits hroom instruction.sender
  exact exists_runOn_applyInstruction_of_credit context gas hnext hadd

/-- A mint is not refused when the nonce has a successor and the amount fits. -/
theorem exists_runOn_runInstruction (context : ExecutionContext) (meter : GasMeter)
    {instruction : Instruction}
    (hnonce : (w.store.nonce instruction.sender).toNat + 1 < UInt64.size)
    (hfits : w.store.totalBalance + instruction.amount.toNat < UInt256.size) :
    ∃ ran v, runOn (runInstruction context meter instruction) w = (.ok ran, v) := by
  unfold runInstruction
  cases meter.charge context.schedule.mint with
  | error cause => exact ⟨_, _, rfl⟩
  | ok charged =>
    obtain ⟨v, happlied⟩ := exists_runOn_applyInstruction context meter.remaining hnonce hfits
    simp only
    rw [runOn_bind_of_ok happlied]
    exact ⟨_, _, rfl⟩

/-- Refund and fee together are what the gas cost, so they fit if that does. -/
theorem exists_runOn_settleFees (receiver : Address) {meter : GasMeter} {cost : UInt256}
    (hmeter : meter.Within message.gasLimit)
    (hcost : cost.toNat = message.gasLimit.toNat * message.gasPrice.toNat)
    (hfits : w.store.totalBalance + cost.toNat < UInt256.size) :
    ∃ v, runOn (settleFees receiver message meter) w = (.ok (), v) := by
  have hfees := refund_add_fee hmeter hcost
  have hroom : w.store.totalBalance +
      (UInt256.ofUInt64 meter.remaining * message.gasPrice).toNat < UInt256.size := by omega
  obtain ⟨u, hrefund⟩ := Store.addBalance_of_fits hroom message.sender
  obtain ⟨hrefunded, -⟩ := Store.totalBalance_addBalance hrefund
  -- The fee fits as well, since together they are the cost.
  have hroom' : u.totalBalance +
      (UInt256.ofUInt64 meter.used * message.gasPrice).toNat < UInt256.size := by omega
  obtain ⟨t, hfee⟩ := Store.addBalance_of_fits hroom' receiver
  unfold settleFees
  refine ⟨(w.withStore u).withStore t, ?_⟩
  rw [runOn_bind_of_ok (runOn_attempt_of_ok (f := (·.addBalance message.sender _)) hrefund)]
  exact runOn_attempt_of_ok (w := w.withStore u) (f := (·.addBalance receiver _)) hfee

/-! ## The balances in between -/

/-- However a message runs, the balances stay within what there was in all. -/
theorem Body.totalBalance_le {s t : Store} {b : Bool} (h : Body executor context message s b t)
    (hj : executor.Journaled) (hc : executor.CreatesNothing) (hs : s.Reachable) :
    t.totalBalance ≤ s.supply := by
  have htotal : s.totalBalance ≤ s.supply := Nat.le_add_right _ _
  cases h with
  | unpaidMint _ =>
    rw [Store.totalBalance_setNonce]
    exact htotal
  | @mint instruction next u hmint _ hadd =>
    -- The amount was left to mint before.
    obtain ⟨-, -, -, hlimit⟩ := mintIn?_eq_some hmint
    have hleft := UInt256.checkedSub_eq_some_iff.mp hlimit
    obtain ⟨hgiven, -⟩ := Store.totalBalance_addBalance hadd
    rw [totalBalance_beforeMint] at hgiven
    -- Given is at most what could still be minted.
    show u.totalBalance ≤ s.totalBalance + s.mintLimit.toNat
    omega
  | @call u hbody =>
    rw [← totalBalance_beforeCall message s] at htotal
    -- The value only moves, and the executor creates nothing.
    refine Nat.le_trans ?_ htotal
    generalize hb : true = b at hbody
    cases hbody with
    | creation _ => cases hb
    | transfer hmoved => exact Nat.le_of_eq hmoved.totalBalance
    | @code v request hmoved =>
      rw [← hmoved.totalBalance]
      exact hc context request v (hmoved.reachable (beforeCall_reachable message hs)) hb.symm
  | failedCall hbody hrevert =>
    -- A failed call leaves the counted nonce and no more.
    rw [(failedCall_agree hbody hj hs hrevert).totalBalance, Store.totalBalance_setNonce]
    exact htotal

/-! ## The whole message -/

/-- A message that is not acceptable is refused for the first condition that fails, and changes
nothing. -/
theorem runOn_applyMessage_of_rejection {config : ChainConfig} {e : LedgerError}
    (h : message.rejection? context.schedule w.store = some e) :
    runOn (applyMessage config executor context message) w = (.error e, w) := by
  rcases message.approve_eq context.schedule w.store with ⟨e', he', herror⟩ | ⟨cost, hnone, -⟩
  · rw [h] at he'
    cases he'
    unfold applyMessage
    rw [runOn_bind_of_ok (runOn_store w), herror]
    exact runOn_bind_of_error (runOn_liftExcept _ _)
  · -- Approved it cannot be, with a reason for refusal at hand.
    rw [h] at hnone
    cases hnone

/-- A message whose gas is paid and whose value is held runs to an end, be it a mint or a call. -/
theorem exists_runOn_runMessage (context : ExecutionContext) {meter : GasMeter} {limit : UInt64}
    (hmeter : meter.Within limit) (hj : executor.Journaled) (hw : w.store.Reachable)
    (hnonce : (w.store.nonce message.sender).toNat + 1 < UInt64.size)
    (hvalue : message.value.toNat ≤ (w.store.balance message.sender).toNat)
    (hfits : w.store.supply < UInt256.size) :
    ∃ ran v, runOn (runMessage executor context message meter (message.mintIn? w.store)) w =
      (.ok ran, v) := by
  have hall : w.store.supply = w.store.totalBalance + w.store.mintLimit.toNat := rfl
  cases hmint : message.mintIn? w.store with
  | some instruction =>
    obtain ⟨hsender, -, -, hlimit⟩ := mintIn?_eq_some hmint
    -- The amount is part of what is left to mint.
    have hleft := UInt256.checkedSub_eq_some_iff.mp hlimit
    rw [← hsender] at hnonce
    exact exists_runOn_runInstruction context meter hnonce (by omega)
  | none => exact exists_runOn_runCall hmeter hj hw hvalue (by omega)

/-- An acceptable message pays for its gas limit and is charged its intrinsic gas. -/
theorem exists_paid_of_acceptable {s : Store} (ha : message.Acceptable context.schedule s) :
    ∃ cost t meter, message.approve context.schedule s = .ok cost ∧
      cost.toNat = message.gasLimit.toNat * message.gasPrice.toNat ∧
      s.subBalance message.sender cost = .ok t ∧
      (GasMeter.start message.gasLimit).charge (message.intrinsicGas context.schedule) =
        .ok meter := by
  rcases message.approve_eq context.schedule s with ⟨e, he, -⟩ | ⟨cost, -, happrove, hcost⟩
  · rw [Message.rejection?_eq_none.mpr ha] at he
    cases he
  · -- What the message needs is the cost of its gas and the value, so the cost alone is held.
    have hpays : cost.toNat ≤ (s.balance message.sender).toNat := by
      have hneed := ha.need_le
      rw [Message.need] at hneed
      omega
    obtain ⟨t, hbuy⟩ := Store.subBalance_of_le hpays
    have hintrinsic : 0 + (message.intrinsicGas context.schedule).toNat ≤
        message.gasLimit.toNat := by
      rw [Nat.zero_add]
      exact ha.intrinsic_le
    exact ⟨cost, t, _, happrove, hcost, hbuy, GasMeter.charge_eq_ok.mpr ⟨hintrinsic, rfl⟩⟩

/-- An acceptable message is carried out. -/
theorem exists_runOn_applyMessage (config : ChainConfig) (hw : w.store.Reachable)
    (hfits : w.store.supply < UInt256.size) (hj : executor.Journaled)
    (hc : executor.CreatesNothing) (ha : message.Acceptable context.schedule w.store) :
    ∃ outcome v, runOn (applyMessage config executor context message) w = (.ok outcome, v) := by
  obtain ⟨cost, s, meter, happrove, hcost, hbuy, hcharge⟩ := exists_paid_of_acceptable ha
  have hmeter := (GasMeter.within_start message.gasLimit).charge hcharge
  obtain ⟨hbought, hs⟩ := Store.totalBalance_subBalance hbuy
  have hheld := Store.balance_subBalance hbuy
  obtain ⟨v, rfl, hrun⟩ := runOn_applyMessage config executor happrove hbuy hcharge
  have hv : v.store.Reachable := hw.subBalance hbuy
  -- The gas is out of the sender's hands, and what there is in all is less by its cost.
  have hsupply : v.store.supply + cost.toNat = w.store.supply := by
    simp only [Store.supply, hs.mintLimit_eq]
    omega
  have hnonce : (v.store.nonce message.sender).toNat + 1 < UInt64.size := by
    rw [hs.nonce_eq, ← ha.nonce_eq]
    have hlt := ha.nonce_lt
    simp only [UInt64.size]
    omega
  have hvalue : message.value.toNat ≤ (v.store.balance message.sender).toNat := by
    have hneed := ha.need_le
    rw [Message.need, ← hcost] at hneed
    omega
  obtain ⟨ran, u, hran⟩ := exists_runOn_runMessage context hmeter hj hv hnonce hvalue
    (by omega)
  -- However it ran, it leaves room for what is paid back.
  obtain ⟨hbody, hspends⟩ := runMessage_ok hran
  have hle := hbody.totalBalance_le hj hc hv
  obtain ⟨u', hsettle⟩ := exists_runOn_settleFees (w := u)
    (config.feeReceiver context.block) (hspends.within hmeter) hcost (by omega)
  rw [hrun, runOn_bind_of_ok hran]
  unfold closeMessage
  rw [runOn_bind_of_ok hsettle, runOn_bind_of_ok (runOn_note _ _)]
  exact ⟨_, _, rfl⟩

/-- As long as all there is fits in 256 bits, a message is carried out exactly if it meets the four
conditions; a message that is refused is refused for the first of them that fails, and everything stays
as it was.  A nonce that is counted up has a successor: it is that of the message, in the store that
runs it as well. -/
theorem applyMessage_isOk_iff {config : ChainConfig} (hw : w.store.Reachable)
    (hfits : w.store.supply < 2 ^ 256) (hj : executor.Journaled) (hc : executor.CreatesNothing) :
    ((∃ outcome, (runOn (applyMessage config executor context message) w).1 = .ok outcome) ↔
        message.Acceptable context.schedule w.store) ∧
      (∀ e, (runOn (applyMessage config executor context message) w).1 = .error e →
        message.rejection? context.schedule w.store = some e ∧
          (runOn (applyMessage config executor context message) w).2 = w) ∧
      (message.Acceptable context.schedule w.store →
        (message.nonce + 1).toNat = message.nonce.toNat + 1 ∧
          ∀ cost s, w.store.subBalance message.sender cost = .ok s →
            s.nonce message.sender = message.nonce) := by
  cases hrejection : message.rejection? context.schedule w.store with
  | some e =>
    -- A condition fails, and the message is refused for it.
    have hrefused : ¬ message.Acceptable context.schedule w.store := by
      intro ha
      rw [Message.rejection?_eq_none.mpr ha] at hrejection
      cases hrejection
    rw [runOn_applyMessage_of_rejection hrejection]
    refine ⟨⟨fun h => ?_, fun ha => absurd ha hrefused⟩, fun e' he' => ?_,
      fun ha => absurd ha hrefused⟩
    · obtain ⟨outcome, houtcome⟩ := h
      cases houtcome
    · cases he'
      exact ⟨rfl, rfl⟩
  | none =>
    -- All conditions hold, and nothing later refuses the message.
    have ha := Message.rejection?_eq_none.mp hrejection
    obtain ⟨outcome, v, hrun⟩ := exists_runOn_applyMessage config hw hfits hj hc ha
    rw [hrun]
    refine ⟨⟨fun _ => ha, fun _ => ⟨outcome, rfl⟩⟩, fun e' he' => ?_, fun _ => ⟨?_, ?_⟩⟩
    · cases he'
    · rw [Message.toNat_next_nonce ha.nonce_eq ha.nonce_lt, ← ha.nonce_eq]
    · intro cost s hbuy
      obtain ⟨-, hrebalanced⟩ := Store.totalBalance_subBalance hbuy
      rw [hrebalanced.nonce_eq, ← ha.nonce_eq]

/-- An account with funds, and one with code. -/
def fundedStore : Store :=
  (Store.withBalances [(.ofNat 7, .ofNat 100000)]).perform (.setCode (.ofNat 9) [0])

/-- Account 7's call into the code of account 9 meets the conditions; it is carried out, although it fails. -/
theorem applyMessage_isOk_iff_failedCall :
    fundedStore.supply < 2 ^ 256 ∧
      ∃ outcome, (runOn (applyMessage .mainnet Executor.null (.ofBlock (.simple 1 (.ofNat 8)))
        (.call (.ofNat 7) (.ofNat 9) 0 30000 2)) (.ofStore fundedStore ())).1 = .ok outcome := by
  have hreachable : fundedStore.Reachable := (Store.Reachable.withBalances _).perform _
  have hfits : fundedStore.supply < 2 ^ 256 := by
    have hsupply : fundedStore.supply = 100000 := rfl
    rw [hsupply]
    norm_num
  refine ⟨hfits, (applyMessage_isOk_iff (w := .ofStore fundedStore ()) hreachable hfits
    (Executor.confined_null _) Executor.createsNothing_null).1.mpr ⟨?_, ?_, ?_, ?_⟩⟩
  · rfl
  · decide
  · decide
  · decide

end Step

end BridgeMint
