import BridgeMint.Proofs.Transition.Plain

/-!
# What a transfer does

A message to an account without code, unless it is a mint instruction, moves its value and runs nothing.  Gas
is bought, the value leaves the sender and reaches the recipient, and what was not used of the gas comes back:
five balances are written, of up to three accounts, any of which may be the same.
-/

namespace BridgeMint

namespace Store

/-- A message has been counted, its value has passed from the sender to the recipient and the fee from the
sender to the receiver.  Every change is made where some of the three are the same. -/
structure Transferred (sender recipient receiver : Address) (value fee : Nat) (s t : Store) : Prop where
  nonce_eq : ∀ a, (t.nonce a).toNat = (s.nonce a).toNat + if a = sender then 1 else 0
  balance_eq : ∀ a, (t.balance a).toNat + (if a = sender then value + fee else 0) =
    (s.balance a).toNat + (if a = recipient then value else 0) + if a = receiver then fee else 0
  hasAccount_iff : ∀ a, t.hasAccount a = true ↔
    s.hasAccount a = true ∨ a = sender ∨ a = recipient ∨ a = receiver
  code_eq : ∀ a, t.code a = s.code a
  codeHash_eq : ∀ a, s.hasAccount a = t.hasAccount a → t.codeHash a = s.codeHash a
  /-- An account that comes into being has the digest of no code; before, its digest reads as zero. -/
  codeHash_new : ∀ a, s.hasAccount a = false → t.hasAccount a = true → t.codeHash a = .emptyDigest
  word_eq : ∀ a key, t.word a key = s.word a key
  logs_eq : t.logs = s.logs

end Store

namespace Message

/-- A message is no instruction exactly if its data are not in the language of instructions. -/
theorem mintIn?_eq_none_iff {message : Message} {s : Store} {recipient : Address}
    (hrecipient : message.recipient = some recipient) :
    message.mintIn? s = none ↔
      ¬ Instruction.IsReadable s message.sender recipient message.data := by
  rw [mintIn?, hrecipient, Option.bind_some]
  constructor
  · intro h hreadable
    obtain ⟨instruction, hread⟩ := hreadable.exists_read
    rw [hread] at h
    cases h
  · intro h
    -- What is read is readable, so nothing was read.
    cases hread : Instruction.read s message.sender recipient message.data with
    | error rejection => rfl
    | ok instruction =>
      obtain ⟨hreadable, -⟩ := Instruction.read_eq_ok hread
      exact absurd hreadable h

/-- Balances have no part in whether a message is an instruction. -/
theorem isSome_mintIn?_congr (message : Message) {touched : List Address} {s t : Store}
    (h : Store.BalancesWritten touched s t) :
    (message.mintIn? t).isSome = (message.mintIn? s).isSome := by
  have hdigest : t.mintDigest = s.mintDigest := h.digest_eq MintContract.address
  have hminter : t.minter? = s.minter? := by
    rw [Store.minter?, Store.minter?, hdigest, h.word_eq]
  rw [Bool.eq_iff_iff, mintIn?_isSome_iff, mintIn?_isSome_iff, hminter, h.mintLimit_eq]

end Message

namespace Step

variable {σ : Type} {executor : Executor σ} {context : ExecutionContext} {message : Message}
  {recipient : Address} {w w' : World σ}

/-! ## Calls without code -/

/-- Moving the value writes the balances of sender and recipient, who may be the same, and nothing else. -/
theorem ValueMoved.effect {s t : Store} (h : ValueMoved message s t)
    (hrecipient : message.recipient = some recipient) :
    Store.BalancesWritten [message.sender, recipient] s t ∧
      ∀ a, (t.balance a).toNat + (if a = message.sender then message.value.toNat else 0) =
        (s.balance a).toNat + if a = recipient then message.value.toNat else 0 := by
  obtain ⟨recipient', u, hrecipient', hsub, hadd⟩ := h
  rw [hrecipient] at hrecipient'
  cases hrecipient'
  obtain ⟨htaken, hbefore⟩ := Store.subBalance_effect hsub
  obtain ⟨hgiven, hafter⟩ := Store.addBalance_effect hadd
  refine ⟨htaken.trans hgiven, fun a => ?_⟩
  have hless := hbefore a
  have hmore := hafter a
  omega

/-- The inside of a call to an account without code moves the value and uses no gas, whatever would execute
code. -/
theorem runInside_transfer {meter : GasMeter} {ran : Ran}
    (hrecipient : message.recipient = some recipient) (hcode : w.store.code recipient = [])
    (h : runOn (runInside executor context message meter) w = (.ok ran, w')) :
    ran = ⟨meter, none, []⟩ ∧ ValueMoved message w.store w'.store := by
  unfold runInside at h
  rw [hrecipient] at h
  obtain ⟨v, hmoved, hran⟩ := runCode_cases hrecipient h
  -- Moving the value gives nobody code.
  obtain ⟨hwritten, -⟩ := hmoved.effect hrecipient
  have hempty : v.store.code recipient = [] := by
    rw [hwritten.code_eq, hcode]
  rcases hran with ⟨-, rfl, rfl⟩ | ⟨hcoded, -⟩
  · exact ⟨rfl, hmoved⟩
  · rw [hempty] at hcoded
    cases hcoded

/-- The whole call counts the nonce before. -/
theorem runCall_transfer {meter : GasMeter} {ran : Ran}
    (hrecipient : message.recipient = some recipient) (hcode : w.store.code recipient = [])
    (h : runOn (runCall executor context message meter) w = (.ok ran, w')) :
    ran = ⟨meter, none, []⟩ ∧ ValueMoved message (beforeCall message w.store).2 w'.store := by
  obtain ⟨inner, v, u, x, hv, hinside, hconclude, hw'⟩ := runCall_course h
  have hcounted : (beforeCall message w.store).2.code recipient = w.store.code recipient :=
    (Store.touched_write w.store message.sender (m := .nonce (message.nonce + 1)) nofun).code_eq recipient
  obtain ⟨rfl, hmoved⟩ := runInside_transfer hrecipient (by rw [hv, hcounted, hcode]) hinside
  -- The call did not fail, so it is kept.
  have hran := concludeCall_ran hconclude nofun
  obtain ⟨hkept, -⟩ := concludeCall_ok hconclude
  rw [hv] at hmoved
  rw [hw', hkept rfl]
  exact ⟨hran, hmoved⟩

/-! ## The whole message -/

/-- Buying gas before the value is moved, and settling for it afterwards. -/
theorem ValueMoved.transferred {receiver : Address} {cost refund paid : UInt256} {fee : Nat}
    {s s' t t' u : Store} (hmoved : ValueMoved message (beforeCall message s').2 t)
    (hrecipient : message.recipient = some recipient)
    (hnext : (message.nonce + 1).toNat = (s'.nonce message.sender).toNat + 1)
    (hbuy : s.subBalance message.sender cost = .ok s')
    (hrefund : t.addBalance message.sender refund = .ok t')
    (hpay : t'.addBalance receiver paid = .ok u)
    (hsum : refund.toNat + paid.toNat = cost.toNat) (hpaid : paid.toNat = fee) :
    Store.Transferred message.sender recipient receiver message.value.toNat fee s u := by
  obtain ⟨hbought, hbefore⟩ := Store.subBalance_effect hbuy
  obtain ⟨hmoving, hvalue⟩ := hmoved.effect hrecipient
  obtain ⟨hrefunded, hmiddle⟩ := Store.addBalance_effect hrefund
  obtain ⟨hreceived, hafter⟩ := Store.addBalance_effect hpay
  have hclosing := hmoving.trans (hrefunded.trans hreceived)
  -- Opening the snapshot of the call is seen by no reader.
  have hcounted : Store.Counted message.sender 0 s' (beforeCall message s').2 :=
    (Store.counted_setNonce hnext).congr rfl
  have hwords : ∀ a key, (beforeCall message s').2.word a key = s'.word a key := fun a key =>
    Store.word_setNonce s' message.sender a (message.nonce + 1) key
  have hlogs : (beforeCall message s').2.logs = s'.logs :=
    Store.logs_setNonce s' message.sender (message.nonce + 1)
  have htouched := (hbought.toTouched.trans hcounted.touched).trans hclosing.toTouched
  refine ⟨fun a => ?_, fun a => ?_, fun a => ?_, htouched.code_eq, fun _ => htouched.codeHash_eq,
    fun _ => htouched.codeHash_new, fun a key => ?_, ?_⟩
  · rw [hclosing.nonce_eq, hcounted.nonce_eq, hbought.nonce_eq]
  · -- Five balances are written, each of which may be that of the account or not.
    have h₁ := hbefore a
    have h₂ := hcounted.balance_eq a
    have h₃ := hvalue a
    have h₄ := hmiddle a
    have h₅ := hafter a
    split_ifs at h₁ h₂ h₃ h₄ h₅ ⊢ <;> omega
  · rw [htouched.hasAccount_iff]
    simp only [List.cons_append, List.nil_append, List.mem_cons, List.not_mem_nil, or_false]
    tauto
  · rw [hclosing.word_eq, hwords, hbought.word_eq]
  · rw [hclosing.logs_eq, hlogs, hbought.logs_eq]

/-- A message to an account without code that is no mint instruction succeeds with no output for the gas it
costs before anything runs; its value and its fee have changed hands, and everything else is as it was.  This
holds whatever executes code, and whichever of sender, recipient and receiver are the same. -/
theorem applyMessage_transfer {config : ChainConfig} {outcome : Outcome}
    (hrecipient : message.recipient = some recipient) (hcode : w.store.code recipient = [])
    (hmint : ¬ Instruction.IsReadable w.store message.sender recipient message.data)
    (h : runOn (applyMessage config executor context message) w = (.ok outcome, w')) :
    outcome = { gasUsed := message.intrinsicGas context.schedule, failure := none, output := []
                minted := false } ∧
      Store.Transferred message.sender recipient (config.feeReceiver context.block)
        message.value.toNat (outcome.gasUsed.toNat * message.gasPrice.toNat) w.store w'.store := by
  obtain ⟨cost, meter, v₀, v, ran, u, happrove, hbuy, hcharge, hran, hrefund, hfee, rfl⟩ :=
    applyMessage_course h
  have hacceptable := message.acceptable_of_approve happrove
  have hcost := message.toNat_of_approve happrove
  have hbought := Store.subBalance_written hbuy
  -- Buying the gas makes no instruction of what was none.
  have hnone : message.mintIn? v₀.store = none := by
    rw [← Option.not_isSome_iff_eq_none, message.isSome_mintIn?_congr hbought,
      (Message.mintIn?_eq_none_iff hrecipient).mpr hmint]
    exact Bool.false_ne_true
  rw [hnone] at hran
  obtain ⟨rfl, hmoved⟩ := runCall_transfer hrecipient (by rw [hbought.code_eq, hcode]) hran
  -- Nothing ran, so the gas used is the intrinsic gas.
  have hused : meter.used = message.intrinsicGas context.schedule := by
    rw [GasMeter.eq_of_charge_start hcharge]
  refine ⟨by rw [hnone, ← hused]; rfl, ?_⟩
  have hnext : (message.nonce + 1).toNat = (v₀.store.nonce message.sender).toNat + 1 := by
    rw [hbought.nonce_eq]
    exact Message.toNat_next_nonce hacceptable.nonce_eq hacceptable.nonce_lt
  have hwithin := (GasMeter.within_start message.gasLimit).charge hcharge
  obtain ⟨-, hpaid⟩ := toNat_refund_and_fee hwithin hcost
  exact hmoved.transferred hrecipient hnext hbuy hrefund hfee (refund_add_fee hwithin hcost) hpaid

/-- All that account 7 can spend, sent to itself in a block whose fees it receives. -/
def circularMessage : Message :=
  (Message.call (.ofNat 7) (.ofNat 7) 0 21000 2).withValue (.ofNat 58000)

/-- That message on a store in which account 7 holds just what it takes. -/
def circularRun : Except LedgerError Outcome × World Unit :=
  runOn (applyMessage .mainnet .null (.ofBlock (.simple 1 (.ofNat 7))) circularMessage)
    (.ofStore (.withBalances [(.ofNat 7, .ofNat 100000)]) ())

/-- Value and fee leave account 7 and come back, so that only its nonce has changed. -/
theorem applyMessage_transfer_circular :
    circularRun.1 = .ok ⟨21000, none, [], false⟩ ∧
      (circularRun.2.store.balance (.ofNat 7)).toNat + (58000 + 42000) = 100000 + 58000 + 42000 ∧
      (circularRun.2.store.nonce (.ofNat 7)).toNat = 1 := by
  have hresult : circularRun.1 = .ok ⟨21000, none, [], false⟩ := rfl
  have hrun : circularRun = (.ok ⟨21000, none, [], false⟩, circularRun.2) := by
    rw [← hresult, Prod.mk.eta]
  have hunreadable : ¬ Instruction.IsReadable (.withBalances [(.ofNat 7, .ofNat 100000)]) (.ofNat 7)
      (.ofNat 7) [] := fun hreadable => absurd hreadable.length_eq (by decide)
  obtain ⟨-, hdone⟩ := applyMessage_transfer rfl rfl hunreadable hrun
  exact ⟨hresult, hdone.balance_eq (.ofNat 7), hdone.nonce_eq (.ofNat 7)⟩

end Step

end BridgeMint
