import BridgeMint.Proofs.Mint.Contract
import BridgeMint.Proofs.Transition.Minting
import BridgeMint.Proofs.Transition.Settlement

/-!
# What a successful mint does

A mint takes its amount from what is left to mint, credits it to the sender, and leaves one log, whose data
are the bytes of the message.  Besides that it costs gas like every message; the value of the message is not
moved, and no code runs.
-/

namespace BridgeMint

namespace Message

/-- The amount that the data of a mint tell: the first word. -/
def mintAmount (message : Message) : Nat :=
  Bytes.bigEndianValue (message.data.take 32)

/-- The log that a mint leaves in a store: the amount and the burn as they stand in the data, and the tag in
a word of its own. -/
def mintLog (message : Message) (number : UInt64) (s : Store) : Log where
  address := MintContract.address
  topics := [Instruction.logTopic]
  data := message.data.take 64 ++ List.replicate 31 0 ++ [message.data.getD 64 0]
  blockNumber := number
  txIndex := s.txIndex
  logIndex := .ofNat s.logs.length

end Message

/-- A next nonce is one higher, as numbers. -/
theorem nextNonce?_eq_some {nonce next : UInt64} (h : nextNonce? nonce = some next) :
    next.toNat = nonce.toNat + 1 := by
  unfold nextNonce? at h
  split at h
  · next hfits =>
    cases h
    exact UInt64.toNat_add_of_lt hfits
  · cases h

namespace Instruction

/-- The log of what was read from a payload holds the bytes of the payload. -/
theorem Renders.logData_eq {s : Store} {sender : Address} {payload : Bytes} {instruction : Instruction}
    (h : Renders s sender payload instruction) (hlength : payload.length = 65) :
    logData instruction.amount instruction.burn instruction.network =
      payload.take 64 ++ List.replicate 31 0 ++ [payload.getD 64 0] := by
  -- The data of the log are the two words one after the other, and the tag in a word of its own.
  have htake : payload.take 64 = payload.take 32 ++ (payload.drop 32).take 32 :=
    List.take_add (i := 32) (j := 32)
  rw [logData, h.toBytes_amount hlength, h.burn_eq, h.tag_eq, htake]
  exact (List.append_assoc _ (List.replicate 31 0) _).symm

end Instruction

namespace Store

/-- What a mint changes besides balances and the nonce of its sender: one word of the contract, and one
log. -/
structure Minted (message : Message) (number : UInt64) (s t : Store) : Prop where
  mintLimit_eq : t.mintLimit.toNat + message.mintAmount = s.mintLimit.toNat
  word_eq : ∀ a key, ¬ (a = MintContract.address ∧ key = MintContract.limitSlot) →
    t.word a key = s.word a key
  logs_eq : t.logs = s.logs ++ [message.mintLog number s]

/-- Balances have no part in this. -/
theorem Minted.of_balancesWritten {message : Message} {number : UInt64}
    {touched touched' : List Address} {s s' t t' : Store} (h : Minted message number s' t)
    (hbefore : BalancesWritten touched s s') (hafter : BalancesWritten touched' t t') :
    Minted message number s t' := by
  refine ⟨?_, fun a key hne => ?_, ?_⟩
  · rw [hafter.mintLimit_eq, h.mintLimit_eq, hbefore.mintLimit_eq]
  · rw [hafter.word_eq, h.word_eq a key hne, hbefore.word_eq]
  · rw [hafter.logs_eq, h.logs_eq, hbefore.logs_eq, Message.mintLog, Message.mintLog, hbefore.logs_eq,
      hbefore.txIndex_eq]

end Store

namespace Step

variable {σ : Type} {executor : Executor σ} {context : ExecutionContext} {message : Message}

/-- An instruction for which there is gas is counted as a message of its sender and credits the amount. -/
theorem counted_of_mint {s u : Store} {instruction : Instruction} {next : UInt64} {log : Log}
    (hmint : message.mintIn? s = some instruction)
    (hnext : nextNonce? (s.nonce instruction.sender) = some next)
    (hadd : (beforeMint instruction next s).addBalance instruction.sender instruction.amount =
      .ok u) : Store.Counted message.sender message.mintAmount s (u.addLog log) := by
  obtain ⟨-, hreadable, hrenders⟩ := readable_of_mintIn? hmint
  -- The contract is installed, so its account exists.
  have hexists : s.hasAccount MintContract.address = true := by
    apply Store.hasAccount_of_codeHash_ne_zero
    rw [hreadable.installed]
    exact MintContract.codeHash_ne_zero
  have hcounted : Store.Counted instruction.sender 0 s (beforeMint instruction next s) := by
    refine (Store.counted_setNonce ?_).of_setWord hexists
    rw [Store.nonce_setWord]
    exact nextNonce?_eq_some hnext
  have hdone := hcounted.addBalance hadd
  rw [hrenders.sender_eq, hrenders.amount_eq] at hdone
  exact hdone.congr rfl

/-- It lowers what is left to mint, and its log holds the bytes of the message. -/
theorem minted_of_mint {s u : Store} {instruction : Instruction} {next number : UInt64}
    (hmint : message.mintIn? s = some instruction)
    (hadd : (beforeMint instruction next s).addBalance instruction.sender instruction.amount =
      .ok u) : Store.Minted message number s (u.addLog (instruction.log number)) := by
  obtain ⟨-, hreadable, hrenders⟩ := readable_of_mintIn? hmint
  have hcredited := Store.addBalance_written hadd
  refine ⟨?_, fun a key hne => ?_, ?_⟩
  · -- The contract says what is left, and the instruction what is left afterwards.
    have hamount : instruction.amount.toNat = message.mintAmount := hrenders.amount_eq
    show u.mintLimit.toNat + _ = _
    rw [mintLimit_of_mint hadd, ← hamount, hrenders.nextLimit_eq, Store.mintLimit,
      UInt256.toNat_ofWord]
  · show u.word a key = _
    -- Of the words only that of the limit was set, and this is another one.
    rw [hcredited.word_eq, beforeMint, Store.word_setNonce, Store.word_setWord, if_neg hne]
  · -- The log is placed after the logs there were, in the transaction of the moment.
    obtain ⟨hlogs, htx⟩ := logs_beforeMint instruction next s
    rw [Store.logs_addLog, Store.placed, hcredited.logs_eq, hcredited.txIndex_eq, hlogs, htx,
      Message.mintLog, ← hrenders.logData_eq hreadable.length_eq]
    rfl

/-- A message that has minted had sixty-five bytes of data for the contract.  It used the gas for the
message and for the mint; the amount has passed from what is left to mint to the sender and the fee from the
sender to its receiver; one log tells of it, and everything else is as it was. -/
theorem applyMessage_minted {config : ChainConfig} {outcome : Outcome} {w w' : World σ}
    (hlogs : w.store.logs.length < 2 ^ 32)
    (h : runOn (applyMessage config executor context message) w = (.ok outcome, w'))
    (hminted : outcome.minted = true) (hfailure : outcome.failure = none) :
    message.recipient = some MintContract.address ∧ message.data.length = 65 ∧
      outcome.gasUsed.toNat =
        (message.intrinsicGas context.schedule).toNat + context.schedule.mint.toNat ∧
      Store.Settled message.sender (config.feeReceiver context.block) message.mintAmount
        (outcome.gasUsed.toNat * message.gasPrice.toNat) w.store w'.store ∧
      Store.Minted message context.block.number w.store w'.store ∧
      (message.mintLog context.block.number w.store).logIndex.toNat = w.store.logs.length := by
  obtain ⟨-, meter, v₀, v, ran, hcharge, hran, houtcome, -, hbefore, hafter, hsettled⟩ :=
    applyMessage_settled h
  rw [houtcome] at hminted hfailure
  obtain ⟨instruction, hmint⟩ := Option.isSome_iff_exists.mp hminted
  rw [hmint] at hran
  obtain ⟨hrecipient, hreadable, -⟩ := readable_of_mintIn? hmint
  -- The instruction did not fail, so there was gas for it.
  rcases runInstruction_cases hran with
    ⟨cause, -, rfl, -⟩ | ⟨charged, next, u, hpaid, rfl, hnext, hadd, hstore⟩
  · cases hfailure
  · have hcounted : Store.Counted message.sender message.mintAmount v₀.store
        (u.addLog (instruction.log context.block.number)) := counted_of_mint hmint hnext hadd
    have hdone : Store.Minted message context.block.number v₀.store
        (u.addLog (instruction.log context.block.number)) := minted_of_mint hmint hadd
    rw [← hstore] at hcounted hdone
    have hcharged := GasMeter.toNat_used_of_charge hpaid
    refine ⟨hrecipient, hreadable.length_eq, ?_, hsettled _ hcounted,
      hdone.of_balancesWritten hbefore hafter, UInt32.toNat_ofNat_of_lt hlogs⟩
    rw [houtcome]
    show charged.used.toNat = _
    -- Two charges: for the message, and on top of that for the mint.
    rw [hcharged, GasMeter.eq_of_charge_start hcharge]

/-- The owner mints 400, in a block whose fees the contract itself receives. -/
def ownerMint : Message :=
  (Message.call (.ofNat 7) MintContract.address 0 200000 2).withData
    (Instruction.encodePayload (.ofNat 400) (.ofUInt64 5) .tron)

/-- That mint on a store in which account 7 may mint a thousand. -/
def ownerMintRun : Except LedgerError Outcome × World Unit :=
  runOn (applyMessage .mainnet .null (.ofBlock (.simple 1 MintContract.address)) ownerMint)
    (.ofStore mintingStore ())

/-- Six hundred are left, and account 7 holds four hundred more, less the fee for the gas. -/
theorem applyMessage_minted_owner :
    ownerMintRun.1 = .ok ⟨121308, none, [], true⟩ ∧
      ownerMintRun.2.store.mintLimit.toNat + 400 = 1000 ∧
      (ownerMintRun.2.store.balance ownerMint.sender).toNat + 121308 * 2 = 1000000 + 400 := by
  have hresult : ownerMintRun.1 = .ok ⟨121308, none, [], true⟩ := by decide +kernel
  have hrun : ownerMintRun = (.ok ⟨121308, none, [], true⟩, ownerMintRun.2) := by
    rw [← hresult, Prod.mk.eta]
  obtain ⟨-, -, -, hsettled, hdone, -⟩ := applyMessage_minted (by decide) hrun rfl rfl
  have hleft := hdone.mintLimit_eq
  have hbalance := hsettled.balance_sender (by decide)
  -- What was there before, and what the message says.
  have hlimit : (World.ofStore mintingStore ()).store.mintLimit.toNat = 1000 := rfl
  have hheld : ((World.ofStore mintingStore ()).store.balance ownerMint.sender).toNat = 1000000 := rfl
  have hamount : ownerMint.mintAmount = 400 := rfl
  have hprice : ownerMint.gasPrice.toNat = 2 := rfl
  have hused : (⟨121308, none, [], true⟩ : Outcome).gasUsed.toNat = 121308 := rfl
  rw [hamount, hlimit] at hleft
  rw [hamount, hheld, hused, hprice] at hbalance
  exact ⟨hresult, hleft, hbalance⟩

end Step

end BridgeMint
