import BridgeMint.Proofs.Store.Effects
import BridgeMint.Proofs.Transition.Balances

/-!
# What paying for gas comes to

The sender pays for the whole gas limit in advance, is paid back what was not used, and the rest goes to
the receiver of the fees.  Whatever happens in between, in the end the sender has paid for the gas that was
used, and exactly that has been received.
-/

namespace BridgeMint

namespace Store

/-- A message of its sender has been counted, and an amount may have been credited to the sender; other
accounts are as they were. -/
structure Counted (sender : Address) (credit : Nat) (s t : Store) : Prop where
  nonce_eq : ∀ a, (t.nonce a).toNat = (s.nonce a).toNat + if a = sender then 1 else 0
  balance_eq : ∀ a, (t.balance a).toNat = (s.balance a).toNat + if a = sender then credit else 0
  touched : Touched [sender] s t

/-- A message has been counted, the amount has been credited to its sender, and the fee has passed from
the sender to the receiver.  This is to be read with both changes made where the two are the same. -/
structure Settled (sender receiver : Address) (credit fee : Nat) (s t : Store) : Prop where
  nonce_eq : ∀ a, (t.nonce a).toNat = (s.nonce a).toNat + if a = sender then 1 else 0
  balance_eq : ∀ a, (t.balance a).toNat + (if a = sender then fee else 0) =
    (s.balance a).toNat + (if a = sender then credit else 0) + if a = receiver then fee else 0
  /-- No account but these two comes into being. -/
  hasAccount_iff : ∀ a, t.hasAccount a = true ↔ s.hasAccount a = true ∨ a = sender ∨ a = receiver
  code_eq : ∀ a, t.code a = s.code a
  codeHash_eq : ∀ a, s.hasAccount a = t.hasAccount a → t.codeHash a = s.codeHash a
  /-- An account that comes into being has the digest of no code; before, its digest reads as zero. -/
  codeHash_new : ∀ a, s.hasAccount a = false → t.hasAccount a = true → t.codeHash a = .emptyDigest

/-- A sender who does not receive the fees pays the fee and keeps the credit. -/
theorem Settled.balance_sender {sender receiver : Address} {credit fee : Nat} {s t : Store}
    (h : Settled sender receiver credit fee s t) (hne : sender ≠ receiver) :
    (t.balance sender).toNat + fee = (s.balance sender).toNat + credit := by
  have hbalance := h.balance_eq sender
  rw [if_pos rfl, if_pos rfl, if_neg hne] at hbalance
  exact hbalance

/-- Counting a message is a write of its sender's nonce. -/
theorem counted_setNonce {s : Store} {sender : Address} {next : UInt64}
    (hnext : next.toNat = (s.nonce sender).toNat + 1) : Counted sender 0 s (s.setNonce sender next) := by
  rw [setNonce_eq_write]
  refine ⟨fun a => ?_, fun a => ?_, touched_write s sender nofun⟩
  · rw [nonce_write]
    split
    · next heq =>
      rw [heq]
      exact hnext
    · rfl
  · -- The write of a nonce is not seen by a reader of balances.
    have hbalance : (s.write sender (.nonce next)).balance a = s.balance a :=
      record_write_congr (·.header.balance) rfl a
    rw [hbalance, ite_self, Nat.add_zero]

/-- Setting a word of an account that exists has no part in this. -/
theorem Counted.of_setWord {sender a : Address} {credit : Nat} {key value : Word} {s t : Store}
    (h : Counted sender credit (s.setWord a key value) t) (ha : s.hasAccount a = true) :
    Counted sender credit s t := by
  have htouched := touched_write s a (m := .word key value) nofun
  refine ⟨fun a' => ?_, fun a' => ?_, ?_⟩
  · rw [h.nonce_eq, nonce_setWord]
  · rw [h.balance_eq, balance_setWord]
  · refine (htouched.trans h.touched).of_mem_iff fun a' => ?_
    -- The account of the word exists already, so naming it adds nothing.
    simp only [List.singleton_append, List.mem_cons]
    constructor
    · rintro (hexists | rfl | hmem)
      · exact .inl hexists
      · exact .inl ha
      · exact .inr hmem
    · rintro (hexists | hmem)
      · exact .inl hexists
      · exact .inr (.inr hmem)

/-- Crediting the sender of a message that was counted. -/
theorem Counted.addBalance {sender : Address} {amount : UInt256} {s t u : Store}
    (h : Counted sender 0 s t) (hadd : t.addBalance sender amount = .ok u) :
    Counted sender amount.toNat s u := by
  obtain ⟨hcredited, hbalance⟩ := addBalance_effect hadd
  refine ⟨fun a => ?_, fun a => ?_, (h.touched.trans hcredited.toTouched).of_mem_iff fun a => ?_⟩
  · rw [hcredited.nonce_eq]
    exact h.nonce_eq a
  · have hbefore := h.balance_eq a
    have hafter := hbalance a
    -- Both sums are about the same account or neither is.
    split_ifs at hbefore hafter ⊢ <;> omega
  · simp

/-- All of this is read off the accounts. -/
theorem Counted.congr {sender : Address} {credit : Nat} {s t t' : Store} (h : Counted sender credit s t)
    (ht : t'.accounts = t.accounts) : Counted sender credit s t' := by
  obtain ⟨accounts, _, _, _, _, _⟩ := t'
  subst ht
  exact ⟨h.nonce_eq, h.balance_eq, h.touched.hasAccount_iff, h.touched.code_eq, h.touched.digest_eq⟩

/-- Buying gas before a message is counted, and settling for it afterwards. -/
theorem Counted.settled {sender receiver : Address} {credit fee : Nat} {cost refund paid : UInt256}
    {s s' t t' u : Store} (h : Counted sender credit s' t) (hbuy : s.subBalance sender cost = .ok s')
    (hrefund : t.addBalance sender refund = .ok t') (hpay : t'.addBalance receiver paid = .ok u)
    (hsum : refund.toNat + paid.toNat = cost.toNat) (hpaid : paid.toNat = fee) :
    Settled sender receiver credit fee s u := by
  obtain ⟨hbought, hbefore⟩ := subBalance_effect hbuy
  obtain ⟨hrefunded, hmiddle⟩ := addBalance_effect hrefund
  obtain ⟨hreceived, hafter⟩ := addBalance_effect hpay
  have hclosing := hrefunded.trans hreceived
  have htouched := (hbought.toTouched.trans h.touched).trans hclosing.toTouched
  refine ⟨fun a => ?_, fun a => ?_, fun a => ?_, htouched.code_eq, fun _ => htouched.codeHash_eq,
    fun _ => htouched.codeHash_new⟩
  · rw [hclosing.nonce_eq, h.nonce_eq, hbought.nonce_eq]
  · -- Four writes, each of which may be about the account or not.
    have h₁ := hbefore a
    have h₂ := h.balance_eq a
    have h₃ := hmiddle a
    have h₄ := hafter a
    split_ifs at h₁ h₂ h₃ h₄ ⊢ <;> omega
  · rw [htouched.hasAccount_iff]
    simp

end Store

namespace Step

variable {σ : Type} {executor : Executor σ} {context : ExecutionContext} {message : Message}

/-- A message that is carried out is settled for exactly the gas that its outcome tells, if in between its
sender's message was counted. -/
theorem applyMessage_settled {config : ChainConfig} {outcome : Outcome} {w w' : World σ}
    (h : runOn (applyMessage config executor context message) w = (.ok outcome, w')) :
    message.Acceptable context.schedule w.store ∧
      ∃ (meter : GasMeter) (v₀ v : World σ) (ran : Ran),
        (GasMeter.start message.gasLimit).charge (message.intrinsicGas context.schedule) =
          .ok meter ∧
        runOn (runMessage executor context message meter (message.mintIn? v₀.store)) v₀ =
          (.ok ran, v) ∧
        outcome = { gasUsed := ran.meter.used, failure := ran.failure, output := ran.output
                    minted := (message.mintIn? v₀.store).isSome } ∧
        (∃ cost, w.store.subBalance message.sender cost = .ok v₀.store) ∧
        Store.BalancesWritten [message.sender] w.store v₀.store ∧
        Store.BalancesWritten [message.sender, config.feeReceiver context.block] v.store w'.store ∧
        ∀ credit, Store.Counted message.sender credit v₀.store v.store →
          Store.Settled message.sender (config.feeReceiver context.block) credit
            (outcome.gasUsed.toNat * message.gasPrice.toNat) w.store w'.store := by
  obtain ⟨cost, meter, v₀, v, ran, u, happrove, hbuy, hcharge, hran, hrefund, hfee, rfl⟩ :=
    applyMessage_course h
  have hcost := message.toNat_of_approve happrove
  have hmeter := (GasMeter.within_start message.gasLimit).charge hcharge
  obtain ⟨-, hspends⟩ := runMessage_ok hran
  have hwithin := hspends.within hmeter
  -- The meter never passes the limit, so neither product wraps and together they are the cost.
  obtain ⟨-, hpaid⟩ := toNat_refund_and_fee hwithin hcost
  have hsum := refund_add_fee hwithin hcost
  have hclosing := (Store.addBalance_written hrefund).trans (Store.addBalance_written hfee)
  refine ⟨message.acceptable_of_approve happrove, meter, v₀, v, ran, hcharge, hran, rfl, ⟨cost, hbuy⟩,
    Store.subBalance_written hbuy, hclosing, fun credit hcounted => ?_⟩
  exact hcounted.settled hbuy hrefund hfee hsum hpaid

end Step

end BridgeMint
