import BridgeMint.Proofs.Transition.Message

/-!
# What running a message does to the balances

Moving the value of a call keeps the sum of all balances.  A call extends the store it starts in, so a
failed one can be taken back and leaves the balances as they were.
-/

namespace BridgeMint

namespace Step

variable {σ : Type} {executor : Executor σ} {context : ExecutionContext} {message : Message}
  {s t u : Store} {b : Bool}

/-! ## Moving value -/

/-- Moving value is a matter of two operations. -/
theorem ValueMoved.reachable (h : ValueMoved message s t) (hs : s.Reachable) : t.Reachable := by
  obtain ⟨recipient, v, -, hsub, hadd⟩ := h
  exact (hs.subBalance hsub).addBalance hadd

theorem ValueMoved.totalBalance (h : ValueMoved message s t) : t.totalBalance = s.totalBalance := by
  obtain ⟨recipient, v, -, hsub, hadd⟩ := h
  obtain ⟨htaken, -⟩ := Store.totalBalance_subBalance hsub
  obtain ⟨hgiven, -⟩ := Store.totalBalance_addBalance hadd
  omega

theorem ValueMoved.rebalanced (h : ValueMoved message s t) : s.Rebalanced t := by
  obtain ⟨recipient, v, -, hsub, hadd⟩ := h
  obtain ⟨-, htaken⟩ := Store.totalBalance_subBalance hsub
  obtain ⟨-, hgiven⟩ := Store.totalBalance_addBalance hadd
  exact htaken.trans hgiven

/-! ## Calls -/

/-- The inside of a call is a program: it may move the value, and the rest is up to the executor.  What holds
of moving value, and of all that the executor may do in stores that have opened as many snapshots, holds of
the whole program. -/
theorem CallBody.exists_program {Allowed : Store → Operation → Prop} {P : Operation → Prop}
    (h : CallBody executor context message s b t) (he : executor.Confined Allowed)
    (hs : s.Reachable) (hmoving : ∀ a amount, P (.subBalance a amount) ∧ P (.addBalance a amount))
    (hallowed : ∀ v op, v.nextSnapshot = s.nextSnapshot → Allowed v op → P op) :
    ∃ ops, t = s.after ops ∧ ∀ op ∈ ops, P op := by
  have hmoved : ∀ {v}, ValueMoved message s v → ∃ ops, v = s.after ops ∧ ∀ op ∈ ops, P op := by
    rintro v ⟨recipient, u, -, hsub, hadd⟩
    refine ⟨[.subBalance message.sender message.value, .addBalance recipient message.value], ?_, ?_⟩
    · rw [Store.after_cons, Store.perform_subBalance hsub, Store.after_cons,
        Store.perform_addBalance hadd, Store.after_nil]
    · obtain ⟨htaking, -⟩ := hmoving message.sender message.value
      obtain ⟨-, hgiving⟩ := hmoving recipient message.value
      exact List.forall_mem_cons.mpr ⟨htaking, List.forall_mem_singleton.mpr hgiving⟩
  cases h with
  | creation _ => exact ⟨[], rfl, nofun⟩
  | transfer h => exact hmoved h
  | @code v request h =>
    -- The program of the executor comes after the two operations.
    obtain ⟨moving, hv, hmoving'⟩ := hmoved h
    obtain ⟨ops, hops, hstore⟩ := he context request v (h.reachable hs)
    refine ⟨moving ++ ops, ?_, List.forall_mem_append.mpr ⟨hmoving', fun op hop =>
      hallowed v.store op h.rebalanced.nextSnapshot_eq (hops op hop)⟩⟩
    rw [hstore, hv]
    exact List.foldl_append.symm

/-- Whatever a call does, it can be taken back to where it started. -/
theorem CallBody.extends (h : CallBody executor context message s b t) (hj : executor.Journaled)
    (hs : s.Reachable) : s.Extends t := by
  -- Moving the value takes no snapshot, so the executor's own snapshots are later than `s`.
  obtain ⟨ops, rfl, hops⟩ := h.exists_program hj hs (fun _ _ => ⟨trivial, trivial⟩)
    (fun v op hv hallowed => hv ▸ hallowed)
  exact (Store.Extends.refl hs.sound).after hs.sound hops

/-- Whatever a call does, it does by operations. -/
theorem CallBody.reachable {Allowed : Store → Operation → Prop}
    (h : CallBody executor context message s b t) (hj : executor.Confined Allowed)
    (hs : s.Reachable) : t.Reachable := by
  obtain ⟨ops, rfl, -⟩ := h.exists_program hj hs (P := fun _ => True)
    (fun _ _ => ⟨trivial, trivial⟩) (fun _ _ _ _ => trivial)
  exact hs.after ops

/-- So are the nonce and the snapshot at its start. -/
theorem beforeCall_reachable (message : Message) (hs : s.Reachable) :
    (beforeCall message s).2.Reachable :=
  (hs.perform (.setNonce message.sender (message.nonce + 1))).perform .snapshot

/-- The start of a call moves nothing. -/
theorem totalBalance_beforeCall (message : Message) (s : Store) :
    (beforeCall message s).2.totalBalance = s.totalBalance :=
  Store.totalBalance_setNonce _ _ _

theorem mintLimit_beforeCall (message : Message) (s : Store) :
    (beforeCall message s).2.mintLimit = s.mintLimit :=
  Store.mintLimit_setNonce _ _ _

/-- A failed call is taken back to the store with the nonce counted, and nothing else changed. -/
theorem failedCall_agree (h : CallBody executor context message (beforeCall message s).2 b u)
    (hj : executor.Journaled) (hs : s.Reachable)
    (hrevert : u.revertTo (beforeCall message s).1 = .ok t) :
    t.Agree (s.setNonce message.sender (message.nonce + 1)) := by
  have hextends := h.extends hj (beforeCall_reachable message hs)
  obtain ⟨t', hrevert', hagree, -⟩ := Store.revertTo_extends hextends
  -- There is one store to which the snapshot leads back.
  have hsame : t = t' := by
    rw [beforeCall] at hrevert
    rw [hrevert] at hrevert'
    exact Except.ok.inj hrevert'
  rw [hsame]
  exact hagree

/-! ## Mints -/

/-- Before the amount is credited, the sum of all balances is as it was. -/
theorem totalBalance_beforeMint (instruction : Instruction) (next : UInt64) (s : Store) :
    (beforeMint instruction next s).totalBalance = s.totalBalance := by
  rw [beforeMint, Store.totalBalance_setNonce, Store.totalBalance_setWord]

/-- After a mint there is left what its instruction says. -/
theorem mintLimit_of_mint {instruction : Instruction} {next : UInt64}
    (hadd : (beforeMint instruction next s).addBalance instruction.sender instruction.amount =
      .ok u) : u.mintLimit = instruction.nextLimit := by
  obtain ⟨-, hcredited⟩ := Store.totalBalance_addBalance hadd
  rw [hcredited.mintLimit_eq, beforeMint, Store.mintLimit_setNonce, Store.mintLimit_setWord]

/-! ## Fees -/

/-- Neither product of the settlement is cut off: each is at most the cost of the gas limit, which fits. -/
theorem toNat_refund_and_fee {meter : GasMeter} {cost : UInt256} (hmeter : meter.Within message.gasLimit)
    (hcost : cost.toNat = message.gasLimit.toNat * message.gasPrice.toNat) :
    (UInt256.ofUInt64 meter.remaining * message.gasPrice).toNat =
        meter.remaining.toNat * message.gasPrice.toNat ∧
      (UInt256.ofUInt64 meter.used * message.gasPrice).toNat =
        meter.used.toNat * message.gasPrice.toNat := by
  have hsum := hmeter.remaining_add_used
  have hfits := cost.toNat_lt_size
  have hexact : ∀ gas : UInt64, gas.toNat ≤ message.gasLimit.toNat →
      (UInt256.ofUInt64 gas * message.gasPrice).toNat = gas.toNat * message.gasPrice.toNat := by
    intro gas hgas
    have hle := Nat.mul_le_mul_right message.gasPrice.toNat hgas
    rw [UInt256.toNat_mul_of_lt, UInt256.toNat_ofUInt64]
    rw [UInt256.toNat_ofUInt64]
    omega
  exact ⟨hexact _ (by omega), hexact _ (by omega)⟩

/-- What is paid back and the fee make up the cost of the gas limit. -/
theorem refund_add_fee {meter : GasMeter} {cost : UInt256} (hmeter : meter.Within message.gasLimit)
    (hcost : cost.toNat = message.gasLimit.toNat * message.gasPrice.toNat) :
    (UInt256.ofUInt64 meter.remaining * message.gasPrice).toNat +
      (UInt256.ofUInt64 meter.used * message.gasPrice).toNat = cost.toNat := by
  obtain ⟨hrefund, hfee⟩ := toNat_refund_and_fee hmeter hcost
  rw [hrefund, hfee, ← Nat.add_mul, hmeter.remaining_add_used, hcost]

end Step

end BridgeMint
