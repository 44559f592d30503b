import BridgeMint.Proofs.Store.Posting
import BridgeMint.Proofs.Transition.SuccessfulMint

/-!
# Messages without an interpreter

On a node without an interpreter every call into code reverts.  What becomes of a message is then a function
of the message, the prices, which accounts have code, and whether the message is a mint; and what it does to
the accounts can be written down as entries that its outcome tells.
-/

namespace BridgeMint

/-! ## What decides about a mint -/

/-- The account that may mint, if the mint contract is installed. -/
def Store.minter? (s : Store) : Option Address :=
  if s.mintDigest = MintContract.codeHash then
    some (.ofWord (s.word MintContract.address MintContract.ownerSlot))
  else none

namespace Message

/-- The message is a mint instruction when this account may mint, and this much is left. -/
def MintsWith (message : Message) (minter? : Option Address) (limit : Nat) : Prop :=
  message.recipient = some MintContract.address ∧ message.data.length = 65 ∧
    (message.data.getD 64 0 = 0 ∨ message.data.getD 64 0 = 1) ∧ minter? = some message.sender ∧
    message.mintAmount ≤ limit

instance (message : Message) (minter? : Option Address) (limit : Nat) :
    Decidable (message.MintsWith minter? limit) :=
  inferInstanceAs (Decidable (_ ∧ _))

/-- The digest that the contract is known by is not that of an account that does not exist. -/
theorem codeHash_of_mintDigest {s : Store} (h : s.mintDigest = MintContract.codeHash) :
    s.codeHash MintContract.address = MintContract.codeHash := by
  cases hexists : s.hasAccount MintContract.address with
  | true =>
    rw [Store.codeHash_eq, if_pos hexists]
    exact h
  | false =>
    -- The digest of a missing account is that of no code, which is not the digest of the contract.
    rw [Store.mintDigest, Store.record_of_not_hasAccount hexists] at h
    exact absurd h.symm MintContract.codeHash_ne_emptyDigest

/-- A message is read as a mint exactly if it is one for the account that may mint and what is left to mint.
-/
theorem mintIn?_isSome_iff (message : Message) (s : Store) :
    (message.mintIn? s).isSome = true ↔ message.MintsWith s.minter? s.mintLimit.toNat := by
  constructor
  · intro h
    obtain ⟨instruction, hmint⟩ := Option.isSome_iff_exists.mp h
    obtain ⟨hrecipient, hreadable, -⟩ := Step.readable_of_mintIn? hmint
    refine ⟨hrecipient, hreadable.length_eq, hreadable.tag_known, ?_, ?_⟩
    · rw [Store.minter?, if_pos (Store.mintDigest_of_codeHash hreadable.installed)]
      exact congrArg some (FixedBytes.ext hreadable.owner_eq)
    · rw [Store.mintLimit, UInt256.toNat_ofWord]
      exact hreadable.amount_le
  · rintro ⟨hrecipient, hlength, htag, hminter, hamount⟩
    -- Only an installed contract has a minter.
    have hinstalled : s.mintDigest = MintContract.codeHash := by
      by_contra hmissing
      rw [Store.minter?, if_neg hmissing] at hminter
      cases hminter
    rw [Store.minter?, if_pos hinstalled, Option.some.injEq] at hminter
    have howner : (s.word MintContract.address MintContract.ownerSlot).toList.drop 12 =
        message.sender.toList := congrArg FixedBytes.toList hminter
    rw [Store.mintLimit, UInt256.toNat_ofWord] at hamount
    -- These are all conditions of a readable instruction.
    have hreadable : Instruction.IsReadable s message.sender MintContract.address message.data :=
      ⟨hlength, rfl, htag, codeHash_of_mintDigest hinstalled, howner, hamount⟩
    obtain ⟨instruction, hread⟩ := hreadable.exists_read
    rw [mintIn?, hrecipient, Option.bind_some, hread]
    rfl

/-! ## What becomes of a message -/

/-- How a call ends: into code it reverts, and creations fail. -/
def plainCall (message : Message) (code : Address → Bytes) (meter : GasMeter) : Step.Ran :=
  match message.recipient with
  | none => ⟨meter, some (.fault "contract creation is not supported"), []⟩
  | some recipient =>
    if (code recipient).isEmpty then ⟨meter, none, []⟩ else ⟨meter, some (.reverted none), []⟩

/-- How a mint ends: it is carried out if there is gas for it. -/
def plainMint (schedule : GasSchedule) (meter : GasMeter) : Step.Ran :=
  match meter.charge schedule.mint with
  | .error cause => ⟨meter.exhaust, some cause, []⟩
  | .ok charged => ⟨charged, none, []⟩

/-- How an accepted message ends that is a mint or not. -/
def plainRan (message : Message) (schedule : GasSchedule) (code : Address → Bytes) (minted : Bool) :
    Step.Ran :=
  let meter : GasMeter := ⟨message.gasLimit, message.intrinsicGas schedule⟩
  if minted then plainMint schedule meter else message.plainCall code meter

/-- The outcome of an accepted message. -/
def plainOutcome (message : Message) (schedule : GasSchedule) (code : Address → Bytes)
    (minted : Bool) : Outcome :=
  let ran := message.plainRan schedule code minted
  { gasUsed := ran.meter.used, failure := ran.failure, output := ran.output, minted }

/-! ## What it does to the accounts -/

/-- The entries of running a message that failed or not, and was a mint or not. -/
def runEntries (message : Message) (failed minted : Bool) : List Posting :=
  match failed, minted, message.recipient with
  | false, true, _ =>
    [.minted message.mintAmount, .counted message.sender, .given message.sender message.mintAmount]
  | false, false, some recipient =>
    [.counted message.sender, .taken message.sender message.value.toNat,
      .given recipient message.value.toNat]
  | _, _, _ => [.counted message.sender]

/-- The entries of a message with its gas: the limit is bought, and what is left of it is paid back. -/
def entries (message : Message) (receiver : Address) (outcome : Outcome) : List Posting :=
  [.taken message.sender (message.gasLimit.toNat * message.gasPrice.toNat)] ++
    message.runEntries outcome.failure.isSome outcome.minted ++
    [.given message.sender ((message.gasLimit.toNat - outcome.gasUsed.toNat) * message.gasPrice.toNat)] ++
    [.given receiver (outcome.gasUsed.toNat * message.gasPrice.toNat)]

end Message

namespace Step

variable {σ : Type} {context : ExecutionContext} {message : Message} {w w' : World σ}

/-! ## Calls -/

/-- Moving the value is two entries: taken from the sender, and given to the recipient. -/
theorem ValueMoved.posted {s t : Store} {recipient : Address} (h : ValueMoved message s t)
    (hrecipient : message.recipient = some recipient) :
    Store.Posted [.taken message.sender message.value.toNat, .given recipient message.value.toNat]
      s t := by
  obtain ⟨recipient', u, hrecipient', hsub, hadd⟩ := h
  rw [hrecipient] at hrecipient'
  cases hrecipient'
  exact (Store.posted_subBalance hsub).trans (Store.posted_addBalance hadd)

theorem ValueMoved.rewindsExactly {s t : Store} (h : ValueMoved message s t) : s.RewindsExactly t := by
  obtain ⟨recipient, u, -, hsub, hadd⟩ := h
  obtain ⟨b, -, rfl⟩ := Store.subBalance_eq_ok.mp hsub
  obtain ⟨c, -, rfl⟩ := Store.addBalance_eq_ok.mp hadd
  exact (Store.rewindsExactly_write_balance _ _ _).trans (Store.rewindsExactly_write_balance _ _ _)

/-- The inside of a call moves the value, unless a contract is to be created; into code it reverts. -/
theorem runInside_null {meter : GasMeter} {ran : Ran}
    (h : runOn (runInside .null context message meter) w = (.ok ran, w')) :
    ran = message.plainCall w.store.code meter ∧
      (message.recipient = none ∧ w'.store = w.store ∨ ValueMoved message w.store w'.store) := by
  unfold runInside at h
  unfold Message.plainCall
  cases hrecipient : message.recipient with
  | none =>
    rw [hrecipient] at h
    obtain ⟨rfl, rfl⟩ := pure_ok.mp h
    exact ⟨rfl, .inl ⟨rfl, rfl⟩⟩
  | some recipient =>
    rw [hrecipient] at h
    obtain ⟨v, hmoved, hran⟩ := runCode_cases hrecipient h
    have hcode : v.store.code recipient = w.store.code recipient :=
      (hmoved.posted hrecipient).touched.code_eq recipient
    simp only
    -- The code is that of before, because only balances were written.
    rcases hran with ⟨hempty, rfl, rfl⟩ | ⟨hcoded, request, charged, hcharge, rfl, rfl⟩
    · rw [hcode] at hempty
      rw [if_pos hempty]
      exact ⟨rfl, .inr hmoved⟩
    · -- The call reverts and reports that it used nothing.
      rw [hcode] at hcoded
      have hzero : min 0 meter.remaining = 0 := UInt64.le_zero_iff.mp Std.min_le_left
      have hsame : charged = meter := by
        obtain ⟨-, hcharged⟩ := GasMeter.charge_eq_ok.mp hcharge
        rw [hcharged]
        show { meter with used := meter.used + min 0 meter.remaining } = meter
        rw [hzero, UInt64.add_zero]
      rw [if_neg (Bool.eq_false_iff.mp hcoded), hsame]
      exact ⟨rfl, .inr hmoved⟩

/-- Concluding a call leaves what is known of it as it was, unless it ran out of gas. -/
theorem concludeCall_ran {id : Nat} {ran ran' : Ran}
    (h : runOn (concludeCall id ran) w = (.ok ran', w'))
    (hgas : ∀ used limit, ran.failure ≠ some (.outOfGas used limit)) : ran' = ran := by
  unfold concludeCall at h
  split at h
  · obtain ⟨hsame, -⟩ := pure_ok.mp h
    exact hsame
  · next cause hfailure =>
    obtain ⟨⟨⟩, v, -, h⟩ := bind_ok.mp h
    split at h
    · exact absurd hfailure (hgas _ _)
    · obtain ⟨hsame, -⟩ := pure_ok.mp h
      exact hsame

/-- Calls do not run out of gas, because nothing runs. -/
theorem plainCall_ne_outOfGas (message : Message) (code : Address → Bytes) (meter : GasMeter)
    (used limit : UInt64) : (message.plainCall code meter).failure ≠ some (.outOfGas used limit) := by
  unfold Message.plainCall
  split
  · simp
  · split <;> simp

/-- Without an interpreter a call ends as the message and the code there say, and its entries are those of a
call that failed or not. -/
theorem runCall_null {meter : GasMeter} {ran : Ran}
    (hnext : (message.nonce + 1).toNat = (w.store.nonce message.sender).toNat + 1)
    (h : runOn (runCall .null context message meter) w = (.ok ran, w')) :
    ran = message.plainCall w.store.code meter ∧
      Store.Posted (message.runEntries ran.failure.isSome false) w.store w'.store := by
  obtain ⟨inner, v, u, x, hv, hinside, hconclude, hw'⟩ := runCall_course h
  obtain ⟨hinner, hmoved⟩ := runInside_null hinside
  obtain ⟨hkept, htaken, -⟩ := concludeCall_ok hconclude
  -- Opening a snapshot is no entry.
  have hcounted : Store.Posted [.counted message.sender] w.store (beforeCall message w.store).2 :=
    (Store.posted_setNonce hnext).congr rfl
  have hcode : v.store.code = w.store.code := by
    rw [hv]
    exact funext hcounted.touched.code_eq
  rw [hcode] at hinner
  -- No call runs out of gas, so concluding it changes nothing about how it ended.
  obtain rfl : ran = inner := by
    refine concludeCall_ran hconclude fun used limit => ?_
    rw [hinner]
    exact plainCall_ne_outOfGas _ _ _ _ _
  refine ⟨hinner, ?_⟩
  rw [hw']
  cases hfailure : ran.failure with
  | none =>
    rw [hfailure] at hkept
    rw [hkept rfl]
    -- The call succeeded, so it was not a creation.
    rcases hmoved with ⟨hcreation, -⟩ | hmoved
    · rw [hinner, Message.plainCall, hcreation] at hfailure
      cases hfailure
    · obtain ⟨recipient, -, hrecipient, -⟩ := id hmoved
      rw [hv] at hmoved
      have hposted := hcounted.trans (hmoved.posted hrecipient)
      simpa [Message.runEntries, hrecipient] using hposted
  | some cause =>
    rw [hfailure] at htaken
    -- The call failed, and going back leaves only the counted nonce.
    have hrevert := htaken rfl
    have hback : (beforeCall message w.store).2.RewindsExactly u.store := by
      rw [← hv]
      rcases hmoved with ⟨-, hsame⟩ | hmoved
      · rw [hsame]
        exact .refl _
      · exact hmoved.rewindsExactly
    exact hcounted.congr (hback.revertTo hrevert)

/-! ## Mints -/

/-- A mint ends as there is gas for it or not; unpaid it only counts the nonce. -/
theorem runInstruction_null {meter : GasMeter} {instruction : Instruction} {ran : Ran}
    (hmint : message.mintIn? w.store = some instruction)
    (hnonce : message.nonce = w.store.nonce message.sender)
    (hnext : (message.nonce + 1).toNat = (w.store.nonce message.sender).toNat + 1)
    (h : runOn (runInstruction context meter instruction) w = (.ok ran, w')) :
    ran = Message.plainMint context.schedule meter ∧
      Store.Posted (message.runEntries ran.failure.isSome true) w.store w'.store := by
  obtain ⟨hsender, -, -, hlimit⟩ := mintIn?_eq_some hmint
  obtain ⟨-, -, hrenders⟩ := readable_of_mintIn? hmint
  have hamount : instruction.amount.toNat = message.mintAmount := hrenders.amount_eq
  unfold Message.plainMint
  rcases runInstruction_cases h with
    ⟨cause, hcharge, rfl, hstore⟩ | ⟨charged, next, u, hcharge, rfl, hsome, hadd, hstore⟩
  · -- There is no gas for it.
    rw [hcharge, hstore, hsender, ← hnonce]
    exact ⟨rfl, Store.posted_setNonce hnext⟩
  · rw [hcharge, hstore]
    refine ⟨rfl, ?_⟩
    -- The limit is lowered, the nonce counted and the amount credited; the log is no part of this.
    have hleft := UInt256.checkedSub_eq_some_iff.mp hlimit
    have hraised := nextNonce?_eq_some hsome
    rw [hsender] at hraised hadd
    have hlowered := Store.posted_setLimit hleft
    have hcounted : Store.Posted [.counted message.sender]
        (w.store.setWord MintContract.address MintContract.limitSlot instruction.nextLimit.toWord)
        (beforeMint instruction next w.store) := by
      rw [beforeMint, hsender]
      apply Store.posted_setNonce
      rw [Store.nonce_setWord]
      exact hraised
    have hposted := (hlowered.trans hcounted).trans (Store.posted_addBalance hadd)
    rw [hamount] at hposted
    exact hposted.congr rfl

/-! ## The whole message -/

/-- Entries leave alone who may mint. -/
theorem minter?_of_posted {entries : List Posting} {s t : Store} (h : Store.Posted entries s t) :
    t.minter? = s.minter? := by
  have hdigest : t.mintDigest = s.mintDigest := h.touched.digest_eq MintContract.address
  -- The one slot that entries write is that of the limit.
  have howner := h.word_eq MintContract.address MintContract.ownerSlot fun ⟨_, hslot⟩ =>
    absurd hslot (by decide)
  rw [Store.minter?, Store.minter?, hdigest, howner]

/-- Whether a message is a mint in a store. -/
def mintsIn (message : Message) (s : Store) : Bool :=
  decide (message.MintsWith s.minter? s.mintLimit.toNat)

/-- What becomes of a message that is carried out, and what it does to the accounts. -/
theorem applyMessage_null {config : ChainConfig} {outcome : Outcome}
    (h : runOn (applyMessage config .null context message) w = (.ok outcome, w')) :
    outcome = message.plainOutcome context.schedule w.store.code (mintsIn message w.store) ∧
      Store.Posted (message.entries (config.feeReceiver context.block) outcome) w.store w'.store := by
  obtain ⟨cost, meter, v₀, v, ran, u, happrove, hbuy, hcharge, hran, hrefund, hfee, rfl⟩ :=
    applyMessage_course h
  have hacceptable := message.acceptable_of_approve happrove
  have hcost := message.toNat_of_approve happrove
  have hbought := Store.posted_subBalance hbuy
  -- Buying the gas has no part in whether the message is a mint, and in its nonce.
  have hminted : (message.mintIn? v₀.store).isSome = mintsIn message w.store := by
    have hlimit := hbought.mintLimit_eq
    rw [Bool.eq_iff_iff, Message.mintIn?_isSome_iff, mintsIn, decide_eq_true_iff,
      minter?_of_posted hbought, ← hlimit]
    rfl
  have hnonce : message.nonce = v₀.store.nonce message.sender := by
    rw [(Store.subBalance_written hbuy).nonce_eq]
    exact hacceptable.nonce_eq
  have hnext := Message.toNat_next_nonce hnonce hacceptable.nonce_lt
  have hmeter : meter = ⟨message.gasLimit, message.intrinsicGas context.schedule⟩ :=
    GasMeter.eq_of_charge_start hcharge
  have hcode : v₀.store.code = w.store.code := funext hbought.touched.code_eq
  -- The message runs as a mint or as a call.
  have hrun : ran = message.plainRan context.schedule w.store.code (mintsIn message w.store) ∧
      Store.Posted (message.runEntries ran.failure.isSome (mintsIn message w.store)) v₀.store v.store := by
    rw [← hminted, Message.plainRan, ← hmeter, ← hcode]
    cases hmint : message.mintIn? v₀.store with
    | some instruction =>
      rw [hmint] at hran
      exact runInstruction_null hmint hnonce hnext hran
    | none =>
      rw [hmint] at hran
      exact runCall_null hnext hran
  obtain ⟨hplain, hposted⟩ := hrun
  rw [hminted]
  refine ⟨by rw [Message.plainOutcome, ← hplain], ?_⟩
  -- What was paid for the gas comes back in two parts.
  obtain ⟨-, hspends⟩ := runMessage_ok hran
  have hwithin := hspends.within ((GasMeter.within_start message.gasLimit).charge hcharge)
  obtain ⟨hback, hpaid⟩ := toNat_refund_and_fee hwithin hcost
  have hremaining : ran.meter.remaining.toNat = message.gasLimit.toNat - ran.meter.used.toNat := by
    have hsum := hwithin.remaining_add_used
    omega
  have hrefunded := Store.posted_addBalance hrefund
  have hreceived := Store.posted_addBalance hfee
  rw [hcost] at hbought
  rw [hback, hremaining] at hrefunded
  rw [hpaid] at hreceived
  -- Bought, run, paid back and paid out: the entries one after the other.
  exact ((hbought.trans hposted).trans hrefunded).trans hreceived

end Step

end BridgeMint
