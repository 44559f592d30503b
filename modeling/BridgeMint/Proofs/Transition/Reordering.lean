import BridgeMint.Proofs.Grouping
import BridgeMint.Proofs.Transition.Plain
import BridgeMint.Proofs.Transition.Replay

/-!
# The order of independent messages

On a node without an interpreter, messages of different senders can be carried out in any order: as long as
every sender's own messages keep their order and all are accepted, each message has the same outcome and the
accounts come out the same.  What a message does to the accounts is a list of entries that its outcome tells,
and entries may be posted in any order.  Its outcome depends on what is left to mint only if its sender may
mint, and then only on the mints of that sender before it.
-/

namespace BridgeMint

namespace Message

/-! ## Messages in a row -/

/-- The outcome of an accepted message when this account may mint, and this much is left. -/
def plainAt (message : Message) (schedule : GasSchedule) (code : Address → Bytes)
    (minter? : Option Address) (limit : Nat) : Outcome :=
  message.plainOutcome schedule code (decide (message.MintsWith minter? limit))

/-- What a message with this outcome has minted. -/
def mintedBy (message : Message) (outcome : Outcome) : Nat :=
  if outcome.failure.isSome = false ∧ outcome.minted = true then message.mintAmount else 0

/-- The outcomes of messages in a row, all of them accepted. -/
def plainRun (schedule : GasSchedule) (code : Address → Bytes) (minter? : Option Address) :
    (limit : Nat) → List Message → List (Message × Outcome)
  | _, [] => []
  | limit, message :: rest =>
    let outcome := message.plainAt schedule code minter? limit
    (message, outcome) :: plainRun schedule code minter? (limit - message.mintedBy outcome) rest

variable {schedule : GasSchedule} {code : Address → Bytes} {minter? : Option Address}

/-- The entries of a message tell what it has minted. -/
theorem sum_mints_entries (message : Message) (receiver : Address) (outcome : Outcome) :
    ((message.entries receiver outcome).map (·.mints)).sum = message.mintedBy outcome := by
  unfold entries mintedBy runEntries
  cases outcome.failure.isSome <;> cases outcome.minted <;> cases message.recipient <;>
    simp [Posting.mints]

/-- Only the minter's messages are mints, so the others do not see what is left to mint. -/
theorem plainAt_of_ne {message : Message} (h : minter? ≠ some message.sender) (limit : Nat) :
    message.plainAt schedule code minter? limit = message.plainOutcome schedule code false := by
  rw [plainAt, decide_eq_false fun ⟨_, _, _, hminter, _⟩ => h hminter]

/-- Nor do they change what is left. -/
theorem mintedBy_plainAt_of_ne {message : Message} (h : minter? ≠ some message.sender) (limit : Nat) :
    message.mintedBy (message.plainAt schedule code minter? limit) = 0 := by
  rw [plainAt_of_ne h]
  exact if_neg fun ⟨_, hminted⟩ => Bool.false_ne_true hminted

/-- Where the minter sends nothing, what is left to mint at the start makes no difference. -/
theorem plainRun_of_ne {messages : List Message} (h : ∀ m ∈ messages, minter? ≠ some m.sender)
    (limit limit' : Nat) :
    plainRun schedule code minter? limit messages = plainRun schedule code minter? limit' messages := by
  induction messages generalizing limit limit' with
  | nil => rfl
  | cons message rest ih =>
    obtain ⟨hfirst, hrest⟩ := List.forall_mem_cons.mp h
    rw [plainRun, plainRun, plainAt_of_ne hfirst, plainAt_of_ne hfirst]
    exact congrArg _ (ih hrest _ _)

/-- The outcomes of one sender's messages are what they would be without the messages of the others. -/
theorem filter_plainRun (sender : Address) (limit : Nat) (messages : List Message) :
    (plainRun schedule code minter? limit messages).filter (·.1.sender = sender) =
      plainRun schedule code minter? limit (Step.sentBy sender messages) := by
  induction messages generalizing limit with
  | nil => rfl
  | cons message rest ih =>
    rw [plainRun, List.filter_cons, Step.sentBy_cons]
    by_cases hsender : message.sender = sender
    · -- The sender's own message comes first in both.
      rw [if_pos (decide_eq_true hsender), if_pos hsender, ih, plainRun]
    · rw [if_neg (by simpa using hsender), if_neg hsender, ih]
      by_cases hminter : minter? = some message.sender
      · -- Only the message's sender may mint, and the messages that are left are not from there.
        apply plainRun_of_ne
        intro m hm heq
        obtain ⟨-, hsent⟩ := List.mem_filter.mp hm
        have hfrom : m.sender = sender := of_decide_eq_true hsent
        rw [hminter, Option.some.injEq, hfrom] at heq
        exact hsender heq
      · rw [mintedBy_plainAt_of_ne hminter, Nat.sub_zero]

end Message

namespace Step

variable {σ : Type} {config : ChainConfig} {context : ExecutionContext}

/-- Carries out messages in a row, each on what the one before it has left. -/
def applyMessages (config : ChainConfig) (executor : Executor σ) (context : ExecutionContext) :
    List Message → Step σ (List (Message × Outcome))
  | [] => return []
  | message :: rest => do
    let outcome ← applyMessage config executor context message
    let outcomes ← applyMessages config executor context rest
    return (message, outcome) :: outcomes

/-- The entries of messages with their outcomes. -/
def entriesOf (receiver : Address) (done : List (Message × Outcome)) : List Posting :=
  done.flatMap fun entry => entry.1.entries receiver entry.2

/-- What becomes of messages in a row, and what they do to the accounts. -/
theorem applyMessages_null {messages : List Message} {done : List (Message × Outcome)} {w w' : World σ}
    (hw : w.store.Reachable)
    (h : runOn (applyMessages config .null context messages) w = (.ok done, w')) :
    done = Message.plainRun context.schedule w.store.code w.store.minter? w.store.mintLimit.toNat
        messages ∧
      Store.Posted (entriesOf (config.feeReceiver context.block) done) w.store w'.store ∧
      w'.store.Reachable := by
  induction messages generalizing w done with
  | nil =>
    obtain ⟨rfl, rfl⟩ := pure_ok.mp h
    exact ⟨rfl, Store.posted_nil _, hw⟩
  | cons message rest ih =>
    unfold applyMessages at h
    obtain ⟨outcome, v, hfirst, h⟩ := bind_ok.mp h
    obtain ⟨outcomes, v', hrest, h⟩ := bind_ok.mp h
    obtain ⟨rfl, rfl⟩ := pure_ok.mp h
    obtain ⟨houtcome, hposted⟩ := applyMessage_null hfirst
    have hv := applyMessage_reachable hw (Executor.confined_null fun _ _ => True) hfirst
    -- The store that the first message leaves is one that there can be, so the rest is the same question
    -- there.
    obtain ⟨houtcomes, hposted', hw'⟩ := ih hv hrest
    refine ⟨?_, hposted.trans hposted', hw'⟩
    -- The next message finds the same codes and minter, and what the first one has left to mint.
    have hcode : v.store.code = w.store.code := funext hposted.touched.code_eq
    have hlimit : v.store.mintLimit.toNat = w.store.mintLimit.toNat - message.mintedBy outcome := by
      have hsum := hposted.mintLimit_eq
      rw [Message.sum_mints_entries] at hsum
      omega
    have hfirst' : outcome = message.plainAt context.schedule w.store.code w.store.minter?
        w.store.mintLimit.toNat := houtcome
    rw [Message.plainRun, ← hfirst', ← hlimit, ← hcode, ← minter?_of_posted hposted]
    exact congrArg _ houtcomes

/-- The order of messages from different senders makes no difference: if two lists have the same messages of
each sender in the same order, so that one is a rearrangement of the other, and all messages are accepted in
both orders, then each message has the same outcome in both, and the accounts and the state root come out the
same. -/
theorem applyMessages_reordered {messages reordered : List Message}
    {done done' : List (Message × Outcome)} {w w₁ w₂ : World σ} (hw : w.store.Reachable)
    (horder : ∀ a, sentBy a messages = sentBy a reordered)
    (h : runOn (applyMessages config .null context messages) w = (.ok done, w₁))
    (h' : runOn (applyMessages config .null context reordered) w = (.ok done', w₂)) :
    done.Perm done' ∧
      (∀ a, done.filter (·.1.sender = a) = done'.filter (·.1.sender = a)) ∧
      w₁.store.accounts = w₂.store.accounts ∧ w₁.store.root = w₂.store.root := by
  obtain ⟨hdone, hposted, hw₁⟩ := applyMessages_null hw h
  obtain ⟨hdone', hposted', hw₂⟩ := applyMessages_null hw h'
  -- A sender's outcomes depend on the sender's own messages only, and these come in the same order.
  have hsame : ∀ a, done.filter (·.1.sender = a) = done'.filter (·.1.sender = a) := by
    intro a
    rw [hdone, hdone', Message.filter_plainRun, Message.filter_plainRun, horder]
  have hperm : done.Perm done' := perm_of_filter_eq (fun entry => entry.1.sender) hsame
  -- The same entries in another order come to the same accounts.
  have haccounts : w₁.store.accounts = w₂.store.accounts :=
    (hposted.sameReads hposted' (hperm.flatMap_right _)).accounts_eq hw₁.sound hw₂.sound
  refine ⟨hperm, hsame, haccounts, ?_⟩
  rw [Store.root, Store.root, Store.encodeAccounts, Store.encodeAccounts, haccounts]

/-- Two accounts with funds, and one with code. -/
def pairedStore : Store :=
  (Store.withBalances [(.ofNat 7, .ofNat 1000000), (.ofNat 8, .ofNat 1000000)]).perform
    (.setCode (.ofNat 9) [0])

/-- A payment to the producer of the block. -/
def payment : Message := (Message.call (.ofNat 7) (.ofNat 8) 0 30000 2).withValue 5

/-- A call by the producer of the block, into code. -/
def producerCall : Message := .call (.ofNat 8) (.ofNat 9) 0 30000 1

/-- The messages of the two senders, carried out in a row. -/
def pairedRun (messages : List Message) :
    Except LedgerError (List (Message × Outcome)) × World Unit :=
  runOn (applyMessages .mainnet .null (.ofBlock (.simple 1 (.ofNat 8))) messages)
    (.ofStore pairedStore ())

/-- The outcomes when the producer's message comes last, after a failed creation. -/
def pairedOutcomes : List (Message × Outcome) :=
  [(payment, ⟨21000, none, [], false⟩),
    (failedCreation, ⟨53000, some (.fault "contract creation is not supported"), [], false⟩),
    (producerCall, ⟨21000, some (.reverted none), [], false⟩)]

/-- The producer's call before or after the failed creation of account 7: both orders end in one root. -/
theorem applyMessages_reordered_pair :
    (pairedRun [payment, failedCreation, producerCall]).1 = .ok pairedOutcomes ∧
      ∃ done, (pairedRun [payment, producerCall, failedCreation]).1 = .ok done ∧
        pairedOutcomes.Perm done ∧
        (pairedRun [payment, failedCreation, producerCall]).2.store.root =
          (pairedRun [payment, producerCall, failedCreation]).2.store.root := by
  have hreachable : pairedStore.Reachable := (Store.Reachable.withBalances _).perform _
  have hlast : (pairedRun [payment, failedCreation, producerCall]).1 = .ok pairedOutcomes := by
    decide +kernel
  have hok : (pairedRun [payment, producerCall, failedCreation]).1.isOk = true := by decide +kernel
  -- Only messages of these two senders are in either list.
  have horder : ∀ a, sentBy a [payment, failedCreation, producerCall] =
      sentBy a [payment, producerCall, failedCreation] := by
    intro a
    simp only [sentBy_cons, payment, failedCreation, producerCall, Message.call, Message.withValue]
    by_cases h : (.ofNat 7 : Address) = a
    · have hother : (.ofNat 8 : Address) ≠ a := fun h' => absurd (h.trans h'.symm) (by decide)
      simp [h, hother]
    · simp [h]
  generalize hfirst : pairedRun [payment, failedCreation, producerCall] = first at hlast ⊢
  generalize hsecond : pairedRun [payment, producerCall, failedCreation] = second at hok ⊢
  obtain ⟨result, w₁⟩ := first
  obtain ⟨result', w₂⟩ := second
  obtain rfl : result = .ok pairedOutcomes := hlast
  cases result' with
  | error cause => cases hok
  | ok done =>
    obtain ⟨hperm, -, -, hroot⟩ := applyMessages_reordered hreachable horder hfirst hsecond
    exact ⟨rfl, done, rfl, hperm, hroot⟩

end Step

end BridgeMint
