import BridgeMint.Proofs.Store.Nonces
import BridgeMint.Proofs.Transition.Failure
import BridgeMint.Proofs.Transition.Minting
import BridgeMint.Proofs.Transition.SuccessfulMint

/-!
# No message is carried out twice

A message that is carried out raises the nonce of its sender by one and no other nonce, whichever way it
runs and whether it fails or not.  In a run of messages, the ones accepted from a sender therefore carry
consecutive nonces, and none of them is accepted a second time.  Executors have to keep the nonces for
this; those that only set none can still take one back.
-/

namespace BridgeMint

namespace Executor

variable {σ : Type}

/-- Calls keep the nonces: the executor may use any operations, and when it answers, every nonce is what it
was when it was asked. -/
def KeepsNonces (executor : Executor σ) : Prop :=
  ∀ context request w, w.store.Reachable →
    (∃ ops, (executor.answer context request w).2.store = w.store.after ops) ∧
      ∀ a, (executor.answer context request w).2.store.nonce a = w.store.nonce a

/-- An executor that sets no nonce, and goes back only to snapshots that it took itself, is one. -/
theorem keepsNonces_of_confined {executor : Executor σ}
    (h : executor.Confined fun s op => op.SparesNonces s.nextSnapshot) : executor.KeepsNonces := by
  intro context request w hw
  obtain ⟨ops, hops, hstore⟩ := h context request w hw
  refine ⟨⟨ops, hstore⟩, fun a => ?_⟩
  rw [hstore]
  exact ((Store.NoncesKept.refl hw.sound).after hops).nonce_eq a

/-- An executor that keeps the nonces does what some program of operations does. -/
theorem KeepsNonces.confined {executor : Executor σ} (h : executor.KeepsNonces) :
    executor.Confined fun _ _ => True := by
  intro context request w hw
  obtain ⟨⟨ops, hstore⟩, -⟩ := h context request w hw
  exact ⟨ops, fun _ _ => trivial, hstore⟩

end Executor

namespace Step

variable {σ : Type} {executor : Executor σ} {context : ExecutionContext} {message : Message}

/-! ## Calls -/

/-- The inside of a call keeps the nonces: moving the value does, and the executor does. -/
theorem CallBody.nonce_eq {s t : Store} {b : Bool} (h : CallBody executor context message s b t)
    (he : executor.KeepsNonces) (hs : s.Reachable) (a : Address) : t.nonce a = s.nonce a := by
  cases h with
  | creation _ => rfl
  | transfer hmoved => exact hmoved.rebalanced.nonce_eq a
  | @code v request hmoved =>
    obtain ⟨-, hkept⟩ := he context request v (hmoved.reachable hs)
    rw [hkept a]
    exact hmoved.rebalanced.nonce_eq a

/-- A failed call is taken back to the nonces it started with, even if its executor did things that
the journal does not know: then it cannot be taken back at all. -/
theorem nonce_of_failedCall {s u t : Store} {b : Bool} (message' : Message)
    (h : CallBody executor context message (beforeCall message' s).2 b u) (he : executor.KeepsNonces)
    (hs : s.Reachable) (hrevert : u.revertTo (beforeCall message' s).1 = .ok t) (a : Address) :
    t.nonce a = (s.setNonce message'.sender (message'.nonce + 1)).nonce a := by
  obtain ⟨ops, rfl, -⟩ := h.exists_program he.confined (beforeCall_reachable message' hs)
    (P := fun _ => True) (fun _ _ => ⟨trivial, trivial⟩) (fun _ _ _ _ => trivial)
  have hsound : (s.setNonce message'.sender (message'.nonce + 1)).Sound :=
    (hs.perform (.setNonce message'.sender (message'.nonce + 1))).sound
  -- The nonce is part of what the journal knows of a record.
  have hrecord := (Store.agree_of_revertTo hsound hrevert).record a
  exact congrArg (·.1.nonce) hrecord

/-! ## Messages -/

/-- The nonce of the sender is one higher, and every other nonce is as it was. -/
def NonceRaised (sender : Address) (s t : Store) : Prop :=
  ∀ a, (t.nonce a).toNat = (s.nonce a).toNat + if a = sender then 1 else 0

theorem nonceRaised_setNonce {s : Store} {sender : Address} {next : UInt64}
    (hnext : next.toNat = (s.nonce sender).toNat + 1) :
    NonceRaised sender s (s.setNonce sender next) :=
  (Store.counted_setNonce hnext).nonce_eq

/-- Whichever way a message runs, its sender's nonce is counted once. -/
theorem Body.nonceRaised {s t : Store} {b : Bool} (h : Body executor context message s b t)
    (he : executor.KeepsNonces) (hs : s.Reachable) (hnonce : message.nonce = s.nonce message.sender)
    (hlast : message.nonce.toNat < 2 ^ 64 - 1) : NonceRaised message.sender s t := by
  have hnext := Message.toNat_next_nonce hnonce hlast
  have hcounted := nonceRaised_setNonce hnext
  cases h with
  | @unpaidMint instruction hmint =>
    -- An unpaid mint writes nothing but the counted nonce.
    obtain ⟨hsender, -⟩ := mintIn?_eq_some hmint
    rw [hsender, ← hnonce]
    exact hcounted
  | mint hmint hsome hadd => exact (counted_of_mint hmint hsome hadd).nonce_eq
  | call hbody =>
    intro a
    rw [hbody.nonce_eq he (beforeCall_reachable message hs)]
    exact hcounted a
  | failedCall hbody hrevert =>
    intro a
    rw [nonce_of_failedCall message hbody he hs hrevert]
    exact hcounted a

/-- A message that is carried out carried its sender's nonce, which is counted once. -/
theorem applyMessage_nonceRaised {config : ChainConfig} {outcome : Outcome} {w w' : World σ}
    (hw : w.store.Reachable) (he : executor.KeepsNonces)
    (h : runOn (applyMessage config executor context message) w = (.ok outcome, w')) :
    message.nonce = w.store.nonce message.sender ∧ NonceRaised message.sender w.store w'.store := by
  obtain ⟨cost, s, t, u, meter, happrove, hbuy, hbody, -, hrefund, hfee⟩ := applyMessage_ok h
  have hacceptable := message.acceptable_of_approve happrove
  -- Paying for gas leaves the nonces alone.
  have hbought := Store.subBalance_written hbuy
  have hclosing := (Store.addBalance_written hrefund).trans (Store.addBalance_written hfee)
  have hnonce : message.nonce = s.nonce message.sender := by
    rw [hbought.nonce_eq]
    exact hacceptable.nonce_eq
  have hraised := hbody.nonceRaised he (hw.subBalance hbuy) hnonce hacceptable.nonce_lt
  refine ⟨hacceptable.nonce_eq, fun a => ?_⟩
  rw [hclosing.nonce_eq, hraised a, hbought.nonce_eq]

/-! ## Runs -/

/-- A run of messages on one world, each with a chain, an executor and surroundings of its own; the list
tells the messages that were accepted, oldest first. -/
inductive Run (w : World σ) : List Message → World σ → Prop where
  | start : Run w [] w
  /-- A message is carried out, whatever its outcome. -/
  | accepted {accepted : List Message} {v v' : World σ} {outcome : Outcome} (config : ChainConfig)
      (executor : Executor σ) (context : ExecutionContext) (message : Message) :
      Run w accepted v → executor.KeepsNonces →
      runOn (applyMessage config executor context message) v = (.ok outcome, v') →
      Run w (accepted ++ [message]) v'
  /-- A message is refused by the checks at its start. -/
  | refused {accepted : List Message} {v : World σ} {cause : LedgerError} (config : ChainConfig)
      (executor : Executor σ) (context : ExecutionContext) (message : Message) :
      Run w accepted v → message.approve context.schedule v.store = .error cause →
      Run w accepted (runOn (applyMessage config executor context message) v).2
  /-- What was done so far is committed. -/
  | committed {accepted : List Message} {v : World σ} :
      Run w accepted v → Run w accepted (v.withStore v.store.commit)

/-- The messages of a sender among others, in their order. -/
def sentBy (sender : Address) (messages : List Message) : List Message :=
  messages.filter (·.sender = sender)

/-- A first message is the first of its sender and makes no difference to others. -/
theorem sentBy_cons (sender : Address) (message : Message) (messages : List Message) :
    sentBy sender (message :: messages) =
      if message.sender = sender then message :: sentBy sender messages
      else sentBy sender messages := by
  unfold sentBy
  rw [List.filter_cons]
  simp only [decide_eq_true_iff]

/-- A last message is the last of its sender and makes no difference to others. -/
theorem sentBy_append_singleton (sender : Address) (messages : List Message) (message : Message) :
    sentBy sender (messages ++ [message]) =
      if sender = message.sender then sentBy sender messages ++ [message]
      else sentBy sender messages := by
  unfold sentBy
  rw [List.filter_append]
  by_cases heq : message.sender = sender
  · simp [heq]
  · simp [heq, Ne.symm heq]

/-- A message that the checks refuse changes nothing. -/
theorem runOn_applyMessage_of_approve {config : ChainConfig} {cause : LedgerError} {w : World σ}
    (h : message.approve context.schedule w.store = .error cause) :
    runOn (applyMessage config executor context message) w = (.error cause, w) := by
  unfold applyMessage
  rw [runOn_bind_of_ok (runOn_store w), h]
  exact runOn_bind_of_error (runOn_liftExcept _ _)

/-- The state of a run: the accepted messages of each sender carry the nonces from its first one up to
the one that it has now. -/
theorem Run.state {w w' : World σ} {accepted : List Message} (hw : w.store.Reachable)
    (h : Run w accepted w') :
    w'.store.Reachable ∧ ∀ a,
      (sentBy a accepted).map (·.nonce.toNat) =
        List.range' (w.store.nonce a).toNat (sentBy a accepted).length ∧
      (w'.store.nonce a).toNat = (w.store.nonce a).toNat + (sentBy a accepted).length := by
  induction h with
  | start => exact ⟨hw, fun a => ⟨rfl, rfl⟩⟩
  | accepted config executor context message _ he happlied ih =>
    obtain ⟨hv, hsofar⟩ := ih
    -- The message was accepted with the nonce of the moment, which it has raised.
    obtain ⟨hnonce, hraised⟩ := applyMessage_nonceRaised hv he happlied
    refine ⟨applyMessage_reachable hv he.confined happlied, fun a => ?_⟩
    obtain ⟨hnonces, hnow⟩ := hsofar a
    rw [sentBy_append_singleton, hraised a]
    split
    · next heq =>
      -- The message carries the nonce that comes next.
      subst heq
      rw [List.map_append, List.length_append, hnonces, List.length_singleton, List.range'_concat,
        List.map_singleton, hnonce, hnow, Nat.one_mul]
      exact ⟨rfl, Nat.add_assoc _ _ _⟩
    · exact ⟨hnonces, hnow⟩
  | refused config executor context message _ hrefused ih =>
    rw [runOn_applyMessage_of_approve hrefused]
    exact ih
  | committed _ ih =>
    -- A commit keeps the accounts, and with them every nonce.
    obtain ⟨hv, hsofar⟩ := ih
    exact ⟨hv.perform .commit, hsofar⟩

/-- In every run, the accepted messages of each sender carry consecutive nonces, each exactly once and in
order, from the sender's nonce at the start; the sender's nonce in the end is higher by their number; and
a message that was accepted is refused for its nonce whenever it is offered again. -/
theorem Run.no_replay {w w' : World σ} {accepted : List Message} (hw : w.store.Reachable)
    (h : Run w accepted w') :
    (∀ a, (sentBy a accepted).map (·.nonce.toNat) =
        List.range' (w.store.nonce a).toNat (sentBy a accepted).length) ∧
      (∀ a, (w'.store.nonce a).toNat = (w.store.nonce a).toNat + (sentBy a accepted).length) ∧
      ∀ message ∈ accepted, ∀ config executor context,
        runOn (applyMessage config executor context message) w' =
          (.error (.wrongNonce message.sender (w'.store.nonce message.sender) message.nonce), w') := by
  obtain ⟨-, hstate⟩ := h.state hw
  obtain ⟨hconsecutive, hcount⟩ := forall_and.mp hstate
  refine ⟨hconsecutive, hcount, ?_⟩
  intro message hmessage config executor context
  have hnow := hcount message.sender
  -- Its nonce is one of those counted, so it lies below the sender's present one.
  have hsent : message ∈ sentBy message.sender accepted :=
    List.mem_filter.mpr ⟨hmessage, decide_eq_true rfl⟩
  have hcounted : message.nonce.toNat ∈ List.range' (w.store.nonce message.sender).toNat
      (sentBy message.sender accepted).length := by
    rw [← hconsecutive message.sender]
    exact List.mem_map_of_mem hsent
  obtain ⟨-, hbelow⟩ := List.mem_range'_1.mp hcounted
  have hne : message.nonce ≠ w'.store.nonce message.sender := by
    intro heq
    rw [heq] at hbelow
    omega
  exact runOn_applyMessage_of_approve (if_pos hne)

/-- A call into code, which reverts without an interpreter. -/
def revertedCall : Message := .call (.ofNat 7) (.ofNat 9) 0 30000 1

/-- The creation of a contract, which always fails. -/
def failedCreation : Message := ⟨.ofNat 7, none, 1, 0, 60000, 1, []⟩

/-- Account 7 calls code that reverts, the call is committed and offered again in vain, and a creation
follows: two messages are counted, and the call is still refused. -/
theorem Run.no_replay_failedCalls :
    ∃ w' : World Unit, Run (.ofStore codedStore ()) [revertedCall, failedCreation] w' ∧
      (w'.store.nonce (.ofNat 7)).toNat = 2 ∧
      runOn (applyMessage .mainnet .null (.ofBlock (.simple 1 (.ofNat 8))) revertedCall) w' =
        (.error (.wrongNonce (.ofNat 7) (w'.store.nonce (.ofNat 7)) 0), w') := by
  have hnull : (Executor.null : Executor Unit).KeepsNonces :=
    Executor.keepsNonces_of_confined (Executor.confined_null _)
  -- The first message is offered a second time once it has been committed.
  have hfirst : Run (.ofStore codedStore ()) [revertedCall] _ :=
    Run.start.accepted .mainnet .null (.ofBlock (.simple 1 (.ofNat 8))) revertedCall hnull rfl
  have hagain := hfirst.committed.refused .mainnet .null (.ofBlock (.simple 1 (.ofNat 8)))
    revertedCall rfl
  have hrun : Run (.ofStore codedStore ()) [revertedCall, failedCreation] _ :=
    hagain.accepted .mainnet .null (.ofBlock (.simple 1 (.ofNat 8))) failedCreation hnull rfl
  obtain ⟨-, hcounted, hrefused⟩ := hrun.no_replay codedStore_reachable
  have hsent : (sentBy (.ofNat 7) [revertedCall, failedCreation]).length = 2 := by decide
  have hbefore : ((World.ofStore codedStore ()).store.nonce (.ofNat 7)).toNat = 0 := rfl
  refine ⟨_, hrun, ?_, hrefused revertedCall List.mem_cons_self _ _ _⟩
  rw [hcounted, hsent, hbefore]

/-! ## Snapshots of earlier calls

The snapshot of a call that succeeds stays open until the next commit.  Code that goes back to it sets no
nonce, and still takes back the counting of the messages since then.
-/

/-- A call of an account without code, which opens the first snapshot and succeeds. -/
def earlierCall : Message := .call (.ofNat 7) (.ofNat 8) 0 30000 0

/-- The next message of its sender, a call into code. -/
def laterCall : Message := .call (.ofNat 7) (.ofNat 9) 1 30000 0

/-- Code that goes back to the first snapshot there was. -/
def rewindingScripts : List (Address × Executor.Script) :=
  [(.ofNat 9, ⟨[.revertTo 0], .success [] 0⟩)]

/-- A message of account 7 on a world, with that code. -/
def rewindingRun (message : Message) (w : World (List Executor.ScriptedCall)) :
    Except LedgerError Outcome × World (List Executor.ScriptedCall) :=
  runOn (applyMessage .mainnet (.scripted rewindingScripts) (.ofBlock (.simple 1 (.ofNat 7))) message) w

/-- It is not enough that the executor sets no nonce.  Here the call into code takes its own counting
back, so that it is carried out a second time, and of the three messages only two are counted. -/
theorem applyMessage_twice_of_rewinding :
    codedStore.commit.Reachable ∧
      (Executor.scripted rewindingScripts).Confined (fun _ op => ∀ a n, op ≠ .setNonce a n) ∧
      ∃ w₁ w₂ w₃,
        rewindingRun earlierCall (.ofStore codedStore.commit []) = (.ok ⟨21000, none, [], false⟩, w₁) ∧
        rewindingRun laterCall w₁ = (.ok ⟨21000, none, [], false⟩, w₂) ∧
        rewindingRun laterCall w₂ = (.ok ⟨21000, none, [], false⟩, w₃) ∧
        w₃.store.nonce (.ofNat 7) = 2 := by
  -- The script has one operation, and that sets no nonce.
  have hconfined : (Executor.scripted rewindingScripts).Confined
      (fun _ op => ∀ a n, op ≠ .setNonce a n) := by
    refine Executor.confined_scripted ?_
    simp [rewindingScripts]
  refine ⟨codedStore_reachable.perform .commit, hconfined, _, _, _, rfl, rfl, rfl, rfl⟩

end Step

end BridgeMint
