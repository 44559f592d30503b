import BridgeMint.Proofs.Execution.Strategy
import BridgeMint.Proofs.Store.Closing
import BridgeMint.Proofs.Transition.Minting
import BridgeMint.Proofs.Transition.Numbering
import BridgeMint.Proofs.Transition.Refusal
import BridgeMint.Proofs.Transition.Rejection

/-!
# The snapshot of a call stays open

A failed call is taken back to the snapshot that was opened for it.  An executor that commits nothing, and
goes back only to snapshots of its own, leaves that snapshot open, so no message is refused because it is
gone.  All other errors are about nonces, funds and gas.
-/

namespace BridgeMint

namespace Step

variable {σ α β : Type} {w w' : World σ} {executor : Executor σ} {context : ExecutionContext}
  {message : Message}

/-- If the step is refused, it is not for want of a snapshot. -/
def FindsSnapshots (m : Step σ α) (w : World σ) : Prop :=
  ∀ e, (runOn m w).1 = .error e → e.Unnumbered

theorem findsSnapshots_of_ok {m : Step σ α} {a : α} {v : World σ} (h : runOn m w = (.ok a, v)) :
    FindsSnapshots m w :=
  RefusedFor.of_ok h

/-- A step that is refused for another reason finds its snapshots. -/
theorem findsSnapshots_of_error {m : Step σ α} {e : LedgerError} {v : World σ}
    (h : runOn m w = (.error e, v)) (he : e.Unnumbered) : FindsSnapshots m w :=
  RefusedFor.of_error h he

theorem FindsSnapshots.bind {m : Step σ α} {f : α → Step σ β} (hm : FindsSnapshots m w)
    (hf : ∀ a v, runOn m w = (.ok a, v) → FindsSnapshots (f a) v) : FindsSnapshots (m >>= f) w :=
  RefusedFor.bind hm hf

theorem findsSnapshots_bind_of_ok {m : Step σ α} {f : α → Step σ β} {a : α} {v : World σ}
    (h : runOn m w = (.ok a, v)) (hf : FindsSnapshots (f a) v) : FindsSnapshots (m >>= f) w :=
  RefusedFor.bind_of_ok h hf

/-- Going back is the one part of a message that asks for a snapshot. -/
theorem coversParts_unnumbered : LedgerError.CoversParts LedgerError.Unnumbered := by
  refine ⟨fun _ _ => nofun, fun cause hcause id h => ?_, fun _ => nofun⟩
  exact hcause id (LedgerError.store.inj h)

/-! ## Calls -/

/-- The snapshot that was opened for a call is open when its inside has run. -/
theorem exists_revertTo_of_callBody {s u : Store} {b : Bool} (he : executor.KeepsSnapshots)
    (hs : s.Reachable) (h : CallBody executor context message (beforeCall message s).2 b u) :
    ∃ t, u.revertTo (beforeCall message s).1 = .ok t := by
  -- Moving the value and running the code come to one program that neither commits nor goes further back.
  obtain ⟨ops, rfl, hops⟩ := h.exists_program he (beforeCall_reachable message hs)
    (fun _ _ => ⟨.inl trivial, .inl trivial⟩) (fun v op hv hallowed => hv ▸ hallowed)
  exact Store.exists_revertTo_after
    (hs.perform (.setNonce message.sender (message.nonce + 1))).sound hops

/-- A call finds the snapshot that was opened for it, whether it is needed or not. -/
theorem findsSnapshots_runCall (he : executor.KeepsSnapshots) (hw : w.store.Reachable)
    (meter : GasMeter) : FindsSnapshots (runCall executor context message meter) w := by
  unfold runCall
  -- The steps in front of the inside always give a result.
  refine findsSnapshots_bind_of_ok (runOn_change _ w) ?_
  obtain ⟨v, hstart, hstore⟩ := exists_runOn_traceStart
    { sender := message.sender, recipient := message.recipient.getD .zero
      isCreation := message.isCreation, input := message.data, gas := meter.remaining
      value := message.value } (w.withStore (w.store.setNonce message.sender (message.nonce + 1)))
  refine findsSnapshots_bind_of_ok hstart (findsSnapshots_bind_of_ok (runOn_snapshot v) ?_)
  refine (refusedFor_runInside coversParts_unnumbered _ _ _ _ _).bind fun inner u hinside => ?_
  have hopened : (v.withStore v.store.snapshot.2).store = (beforeCall message w.store).2 := by
    rw [World.store_withStore, hstore]
    rfl
  -- Whatever the inside did, it can be taken back.
  obtain ⟨hbody, -⟩ := runInside_ok hinside
  rw [hopened] at hbody
  have htaken := exists_revertTo_of_callBody he hw hbody
  rw [show (beforeCall message w.store).1 = v.store.snapshot.1 by rw [hstore]; rfl] at htaken
  obtain ⟨ran, x, hconclude⟩ := exists_runOn_concludeCall inner htaken
  obtain ⟨y, hend, -⟩ := exists_runOn_traceEnd
    { output := ran.output, gasUsed := meter.remaining - ran.meter.remaining
      failure := ran.failure.map CallError.message } x
  exact findsSnapshots_bind_of_ok hconclude (findsSnapshots_bind_of_ok hend
    (findsSnapshots_of_ok (runOn_pure _ y)))

/-! ## Messages -/

/-- A message is not refused because the snapshot of its call is gone. -/
theorem findsSnapshots_applyMessage (config : ChainConfig) (he : executor.KeepsSnapshots)
    (hw : w.store.Reachable) : FindsSnapshots (applyMessage config executor context message) w := by
  refine refusedFor_applyMessage coversParts_unnumbered config
    (fun e happrove => Message.unnumbered_of_approve happrove) fun cost s v meter hbuy hv => ?_
  -- The call starts on a store that there can be: the one that is left by buying the gas.
  have hreachable : v.store.Reachable := by
    rw [hv]
    exact hw.subBalance hbuy
  exact findsSnapshots_runCall he hreachable meter

end Step

end BridgeMint
