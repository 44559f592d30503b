import BridgeMint.Migration.MintFork
import BridgeMint.Mint.Apply
import BridgeMint.Proofs.Execution.Step
import BridgeMint.Proofs.UInt256.Word
import Mathlib.Data.List.GetD

/-!
# Which messages are mint instructions

Reading succeeds on exactly the payloads of one language, which depends on the contract, its owner and
what is left to mint.  What is read is what the bytes say, and writing it again gives the payload back,
so no two payloads say the same.
-/

namespace BridgeMint

/-! ## Tags -/

/-- The tags of known ledgers are zero and one. -/
theorem BurnNetwork.exists_ofTag?_iff (tag : UInt8) :
    (∃ network, ofTag? tag = some network) ↔ tag = 0 ∨ tag = 1 := by
  unfold ofTag?
  constructor
  · rintro ⟨network, h⟩
    split at h
    · next hzero => exact .inl hzero
    · split at h
      · next hone => exact .inr hone
      · cases h
  · rintro (rfl | rfl)
    · exact ⟨.ethereum, rfl⟩
    · exact ⟨.tron, rfl⟩

/-! ## The contract -/

/-- The contract is there if its account has the right digest, and then it says what its two slots say. -/
theorem Store.mintState?_eq_some {s : Store} {state : MintState} :
    s.mintState? = some state ↔ s.codeHash MintContract.address = MintContract.codeHash ∧
      state = ⟨.ofWord (s.word MintContract.address MintContract.ownerSlot),
        .ofWord (s.word MintContract.address MintContract.limitSlot)⟩ := by
  unfold mintState?
  split
  · next hinstalled => simp [hinstalled, eq_comm]
  · next hmissing => simp [hmissing]

/-! ## Payloads -/

/-- Sixty-five bytes are two words and one more byte. -/
theorem payload_eq_append {payload : Bytes} (h : payload.length = 65) :
    payload = payload.take 32 ++ (payload.drop 32).take 32 ++ [payload.getD 64 0] := by
  have hlt : 64 < payload.length := by omega
  -- The last byte is all that is left after the two words.
  have hlast : payload.drop 64 = [payload.getD 64 0] := by
    rw [List.drop_eq_getElem_cons hlt, List.getD_eq_getElem _ _ hlt]
    congr 1
    apply List.drop_of_length_le
    omega
  have hrest : (payload.drop 32).take 32 ++ payload.drop 64 = payload.drop 32 := by
    have hdrop : payload.drop 64 = (payload.drop 32).drop 32 := by rw [List.drop_drop]
    rw [hdrop]
    exact List.take_append_drop 32 _
  rw [← hlast, List.append_assoc, hrest]
  exact (List.take_append_drop 32 payload).symm

namespace Instruction

/-- The language of mint instructions: what the store, the sender, the receiver and the payload must
be like. -/
structure IsReadable (s : Store) (sender receiver : Address) (payload : Bytes) : Prop where
  length_eq : payload.length = 65
  receiver_eq : receiver = MintContract.address
  /-- The last byte is the tag of a known ledger. -/
  tag_known : payload.getD 64 0 = 0 ∨ payload.getD 64 0 = 1
  /-- The contract is installed. -/
  installed : s.codeHash MintContract.address = MintContract.codeHash
  /-- The sender is the owner: the last twenty bytes of the owner's slot. -/
  owner_eq : (s.word MintContract.address MintContract.ownerSlot).toList.drop 12 = sender.toList
  /-- The first word does not exceed what is left to mint. -/
  amount_le : Bytes.bigEndianValue (payload.take 32) ≤
    Bytes.bigEndianValue (s.word MintContract.address MintContract.limitSlot).toList

/-- The instruction is what the bytes of the payload say to the contract of the store. -/
structure Renders (s : Store) (sender : Address) (payload : Bytes) (instruction : Instruction) :
    Prop where
  sender_eq : instruction.sender = sender
  amount_eq : instruction.amount.toNat = Bytes.bigEndianValue (payload.take 32)
  nextLimit_eq : instruction.nextLimit.toNat + instruction.amount.toNat =
    Bytes.bigEndianValue (s.word MintContract.address MintContract.limitSlot).toList
  burn_eq : instruction.burn.toList = (payload.drop 32).take 32
  tag_eq : instruction.network.tag = payload.getD 64 0
  payload_eq : instruction.payload = payload

/-! ## Reading -/

/-- What is read is in the language, and is what the bytes say. -/
theorem read_eq_ok {s : Store} {sender receiver : Address} {payload : Bytes}
    {instruction : Instruction} (h : read s sender receiver payload = .ok instruction) :
    IsReadable s sender receiver payload ∧ Renders s sender payload instruction := by
  -- Every check that fails would have ended the reading.
  have hlength : payload.length = payloadLength := by
    by_contra hne
    rw [read, dif_neg hne] at h
    cases h
  rw [read, dif_pos hlength] at h
  have hreceiver : receiver = MintContract.address := by
    by_contra hne
    rw [if_pos hne] at h
    cases h
  rw [if_neg (not_not.mpr hreceiver)] at h
  simp only at h
  cases hnetwork : BurnNetwork.ofTag? (payload.getD 64 0) with
  | none =>
    rw [hnetwork] at h
    cases h
  | some network =>
    rw [hnetwork] at h
    cases hstate : s.mintState? with
    | none =>
      rw [hstate] at h
      cases h
    | some state =>
      rw [hstate] at h
      simp only at h
      have howner : sender = state.owner := by
        by_contra hne
        rw [if_pos hne] at h
        cases h
      rw [if_neg (not_not.mpr howner)] at h
      cases hlimit : state.limit.checkedSub (.ofWord (amountWord payload hlength)) with
      | none =>
        rw [hlimit] at h
        cases h
      | some nextLimit =>
        rw [hlimit] at h
        cases h
        -- The contract is installed, and what it says stands in its storage.
        obtain ⟨hinstalled, rfl⟩ := Store.mintState?_eq_some.mp hstate
        -- The numbers are those of the words, so the difference is exact.
        have hamount : (UInt256.ofWord (amountWord payload hlength)).toNat =
            Bytes.bigEndianValue (payload.take 32) := UInt256.toNat_ofWord _
        have hleft := UInt256.checkedSub_eq_some_iff.mp hlimit
        rw [UInt256.toNat_ofWord (s.word _ _)] at hleft
        have howner' := congrArg FixedBytes.toList howner
        have hknown := (BurnNetwork.exists_ofTag?_iff _).mp ⟨network, hnetwork⟩
        exact ⟨⟨hlength, hreceiver, hknown, hinstalled, howner'.symm, by omega⟩,
          ⟨rfl, hamount, hleft, rfl, BurnNetwork.tag_of_ofTag? hnetwork, rfl⟩⟩

/-- Everything in the language is read. -/
theorem IsReadable.exists_read {s : Store} {sender receiver : Address} {payload : Bytes}
    (h : IsReadable s sender receiver payload) :
    ∃ instruction, read s sender receiver payload = .ok instruction := by
  obtain ⟨network, hnetwork⟩ := (BurnNetwork.exists_ofTag?_iff _).mpr h.tag_known
  have hstate := Store.mintState?_eq_some.mpr ⟨h.installed, rfl⟩
  have howner : sender = .ofWord (s.word MintContract.address MintContract.ownerSlot) :=
    FixedBytes.ext h.owner_eq.symm
  -- The amount can be taken from what is left.
  have hle : (UInt256.ofWord (amountWord payload h.length_eq)).toNat ≤
      (UInt256.ofWord (s.word MintContract.address MintContract.limitSlot)).toNat := by
    rw [UInt256.toNat_ofWord, UInt256.toNat_ofWord]
    exact h.amount_le
  cases hlimit : (UInt256.ofWord (s.word MintContract.address MintContract.limitSlot)).checkedSub
      (.ofWord (amountWord payload h.length_eq)) with
  | none =>
    have hlt := UInt256.checkedSub_eq_none_iff.mp hlimit
    omega
  | some nextLimit =>
    have hlength : payload.length = payloadLength := h.length_eq
    rw [read, dif_pos hlength, if_neg (not_not.mpr h.receiver_eq)]
    simp only [hnetwork, hstate]
    rw [if_neg (not_not.mpr howner)]
    simp only [hlimit]
    exact ⟨_, rfl⟩

/-- For sixty-five bytes with a known tag, it is the contract that decides: its owner, and what is left. -/
theorem isReadable_iff {s : Store} {state : MintState} (hstate : s.mintState? = some state)
    (sender : Address) {payload : Bytes} (hlength : payload.length = 65)
    (htag : payload.getD 64 0 = 0 ∨ payload.getD 64 0 = 1) :
    IsReadable s sender MintContract.address payload ↔
      sender = state.owner ∧ Bytes.bigEndianValue (payload.take 32) ≤ state.limit.toNat := by
  obtain ⟨hinstalled, rfl⟩ := Store.mintState?_eq_some.mp hstate
  simp only [UInt256.toNat_ofWord]
  constructor
  · intro h
    exact ⟨FixedBytes.ext h.owner_eq.symm, h.amount_le⟩
  · rintro ⟨rfl, hle⟩
    exact ⟨hlength, rfl, htag, hinstalled, rfl, hle⟩

/-! ## Writing again -/

/-- Thirty-two bytes are the digits of the number they denote. -/
theorem toBytes_of_toNat_eq {a : UInt256} {bytes : Bytes} (hlength : bytes.length = 32)
    (h : a.toNat = Bytes.bigEndianValue bytes) : a.toBytes = bytes := by
  have hword : a = .ofWord ⟨bytes, hlength⟩ := by
    rw [← UInt256.toNat_inj, UInt256.toNat_ofWord, h]
  rw [hword]
  exact UInt256.toBytes_ofWord ⟨bytes, hlength⟩

/-- The bytes of the amount are the first word of the payload. -/
theorem Renders.toBytes_amount {s : Store} {sender : Address} {payload : Bytes}
    {instruction : Instruction} (h : Renders s sender payload instruction)
    (hlength : payload.length = 65) : instruction.amount.toBytes = payload.take 32 := by
  have htake : (payload.take 32).length = 32 := by
    rw [List.length_take]
    omega
  exact toBytes_of_toNat_eq htake h.amount_eq

/-- Writing what was read gives the payload back. -/
theorem Renders.encodePayload_eq {s : Store} {sender : Address} {payload : Bytes}
    {instruction : Instruction} (h : Renders s sender payload instruction)
    (hlength : payload.length = 65) :
    encodePayload instruction.amount instruction.burn instruction.network = payload := by
  rw [encodePayload, h.toBytes_amount hlength, h.burn_eq, h.tag_eq]
  exact (payload_eq_append hlength).symm

end Instruction

namespace Step

variable {σ : Type} {w : World σ}

/-- Reading leaves the store alone and answers what there is to read. -/
theorem exists_runOn_readInstruction (sender receiver : Address) (payload : Bytes) (w : World σ) :
    ∃ v, runOn (readInstruction sender receiver payload) w =
      (.ok (Instruction.read w.store sender receiver payload).toOption, v) ∧ v.store = w.store := by
  rw [readInstruction, runOn_bind_of_ok (runOn_store w)]
  cases Instruction.read w.store sender receiver payload with
  | ok instruction => exact ⟨w, rfl, rfl⟩
  | error rejection =>
    -- Some rejections are given notice of; the message is an ordinary call either way.
    cases hnotice : rejection.notice? with
    | none =>
      refine ⟨w, ?_, rfl⟩
      simp only [hnotice]
      rfl
    | some notice =>
      refine ⟨w.withLedger (w.toLedger.note notice), ?_, rfl⟩
      simp only [hnotice]
      rfl

/-- The step answers with an instruction exactly if one is read. -/
theorem readInstruction_eq_some {sender receiver : Address} {payload : Bytes}
    {instruction : Instruction} :
    (runOn (readInstruction sender receiver payload) w).1 = .ok (some instruction) ↔
      Instruction.read w.store sender receiver payload = .ok instruction := by
  obtain ⟨v, hrun, -⟩ := exists_runOn_readInstruction sender receiver payload w
  rw [hrun]
  cases Instruction.read w.store sender receiver payload <;> simp [Except.toOption]

/-- The interpreter accepts exactly its language and answers that there is no instruction otherwise.
What it accepts is what the bytes say: writing the amount, the burn and the ledger again gives the payload
back byte for byte, so payloads that say the same are the same, whoever sent them to whichever store. -/
theorem readInstruction_language (sender receiver : Address) (payload : Bytes) (w : World σ) :
    ((∃ instruction, (runOn (readInstruction sender receiver payload) w).1 = .ok (some instruction)) ↔
        Instruction.IsReadable w.store sender receiver payload) ∧
      (¬ Instruction.IsReadable w.store sender receiver payload →
        (runOn (readInstruction sender receiver payload) w).1 = .ok none) ∧
      ∀ instruction,
        (runOn (readInstruction sender receiver payload) w).1 = .ok (some instruction) →
        Instruction.Renders w.store sender payload instruction ∧
          Instruction.encodePayload instruction.amount instruction.burn instruction.network =
            payload ∧
          ∀ (sender' receiver' : Address) (payload' : Bytes) (w' : World σ) (instruction' : Instruction),
            (runOn (readInstruction sender' receiver' payload') w').1 = .ok (some instruction') →
            instruction'.amount = instruction.amount → instruction'.burn = instruction.burn →
            instruction'.network = instruction.network → payload' = payload := by
  have hwritten : ∀ (sender receiver : Address) (payload : Bytes) (w : World σ) instruction,
      (runOn (readInstruction sender receiver payload) w).1 = .ok (some instruction) →
      Instruction.encodePayload instruction.amount instruction.burn instruction.network = payload := by
    intro sender receiver payload w instruction h
    obtain ⟨hreadable, hrenders⟩ := Instruction.read_eq_ok (readInstruction_eq_some.mp h)
    exact hrenders.encodePayload_eq hreadable.length_eq
  refine ⟨⟨?_, ?_⟩, ?_, ?_⟩
  · rintro ⟨instruction, h⟩
    obtain ⟨hreadable, -⟩ := Instruction.read_eq_ok (readInstruction_eq_some.mp h)
    exact hreadable
  · intro h
    obtain ⟨instruction, hread⟩ := h.exists_read
    exact ⟨instruction, readInstruction_eq_some.mpr hread⟩
  · -- The answer is never a refusal, so what is not read is answered with nothing.
    intro hnot
    obtain ⟨v, hrun, -⟩ := exists_runOn_readInstruction sender receiver payload w
    rw [hrun]
    cases hread : Instruction.read w.store sender receiver payload with
    | ok instruction =>
      obtain ⟨hreadable, -⟩ := Instruction.read_eq_ok hread
      exact absurd hreadable hnot
    | error rejection => rfl
  · intro instruction h
    obtain ⟨-, hrenders⟩ := Instruction.read_eq_ok (readInstruction_eq_some.mp h)
    refine ⟨hrenders, hwritten _ _ _ _ _ h, ?_⟩
    -- Two payloads that say the same are both what is written for it.
    intro sender' receiver' payload' w' instruction' h' hamount hburn hnetwork
    rw [← hwritten _ _ _ _ _ h, ← hwritten _ _ _ _ _ h', hamount, hburn, hnetwork]

/-- A store with funds in which account 7 may mint a thousand. -/
def mintingStore : Store :=
  (⟨1, .ofNat 7, .ofNat 1000⟩ : MintFork).install (Store.withBalances [(.ofNat 7, .ofNat 1000000)])

theorem readInstruction_language_tron :
    Instruction.IsReadable mintingStore (.ofNat 7) MintContract.address
        (Instruction.encodePayload (.ofNat 400) (.ofUInt64 5) .tron) ∧
      ∃ instruction, (runOn (readInstruction (.ofNat 7) MintContract.address
          (Instruction.encodePayload (.ofNat 400) (.ofUInt64 5) .tron))
          (.ofStore mintingStore ())).1 = .ok (some instruction) ∧
        instruction.amount.toNat = 400 ∧ instruction.nextLimit.toNat = 600 := by
  have hreadable : Instruction.IsReadable mintingStore (.ofNat 7) MintContract.address
      (Instruction.encodePayload (.ofNat 400) (.ofUInt64 5) .tron) :=
    ⟨rfl, rfl, by decide, rfl, by decide, by decide⟩
  obtain ⟨haccepted, -, hrendered⟩ := readInstruction_language (.ofNat 7) MintContract.address
    (Instruction.encodePayload (.ofNat 400) (.ofUInt64 5) .tron) (.ofStore mintingStore ())
  obtain ⟨instruction, h⟩ := haccepted.mpr hreadable
  obtain ⟨hrenders, -, -⟩ := hrendered instruction h
  have hamount : instruction.amount.toNat = 400 := hrenders.amount_eq
  have hleft : instruction.nextLimit.toNat + instruction.amount.toNat = 1000 := hrenders.nextLimit_eq
  exact ⟨hreadable, instruction, h, hamount, by omega⟩

end Step

end BridgeMint
