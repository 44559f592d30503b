import BridgeMint.Proofs.Store.Closing

/-!
# Leaving the nonces alone

A program that sets no nonce can still change nonces by going back, to a snapshot from before some nonce was
set.  If it goes back only to snapshots that it took itself, all nonces stay as they were: the notes that it
takes back are its own, and none of them is of a nonce.
-/

namespace BridgeMint

/-! ## Operations and notes -/

/-- Operations that leave the nonces alone: they set none, and go back only to snapshots with the number
`floor` or a later one. -/
def Operation.SparesNonces (floor : Nat) : Operation → Prop
  | .setNonce _ _ => False
  | .revertTo id => floor ≤ id
  | _ => True

/-- A note whose taking back leaves the nonces of `b` alone. -/
def Change.SparesNonces (b : Store) : Change → Prop
  | .nonceSet _ _ => False
  | .created a => b.nonce a = 0
  | _ => True

namespace Store

theorem nonce_of_not_hasAccount {s : Store} {a : Address} (h : s.hasAccount a = false) :
    s.nonce a = 0 := by
  rw [nonce, record_of_not_hasAccount h]
  rfl

/-- A write of anything but a nonce keeps all nonces. -/
theorem nonce_write_of_ne {m : Amendment} (hm : ∀ n, m ≠ .nonce n) (s : Store) (a a' : Address) :
    (s.write a m).nonce a' = s.nonce a' := by
  refine record_write_congr (·.header.nonce) ?_ a'
  cases m with
  | nonce n => exact absurd rfl (hm n)
  | _ => rfl

/-! ## Taking back -/

/-- Taking back a note that spares the nonces keeps them. -/
theorem nonce_undo {b s : Store} {c : Change} (hc : c.SparesNonces b)
    (hs : ∀ a, s.nonce a = b.nonce a) (a : Address) : (s.undo c).nonce a = b.nonce a := by
  rcases undo_cases c with ⟨a', rfl⟩ | ⟨i, rfl⟩ | ⟨a', -, -, h⟩
  · -- The account that is dropped had the nonce zero.
    have hzero : b.nonce a' = 0 := hc
    simp only [undo, nonce, record, SortedMap.get?_erase]
    split
    · next heq =>
      rw [heq]
      exact hzero.symm
    · exact hs a
  · exact hs a
  · -- Of the notes that put something back, only that of a nonce puts back a nonce.
    have hkept : ∀ r : AccountRecord, (c.takeBack r).header.nonce = r.header.nonce := by
      intro r
      cases c with
      | nonceSet a' n => exact hc.elim
      | codeSet a' previous => cases previous <;> rfl
      | _ => rfl
    rw [h, ← hs a]
    simp only [nonce, record, get?_restore]
    split
    · next heq =>
      rw [heq]
      cases s.accounts.get? a' with
      | none => rfl
      | some r => exact hkept r
    · rfl

/-- Taking back several notes that spare the nonces keeps them. -/
theorem nonce_undoMany {b s : Store} {n : Nat}
    (hnotes : ∀ c ∈ s.journal.newestFirst.take n, c.SparesNonces b)
    (hs : ∀ a, s.nonce a = b.nonce a) (a : Address) : (s.undoMany n).nonce a = b.nonce a := by
  induction n generalizing s with
  | zero => exact hs a
  | succ n ih =>
    cases hjournal : s.journal.newestFirst with
    | nil =>
      -- Nothing is left to take back.
      have hstays : s.undoNewest = s := by simp only [undoNewest, hjournal]
      rw [undoMany, hstays]
      exact ih (by simp [hjournal]) hs
    | cons c older =>
      rw [hjournal, List.take_succ_cons, List.forall_mem_cons] at hnotes
      obtain ⟨hnewest, holder⟩ := hnotes
      rw [undoMany, undoNewest_of_cons hjournal]
      -- After the newest note the older ones are those that were taken along.
      refine ih ?_ (nonce_undo hnewest hs)
      rw [journal_undo]
      exact holder

/-! ## Programs -/

/-- The store `s` comes from `b` by a program that leaves the nonces alone: the nonces are as they were, and
going back to a snapshot that was not open in `b` takes back some of `n` notes, which spare the nonces. -/
structure NoncesKept (b s : Store) : Prop where
  nonce_eq : ∀ a, s.nonce a = b.nonce a
  notes : ∃ n, (∀ c ∈ s.journal.newestFirst.take n, c.SparesNonces b) ∧
    ∀ snap ∈ s.snapshots, b.nextSnapshot ≤ snap.id → s.journal.length ≤ snap.mark + n
  nextSnapshot_le : b.nextSnapshot ≤ s.nextSnapshot

theorem NoncesKept.refl {b : Store} (hb : b.Sound) : NoncesKept b b := by
  refine ⟨fun _ => rfl, ⟨0, fun c hc => by simp at hc, fun snap hsnap hle => ?_⟩, Nat.le_refl _⟩
  -- No snapshot that is open in `b` has a number that `b` has not given out.
  have hlt := hb.openSnapshots snap hsnap
  omega

/-- A write of anything but a nonce keeps the invariant, with its own notes counted. -/
theorem NoncesKept.write {b s : Store} (h : NoncesKept b s) (a : Address) {m : Amendment}
    (hm : ∀ n, m ≠ .nonce n) : NoncesKept b (s.write a m) := by
  obtain ⟨hnonce, ⟨n, hnotes, hmarks⟩, hle⟩ := h
  have hjournal := congrArg Journal.newestFirst (journal_write s a m)
  -- Neither of the two notes of a write is of a nonce.
  have hnew : ∀ c ∈ s.writeNotes a m, c.SparesNonces b := by
    intro c hc
    unfold writeNotes at hc
    rcases List.mem_cons.mp hc with rfl | hc
    · cases m with
      | nonce k => exact absurd rfl (hm k)
      | _ => trivial
    · -- An account that is created did not exist, so its nonce was zero.
      split at hc
      · exact (List.not_mem_nil hc).elim
      · next hexists =>
        rw [List.mem_singleton.mp hc]
        show b.nonce a = 0
        rw [← hnonce a]
        exact nonce_of_not_hasAccount (by simpa using hexists)
  refine ⟨fun a' => (nonce_write_of_ne hm s a a').trans (hnonce a'),
    ⟨(s.writeNotes a m).length + n, fun c hc => ?_, fun snap hsnap hid => ?_⟩, ?_⟩
  · rw [hjournal, List.take_length_add_append] at hc
    rcases List.mem_append.mp hc with hc | hc
    · exact hnew c hc
    · exact hnotes c hc
  · rw [snapshots_write] at hsnap
    have hmark := hmarks snap hsnap hid
    simp only [Journal.length] at hmark ⊢
    rw [hjournal, List.length_append]
    omega
  · rw [nextSnapshot_write]
    exact hle

/-- One operation keeps the invariant. -/
theorem NoncesKept.move {b s t : Store} {op : Operation} (h : NoncesKept b s) (hmove : Move s op t)
    (hop : op.SparesNonces b.nextSnapshot) : NoncesKept b t := by
  cases hmove with
  | keep => exact h
  | write hamends =>
    refine h.write _ fun n hn => ?_
    cases hamends with
    | setNonce a k => exact hop
    | _ => cases hn
  | selectTx i => exact ⟨h.nonce_eq, h.notes, h.nextSnapshot_le⟩
  | addLog log =>
    obtain ⟨hnonce, ⟨n, hnotes, hmarks⟩, hle⟩ := h
    refine ⟨hnonce, ⟨n + 1, fun c hc => ?_, fun snap hsnap hid => ?_⟩, hle⟩
    · rcases List.mem_cons.mp hc with rfl | hc
      · trivial
      · exact hnotes c hc
    · have hmark := hmarks snap hsnap hid
      show s.journal.newestFirst.length + 1 ≤ _
      rw [Journal.length] at hmark
      omega
  | clearLogs => exact ⟨h.nonce_eq, h.notes, h.nextSnapshot_le⟩
  | snapshot =>
    obtain ⟨hnonce, ⟨n, hnotes, hmarks⟩, hle⟩ := h
    refine ⟨hnonce, ⟨n, hnotes, fun snap hsnap hid => ?_⟩, Nat.le_succ_of_le hle⟩
    rcases List.mem_cons.mp hsnap with rfl | hsnap
    · -- The mark of the new snapshot keeps every note.
      exact Nat.le_add_right _ _
    · exact hmarks snap hsnap hid
  | @revertTo id _ hrevert =>
    obtain ⟨hnonce, ⟨n, hnotes, hmarks⟩, hle⟩ := h
    obtain ⟨newer, snap, older, hsnapshots, hid, -, rfl⟩ := revertTo_eq_ok.mp hrevert
    have hfloor : b.nextSnapshot ≤ id := hop
    -- The snapshot was not open in `b`, so no more is taken back than the notes that are counted.
    have hmark := hmarks snap (by rw [hsnapshots]; simp) (by omega)
    refine ⟨nonce_undoMany (s := { s with snapshots := older }) (fun c hc => hnotes c ?_) hnonce,
      ⟨n - (s.journal.length - snap.mark), fun c hc => ?_, fun snap' hsnap' hid' => ?_⟩, ?_⟩
    · exact List.take_subset_take_left _ (by omega) hc
    · -- The notes that are left of those counted are some of them.
      rw [newestFirst_undoMany, List.take_drop] at hc
      exact hnotes c (List.take_subset_take_left _ (by omega) (List.mem_of_mem_drop hc))
    · rw [snapshots_undoMany] at hsnap'
      have hmark' := hmarks snap' (by rw [hsnapshots]; simp [hsnap']) hid'
      rw [length_undoMany]
      show s.journal.length - _ ≤ _
      omega
    · rw [nextSnapshot_undoMany]
      exact hle
  | commit =>
    -- After a commit no snapshot is open, so no note can be taken back any more.
    refine ⟨h.nonce_eq, ⟨0, fun c hc => by simp at hc, fun snap hsnap => ?_⟩, h.nextSnapshot_le⟩
    exact (List.not_mem_nil hsnap).elim

/-- A program that spares the nonces keeps the invariant. -/
theorem NoncesKept.after {b s : Store} {ops : List Operation} (h : NoncesKept b s)
    (hops : ∀ op ∈ ops, op.SparesNonces b.nextSnapshot) : NoncesKept b (s.after ops) := by
  -- By induction on the program, with `NoncesKept.move` for each operation.
  induction ops generalizing s with
  | nil => exact h
  | cons op ops ih =>
    refine ih (h.move (perform_move s op) (hops op List.mem_cons_self)) fun op' hop' => ?_
    exact hops op' (List.mem_cons_of_mem _ hop')

end Store

end BridgeMint
