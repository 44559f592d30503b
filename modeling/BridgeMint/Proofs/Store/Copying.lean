import BridgeMint.Proofs.Mint.Contract
import BridgeMint.Proofs.Store.Revert

/-!
# The store and its copies

A store that keeps a copy of itself at each snapshot, and goes back by fetching the copy, needs no
journal.  The journal does the same: run side by side, the two give the same replies and hold the same
accounts, logs, notes and snapshots, as long as no code but the empty one has the digest of the empty
byte string.
-/

namespace BridgeMint

/-! ## Code and its digest -/

/-- The digest tells whether the code is empty. -/
def CodeTold (code : Bytes) : Prop :=
  Word.keccak256 code = .emptyDigest → code = []

theorem codeTold_nil : CodeTold [] := fun _ => rfl

/-- The digest tells whether code that an operation sets is empty. -/
def Operation.CodeTold : Operation → Prop
  | .setCode _ c => BridgeMint.CodeTold c
  | _ => True

namespace AccountRecord

theorem codeTold_apply {r : AccountRecord} (h : CodeTold r.code) {m : Amendment}
    (hm : ∀ code, m = .code code → CodeTold code) : CodeTold (m.apply r).code := by
  cases m with
  | code code => exact hm code rfl
  | _ => exact h

/-- Where the digest tells the code, the core says all there is to say. -/
theorem eq_of_core_eq {r r' : AccountRecord} (hr : r.Sound) (hr' : r'.Sound)
    (htold : CodeTold r.code) (htold' : CodeTold r'.code) (h : r.core = r'.core) : r = r' := by
  simp only [core, Prod.mk.injEq, code?_eq] at h
  obtain ⟨hheader, hstorage, hcode⟩ := h
  -- Only the code is in question: the core shows it if the digest says that there is some.
  have hsame : r.code = r'.code := by
    by_cases hempty : r.header.codeHash = .emptyDigest
    · -- Neither has code.
      have hempty' : r'.header.codeHash = .emptyDigest := hheader ▸ hempty
      rw [htold (hr.codeHash_eq.symm.trans hempty), htold' (hr'.codeHash_eq.symm.trans hempty')]
    · have hempty' : ¬ r'.header.codeHash = .emptyDigest := hheader ▸ hempty
      rw [if_neg hempty, if_neg hempty'] at hcode
      exact Option.some.inj hcode
  cases r
  cases r'
  simp only at hheader hstorage hsame
  rw [hheader, hstorage, hsame]

end AccountRecord

namespace Store

/-- The digest tells of every account whether its code is empty. -/
def CodesTold (s : Store) : Prop :=
  ∀ a r, s.accounts.get? a = some r → CodeTold r.code

/-- A store that begins with balances has no code at all. -/
theorem codesTold_withBalances (balances : List (Address × UInt256)) :
    (withBalances balances).CodesTold :=
  forall_withBalances codeTold_nil (fun _ _ h => h) balances

/-- This also holds of the blank record of an account that does not exist. -/
theorem CodesTold.record {s : Store} (h : s.CodesTold) (a : Address) : CodeTold (s.record a).code := by
  simp only [Store.record]
  cases hget : s.accounts.get? a with
  | none => exact codeTold_nil
  | some r => exact h a r hget

/-- A write keeps the codes told, if the code that it sets is told. -/
theorem CodesTold.write {s : Store} (h : s.CodesTold) {a : Address} {m : Amendment}
    (hm : ∀ code, m = .code code → CodeTold code) : (s.write a m).CodesTold := by
  intro a' r hget
  rw [get?_write] at hget
  split at hget
  · cases hget
    exact AccountRecord.codeTold_apply (h.record a) hm
  · exact h a' r hget

/-- Code that is put back was noted, and noted code is told from no code. -/
theorem CodesTold.undoNewest {s : Store} (h : s.CodesTold) (hs : s.Sound) :
    s.undoNewest.CodesTold := by
  unfold Store.undoNewest
  split
  · exact h
  · next c older hjournal =>
    have hnoted : ∀ a code, c = .codeSet a (some code) → CodeTold code := by
      intro a code hc hdigest
      have hmem : Change.codeSet a (some code) ∈ s.journal.newestFirst := by simp [hjournal, hc]
      exact absurd hdigest (hs.notedCode a code hmem)
    intro a r hget
    rcases undo_cases c with ⟨b, rfl⟩ | ⟨i, rfl⟩ | ⟨b, -, -, hundo⟩
    · simp only [undo, SortedMap.get?_erase] at hget
      split at hget
      · cases hget
      · exact h a r hget
    · exact h a r hget
    · -- Of what is put back, only noted code changes the code of a record.
      rw [hundo, get?_restore] at hget
      split at hget
      · obtain ⟨old, hold, rfl⟩ := Option.map_eq_some_iff.mp hget
        have htold := h b old hold
        cases c with
        | codeSet b' previous =>
          cases previous with
          | none => exact codeTold_nil
          | some code => exact hnoted b' code rfl
        | _ => exact htold
      · exact h a r hget

/-- Taking back changes keeps the codes told. -/
theorem CodesTold.undoMany {s : Store} (h : s.CodesTold) (hs : s.Sound) (n : Nat) :
    (s.undoMany n).CodesTold := by
  -- What is put back is sound because the store was, so the two are carried along together.
  obtain ⟨htold, -⟩ : (s.undoMany n).CodesTold ∧ (s.undoMany n).Sound :=
    undoMany_induction (P := fun t => t.CodesTold ∧ t.Sound)
      (fun t ⟨htold, hsound⟩ => ⟨htold.undoNewest hsound, hsound.undoNewest⟩) n ⟨h, hs⟩
  exact htold

/-- An operation keeps the codes told, if the code that it sets is told. -/
theorem CodesTold.move {s t : Store} {op : Operation} (h : s.CodesTold) (hs : s.Sound)
    (hop : op.CodeTold) (hmove : Move s op t) : t.CodesTold := by
  cases hmove with
  | write hamends =>
    -- Only setting code puts code into a record.
    refine h.write fun code hcode => ?_
    cases hamends <;> cases hcode
    exact hop
  | revertTo hrevert =>
    obtain ⟨newer, snap, older, hsnapshots, -, -, rfl⟩ := revertTo_eq_ok.mp hrevert
    exact CodesTold.undoMany (s := { s with snapshots := older }) h (hs.closed hsnapshots) _
  | _ => exact h

/-- Stores that agree have the same accounts, where the digest tells the code. -/
theorem Agree.accounts_eq {s t : Store} (h : s.Agree t) (hs : s.Sound) (ht : t.Sound)
    (hstold : s.CodesTold) (httold : t.CodesTold) : s.accounts = t.accounts := by
  -- The two stores hold the same accounts, and each record is told from every other by its core.
  refine SortedMap.ext_get? fun a => ?_
  have ha := h.accounts a
  cases hsa : s.accounts.get? a with
  | none =>
    rw [hsa, Option.map_none] at ha
    exact (Option.map_eq_none_iff.mp ha.symm).symm
  | some r =>
    rw [hsa, Option.map_some] at ha
    obtain ⟨r', hta, hcore⟩ := Option.map_eq_some_iff.mp ha.symm
    rw [hta]
    have heq := AccountRecord.eq_of_core_eq (hs.records a r hsa) (ht.records a r' hta)
      (hstold a r hsa) (httold a r' hta) hcore.symm
    rw [heq]

/-- So does a program. -/
theorem CodesTold.after {s : Store} {ops : List Operation} (h : s.CodesTold) (hs : s.Sound)
    (hops : ∀ op ∈ ops, op.CodeTold) : (s.after ops).CodesTold := by
  induction ops generalizing s with
  | nil => exact h
  | cons op ops ih =>
    have hmove := perform_move s op
    have htold := h.move hs (hops op List.mem_cons_self) hmove
    exact ih htold (hs.move hmove) fun op' hop' => hops op' (List.mem_cons_of_mem _ hop')

/-- Only opening, going back and committing touch the open snapshots. -/
theorem snapshots_perform {s : Store} {op : Operation} (hop : ∀ floor, op.IsJournaled floor)
    (hne : op ≠ .snapshot) : (s.perform op).snapshots = s.snapshots := by
  -- An operation that the journal takes back at every floor is none of the three.
  have hkeeps : ¬ op.MovesSnapshots := fun hmoves => by
    cases op with
    | snapshot => exact hne rfl
    | revertTo id => exact absurd (hop (id + 1)) (Nat.not_succ_le_self id)
    | commit => exact (hop 0).elim
    | _ => exact hmoves
  obtain ⟨hsnapshots, -⟩ := (perform_move s op).snapshots_eq hkeeps
  exact hsnapshots

end Store

/-! ## A store without a journal -/

/-- A store that keeps a copy of itself for each open snapshot. -/
structure CopyingStore where
  now : Store
  /-- The store at each open snapshot, newest first.  The snapshot has the number that the copy was
  about to give out. -/
  copies : List Store

namespace CopyingStore

/-- A store of which no copies have been made. -/
def ofStore (s : Store) : CopyingStore := ⟨s, []⟩

/-- Fetches the copy made at a snapshot and drops the later ones.  Numbers that were given out stay so,
and the selected transaction stays selected. -/
def revertTo (c : CopyingStore) (id : Nat) : Except StoreError CopyingStore :=
  match c.copies.dropWhile (·.nextSnapshot ≠ id) with
  | [] => .error (.unknownSnapshot id)
  | copy :: older =>
    .ok ⟨{ copy with nextSnapshot := c.now.nextSnapshot, txIndex := c.now.txIndex }, older⟩

/-- Runs one operation. -/
def perform (c : CopyingStore) : Operation → Reply × CopyingStore
  | .snapshot => (.snapshot c.now.nextSnapshot, ⟨c.now.snapshot.2, c.now :: c.copies⟩)
  | .revertTo id =>
    match c.revertTo id with
    | .ok after => (.done, after)
    | .error cause => (.refused cause, c)
  | .commit => (.done, ⟨c.now.commit, []⟩)
  | op =>
    let (reply, ledger) := (Ledger.ofStore c.now).perform op
    (reply, { c with now := ledger.store })

/-- Runs operations one after another and collects their replies. -/
def performAll (c : CopyingStore) : List Operation → List Reply × CopyingStore
  | [] => ([], c)
  | op :: rest =>
    let (reply, next) := c.perform op
    let (replies, last) := next.performAll rest
    (reply :: replies, last)

/-! ## Side by side

The copies correspond to the snapshots opened since the start, and the journal extends each of them:
this is what every operation keeps.
-/

/-- The snapshot that a copy was made at. -/
def mark (copy : Store) : Snapshot := ⟨copy.nextSnapshot, copy.journal.length⟩

/-- What a copy has to do with the store that goes on from it. -/
structure CopyOf (s copy : Store) : Prop where
  sound : copy.Sound
  told : copy.CodesTold
  extended : copy.snapshot.2.Extends s

/-- Since the store was `b`, the copies have been made at the snapshots that are open now, and going
back by the journal finds each of them. -/
structure Mirrors (b : Store) (c : CopyingStore) : Prop where
  extended : b.Extends c.now
  told : c.now.CodesTold
  snapshots : c.now.snapshots = c.copies.map mark ++ b.snapshots
  copies : ∀ copy ∈ c.copies, CopyOf c.now copy ∧ b.nextSnapshot ≤ copy.nextSnapshot
  descending : c.copies.Pairwise fun newer older => older.nextSnapshot < newer.nextSnapshot

/-- What is journaled above the snapshot of a copy leaves the copy within reach. -/
theorem CopyOf.move {s t copy : Store} {op : Operation} (h : CopyOf s copy)
    (hop : op.IsJournaled (copy.nextSnapshot + 1)) (hmove : Store.Move s op t) : CopyOf t copy :=
  ⟨h.sound, h.told, h.extended.move (h.sound.move .snapshot) hmove hop⟩

theorem Mirrors.ofStore {s : Store} (hs : s.Sound) (htold : s.CodesTold) :
    Mirrors s (ofStore s) := by
  refine ⟨.refl hs, htold, rfl, ?_, .nil⟩
  intro copy hcopy
  exact (List.not_mem_nil hcopy).elim

/-- An operation that has nothing to do with snapshots keeps the copies. -/
theorem Mirrors.keepCopies {b : Store} {c : CopyingStore} {op : Operation} (h : Mirrors b c)
    (hb : b.Sound) (hcode : op.CodeTold) (hop : ∀ floor, op.IsJournaled floor) (hne : op ≠ .snapshot) :
    Mirrors b { c with now := c.now.perform op } := by
  have hmove := Store.perform_move c.now op
  refine ⟨h.extended.move hb hmove (hop _), h.told.move h.extended.sound hcode hmove, ?_, ?_,
    h.descending⟩
  · exact (Store.snapshots_perform hop hne).trans h.snapshots
  · intro copy hcopy
    obtain ⟨hof, hle⟩ := h.copies copy hcopy
    exact ⟨hof.move (hop _) hmove, hle⟩

/-- Opening a snapshot makes a copy. -/
theorem Mirrors.snapshot {b : Store} {c : CopyingStore} (h : Mirrors b c) (hb : b.Sound) :
    Mirrors b ⟨c.now.snapshot.2, c.now :: c.copies⟩ := by
  have hsound := h.extended.sound
  have hmove : Store.Move c.now .snapshot c.now.snapshot.2 := .snapshot
  have hjournaled : ∀ floor, Operation.snapshot.IsJournaled floor := fun _ => trivial
  have hcode : Operation.snapshot.CodeTold := trivial
  refine ⟨h.extended.move hb hmove (hjournaled _), h.told.move hsound hcode hmove, ?_, ?_, ?_⟩
  · simp only [Store.snapshot, h.snapshots]
    rfl
  · intro copy hcopy
    rcases List.mem_cons.mp hcopy with rfl | hcopy
    · exact ⟨⟨hsound, h.told, .refl (hsound.move hmove)⟩, h.extended.nextSnapshot_le⟩
    · obtain ⟨hof, hle⟩ := h.copies copy hcopy
      exact ⟨hof.move (hjournaled _) hmove, hle⟩
  · -- The numbers of the older copies have been given out by now.
    refine List.pairwise_cons.mpr ⟨?_, h.descending⟩
    intro copy hcopy
    obtain ⟨hof, -⟩ := h.copies copy hcopy
    exact hof.extended.nextSnapshot_le

/-- Going back by the journal finds the copy, but for the numbers given out and the selected
transaction. -/
theorem CopyOf.revertTo {s copy : Store} (h : CopyOf s copy) (hs : s.CodesTold) :
    s.revertTo copy.nextSnapshot =
      .ok { copy with nextSnapshot := s.nextSnapshot, txIndex := s.txIndex } := by
  obtain ⟨t, hrevert, hagree, hsnapshots, ht⟩ := Store.revertTo_extends h.extended
  -- What is put back is told from no code, so agreement is equality.
  have hcode : (Operation.revertTo copy.nextSnapshot).CodeTold := trivial
  have htold : t.CodesTold := hs.move h.extended.sound hcode (.revertTo hrevert)
  have haccounts := hagree.accounts_eq ht h.sound htold h.told
  obtain ⟨htx, hnext⟩ := Store.revertTo_rest hrevert
  have hcopied : { copy with nextSnapshot := s.nextSnapshot, txIndex := s.txIndex } = t := by
    rw [← haccounts, ← hagree.logs, ← hagree.journal, ← hsnapshots, ← htx, ← hnext]
  rw [hcopied]
  exact hrevert

/-- After going back to the snapshot of a copy, the older copies are left. -/
theorem Mirrors.goneBack {b t copy : Store} {c : CopyingStore} {newer older : List Store}
    (h : Mirrors b c) (hb : b.Sound) (hcopies : c.copies = newer ++ copy :: older)
    (hrevert : c.now.revertTo copy.nextSnapshot = .ok t) : Mirrors b ⟨t, older⟩ := by
  have hmove : Store.Move c.now (.revertTo copy.nextSnapshot) t := .revertTo hrevert
  have hcode : (Operation.revertTo copy.nextSnapshot).CodeTold := trivial
  have hdescending := h.descending
  rw [hcopies, List.pairwise_append, List.pairwise_cons] at hdescending
  obtain ⟨-, ⟨holder, holders⟩, hnewer⟩ := hdescending
  -- Number and mark of each snapshot are those of its copy.
  obtain ⟨-, hle⟩ := h.copies copy (hcopies ▸ List.mem_append_right _ List.mem_cons_self)
  refine ⟨h.extended.move hb hmove hle, h.told.move h.extended.sound hcode hmove, ?_, ?_, holders⟩
  · apply Store.snapshots_of_revertTo hrevert
    · rw [h.snapshots, hcopies, List.map_append, List.map_cons, List.append_assoc]
      rfl
    · rfl
    · intro snap hsnap
      obtain ⟨copy', hcopy', rfl⟩ := List.mem_map.mp hsnap
      exact Nat.ne_of_gt (hnewer copy' hcopy' copy List.mem_cons_self)
  · -- An older copy is of a snapshot that stays open.
    intro copy' hcopy'
    obtain ⟨hof, hle'⟩ := h.copies copy'
      (hcopies ▸ List.mem_append_right _ (List.mem_cons_of_mem _ hcopy'))
    have hlater : (Operation.revertTo copy.nextSnapshot).IsJournaled (copy'.nextSnapshot + 1) :=
      holder copy' hcopy'
    exact ⟨hof.move hlater hmove, hle'⟩

/-- Going back by the journal and fetching the copy come to the same. -/
theorem Mirrors.revertTo {b : Store} {c : CopyingStore} {id : Nat} (h : Mirrors b c) (hb : b.Sound)
    (hid : b.nextSnapshot ≤ id) :
    (c.now.revertTo id = .error (.unknownSnapshot id) ∧ c.revertTo id = .error (.unknownSnapshot id)) ∨
      ∃ after, c.now.revertTo id = .ok after.now ∧ c.revertTo id = .ok after ∧ Mirrors b after := by
  cases hdrop : c.copies.dropWhile (fun copy => decide (copy.nextSnapshot ≠ id)) with
  | nil =>
    -- No copy has the number, and the snapshots of before have smaller ones.
    have hnone : ∀ copy ∈ c.copies, copy.nextSnapshot ≠ id := by
      simpa [List.dropWhile_eq_nil_iff] using hdrop
    left
    refine ⟨Store.revertTo_eq_error ?_, by simp only [CopyingStore.revertTo, hdrop]⟩
    intro snap hsnap
    rw [h.snapshots] at hsnap
    rcases List.mem_append.mp hsnap with hsnap | hsnap
    · obtain ⟨copy, hcopy, rfl⟩ := List.mem_map.mp hsnap
      exact hnone copy hcopy
    · have hlt := hb.openSnapshots snap hsnap
      omega
  | cons copy older =>
    obtain ⟨newer, hcopies, rfl, -⟩ := Store.dropWhile_ne_eq_cons.mp hdrop
    -- The first copy with the number is the one that both find.
    have hmem : copy ∈ c.copies := hcopies ▸ List.mem_append_right _ List.mem_cons_self
    obtain ⟨hof, -⟩ := h.copies copy hmem
    have hrevert := hof.revertTo h.told
    right
    exact ⟨⟨_, older⟩, hrevert, by simp only [CopyingStore.revertTo, hdrop],
      h.goneBack hb hcopies hrevert⟩

/-- One operation gets the same reply from both. -/
theorem Mirrors.perform {b : Store} {c : CopyingStore} {op : Operation} (h : Mirrors b c)
    (hb : b.Sound) (hop : op.IsJournaled b.nextSnapshot) (hcode : op.CodeTold) :
    (c.perform op).1 = ((Ledger.ofStore c.now).perform op).1 ∧
      (c.perform op).2.now = c.now.perform op ∧ Mirrors b (c.perform op).2 := by
  cases op with
  | clearLogs => exact hop.elim
  | commit => exact hop.elim
  | snapshot =>
    -- Both give out the same number.
    exact ⟨rfl, rfl, h.snapshot hb⟩
  | revertTo id =>
    simp only [CopyingStore.perform, Store.perform, Ledger.perform, Ledger.ofStore, Ledger.revertTo]
    rcases h.revertTo hb hop with ⟨hnow, hcopy⟩ | ⟨after, hnow, hcopy, hmirrors⟩
    · -- Both refuse and stay as they are.
      rw [hnow, hcopy]
      exact ⟨rfl, rfl, h⟩
    · -- Both go back.
      rw [hnow, hcopy]
      exact ⟨rfl, rfl, hmirrors⟩
  | _ => exact ⟨rfl, rfl, h.keepCopies hb hcode (fun _ => trivial) (by simp)⟩

/-- So does a program, however its snapshots are nested. -/
theorem Mirrors.performAll {b : Store} {c : CopyingStore} {ops : List Operation} (h : Mirrors b c)
    (hb : b.Sound) (hops : ∀ op ∈ ops, op.IsJournaled b.nextSnapshot ∧ op.CodeTold)
    (ledger : Ledger) (hledger : ledger.store = c.now) :
    (c.performAll ops).1 = (ledger.performAll ops).1 ∧
      (c.performAll ops).2.now = (ledger.performAll ops).2.store := by
  -- Going through the program, both sides move on from one operation to the next.
  induction ops generalizing c ledger with
  | nil => exact ⟨rfl, hledger.symm⟩
  | cons op ops ih =>
    obtain ⟨hjournaled, hcode⟩ := hops op List.mem_cons_self
    obtain ⟨hreply, hnow, hmirrors⟩ := h.perform hb hjournaled hcode
    -- The ledger that the journaling store stands in may hold any notices.
    obtain ⟨hreply', hstore⟩ := Ledger.perform_eq ledger op
    rw [hledger] at hreply' hstore
    obtain ⟨hreplies, hlast⟩ := ih hmirrors (fun op' hop' => hops op' (List.mem_cons_of_mem _ hop'))
      (ledger.perform op).2 (hstore.trans hnow.symm)
    simp only [CopyingStore.performAll, Ledger.performAll, hreplies, hlast, hreply, hreply', and_self]

end CopyingStore

namespace Store

/-- A program with a snapshot in front and the way back to it at the end. -/
def roundTrip (s : Store) (ops : List Operation) : List Operation :=
  .snapshot :: ops ++ [.revertTo s.snapshot.1]

/-- Going back to a snapshot is exact: it succeeds after every program that the journal can take back,
and finds the accounts, the logs, the journal and the open snapshots as they were.  The whole round
trip gets the replies that a store with copies gives, and ends in the same store. -/
theorem revertTo_snapshot_exact {s : Store} {ops : List Operation} (hs : s.Reachable)
    (hops : ∀ op ∈ ops, op.IsJournaled (s.nextSnapshot + 1)) (htold : s.CodesTold)
    (hcodes : ∀ op ∈ ops, op.CodeTold) :
    (∃ t, (s.snapshot.2.after ops).revertTo s.snapshot.1 = .ok t ∧ t.accounts = s.accounts ∧
        t.logs = s.logs ∧ t.journal = s.journal ∧ t.snapshots = s.snapshots) ∧
      ((Ledger.ofStore s).performAll (s.roundTrip ops)).1 =
        ((CopyingStore.ofStore s).performAll (s.roundTrip ops)).1 ∧
      ((Ledger.ofStore s).performAll (s.roundTrip ops)).2.store =
        ((CopyingStore.ofStore s).performAll (s.roundTrip ops)).2.now := by
  have hsound := hs.sound
  refine ⟨?_, ?_⟩
  · -- The store itself is a copy that the program goes on from.
    have hopened : s.snapshot.2.Sound := hsound.move .snapshot
    have hcopy : CopyingStore.CopyOf (s.snapshot.2.after ops) s :=
      ⟨hsound, htold, (Extends.refl hopened).after hopened hops⟩
    have hopenedTold : s.snapshot.2.CodesTold := htold
    exact ⟨_, hcopy.revertTo (hopenedTold.after hopened hcodes), rfl, rfl, rfl, rfl⟩
  · -- The whole round trip can be taken back from before the snapshot.
    have hprogram : ∀ op ∈ s.roundTrip ops, op.IsJournaled s.nextSnapshot ∧ op.CodeTold := by
      intro op hop
      rcases List.mem_append.mp hop with hop | hop
      · rcases List.mem_cons.mp hop with rfl | hop
        · exact ⟨trivial, trivial⟩
        · exact ⟨(hops op hop).mono (Nat.le_succ _), hcodes op hop⟩
      · rw [List.mem_singleton.mp hop]
        exact ⟨Nat.le_refl _, trivial⟩
    obtain ⟨hreplies, hlast⟩ := (CopyingStore.Mirrors.ofStore hsound htold).performAll hsound hprogram
      (Ledger.ofStore s) rfl
    exact ⟨hreplies.symm, hlast.symm⟩

theorem revertTo_snapshot_exact_nested :
    ∃ t, (((withBalances [(.ofNat 7, .ofNat 5)]).snapshot.2.after
        [.setCode MintContract.address MintContract.bytecode, .snapshot, .subBalance (.ofNat 7) (.ofNat 9),
          .addBalance (.ofNat 7) (.ofNat 1), .revertTo 1, .setNonce (.ofNat 8) 3]).revertTo 0) = .ok t ∧
      t.accounts = (withBalances [(.ofNat 7, .ofNat 5)]).accounts ∧ t.logs = [] ∧ t.journal = .empty ∧
      t.snapshots = [] := by
  -- Of all operations only the setting of code has a condition, that its digest tells of it.
  have hcode : CodeTold MintContract.bytecode := fun h =>
    absurd h MintContract.codeHash_ne_emptyDigest
  have hcodes : ∀ op ∈ [Operation.setCode MintContract.address MintContract.bytecode, .snapshot,
      .subBalance (.ofNat 7) (.ofNat 9), .addBalance (.ofNat 7) (.ofNat 1), .revertTo 1,
      .setNonce (.ofNat 8) 3], op.CodeTold := by
    simp [Operation.CodeTold, hcode]
  have hops : ∀ op ∈ [Operation.setCode MintContract.address MintContract.bytecode, .snapshot,
      .subBalance (.ofNat 7) (.ofNat 9), .addBalance (.ofNat 7) (.ofNat 1), .revertTo 1,
      .setNonce (.ofNat 8) 3], op.IsJournaled 1 := by
    simp [Operation.IsJournaled]
  obtain ⟨hexact, -⟩ := revertTo_snapshot_exact (.withBalances [(.ofNat 7, .ofNat 5)]) hops
    (codesTold_withBalances _) hcodes
  exact hexact

end Store

end BridgeMint
