import BridgeMint.Migration.Plan
import BridgeMint.Proofs.Grouping
import BridgeMint.Proofs.SortedMap

/-!
# Schedules and plans

A registry lists its heights in ascending order, and the migrations of a height in the order they were
added.  Its plan has one entry for each migration.  A trial run notes at each entry the root that running
the heights up to that of the entry comes to.
-/

namespace BridgeMint

namespace MigrationRegistry

/-! ## Schedules -/

/-- A migration is scheduled after those of its height, and for no other one. -/
theorem scheduledAt_append (registry : MigrationRegistry) (migration : Migration) (height : UInt64) :
    (registry.append migration).scheduledAt height =
      if height = migration.height then registry.scheduledAt height ++ [migration]
      else registry.scheduledAt height := by
  simp only [scheduledAt, MigrationRegistry.append, SortedMap.get?_insert]
  split
  · next heq =>
    rw [heq]
    rfl
  · rfl

/-- Migrations added one after another. -/
theorem scheduledAt_foldl_append (migrations : List Migration) (registry : MigrationRegistry)
    (height : UInt64) :
    (migrations.foldl MigrationRegistry.append registry).scheduledAt height =
      registry.scheduledAt height ++ migrations.filter (·.height = height) := by
  induction migrations generalizing registry with
  | nil => exact (List.append_nil _).symm
  | cons migration rest ih =>
    rw [List.foldl_cons, ih, scheduledAt_append]
    by_cases heq : height = migration.height
    · rw [if_pos heq, List.append_assoc, List.filter_cons_of_pos (by simp [heq])]
      rfl
    · rw [if_neg heq, List.filter_cons_of_neg (by simpa using Ne.symm heq)]

/-- The heights ascend, since they are the keys of a map. -/
theorem heights_pairwise (registry : MigrationRegistry) : registry.heights.Pairwise (· < ·) := by
  refine List.pairwise_map.mpr (registry.byHeight.ascending.imp fun h => ?_)
  exact Std.compare_eq_lt.mp h

theorem heights_nodup (registry : MigrationRegistry) : registry.heights.Nodup :=
  registry.heights_pairwise.imp UInt64.ne_of_lt

/-- A height is listed if something is stored for it. -/
theorem mem_heights {registry : MigrationRegistry} {height : UInt64} :
    height ∈ registry.heights ↔ (registry.byHeight.get? height).isSome := by
  constructor
  · intro hmem
    obtain ⟨entry, hentry, rfl⟩ := List.mem_map.mp hmem
    rw [(SortedMap.mem_entries _ entry).mp hentry]
    rfl
  · intro hsome
    obtain ⟨migrations, hget⟩ := Option.isSome_iff_exists.mp hsome
    have hentry := (SortedMap.mem_entries _ (height, migrations)).mpr hget
    exact List.mem_map_of_mem (f := (·.1)) hentry

/-- Adding a migration lists its height. -/
theorem mem_heights_append {registry : MigrationRegistry} {migration : Migration} {height : UInt64} :
    height ∈ (registry.append migration).heights ↔
      height = migration.height ∨ height ∈ registry.heights := by
  simp only [mem_heights, MigrationRegistry.append, SortedMap.get?_insert]
  by_cases heq : height = migration.height
  · simp [heq]
  · simp [heq]

/-- Adding migrations lists their heights. -/
theorem mem_heights_foldl_append {migrations : List Migration} {registry : MigrationRegistry}
    {height : UInt64} : height ∈ (migrations.foldl MigrationRegistry.append registry).heights ↔
      (∃ migration ∈ migrations, migration.height = height) ∨ height ∈ registry.heights := by
  induction migrations generalizing registry with
  | nil => simp
  | cons migration rest ih =>
    rw [List.foldl_cons, ih, mem_heights_append, List.exists_mem_cons_iff, or_left_comm, or_assoc,
      eq_comm (a := height)]

/-- Nothing is scheduled for a height that is not listed. -/
theorem scheduledAt_eq_nil {registry : MigrationRegistry} {height : UInt64}
    (h : height ∉ registry.heights) : registry.scheduledAt height = [] := by
  rw [mem_heights, Option.not_isSome_iff_eq_none] at h
  rw [scheduledAt, h]
  rfl

theorem execute_of_not_mem {registry : MigrationRegistry} {height : UInt64}
    (h : height ∉ registry.heights) (source : String) (ledger : Ledger) :
    registry.execute height source ledger = ledger := by
  rw [execute, scheduledAt_eq_nil h]
  rfl

/-! ## Plans -/

/-- The entries of a plan that have a given height are those of its migrations. -/
theorem filter_plan (registry : MigrationRegistry) (height : UInt64) :
    registry.plan.filter (·.height = height) =
      (registry.scheduledAt height).map fun migration => ⟨height, migration.name, none⟩ := by
  have hentries : ∀ height, ∀ entry ∈ (registry.scheduledAt height).map fun migration =>
      PlannedMigration.mk height migration.name none, entry.height = height := by
    intro height entry hentry
    obtain ⟨migration, -, rfl⟩ := List.mem_map.mp hentry
    rfl
  rw [plan, filter_flatMap_key hentries registry.heights_nodup]
  split
  · rfl
  · next hnot =>
    rw [scheduledAt_eq_nil hnot]
    rfl

theorem height_mem_of_mem_plan {registry : MigrationRegistry} {entry : PlannedMigration}
    (h : entry ∈ registry.plan) : entry.height ∈ registry.heights := by
  obtain ⟨height, hheight, hentry⟩ := List.mem_flatMap.mp h
  obtain ⟨migration, -, rfl⟩ := List.mem_map.mp hentry
  exact hheight

/-- The heights in a plan ascend. -/
theorem plan_pairwise (registry : MigrationRegistry) :
    registry.plan.Pairwise fun a b => a.height ≤ b.height := by
  refine List.pairwise_flatMap.mpr ⟨fun height _ => ?_, registry.heights_pairwise.imp fun hlt => ?_⟩
  · exact List.pairwise_map.mpr (List.pairwise_of_forall fun _ _ => UInt64.le_refl height)
  · intro a ha b hb
    obtain ⟨_, -, rfl⟩ := List.mem_map.mp ha
    obtain ⟨_, -, rfl⟩ := List.mem_map.mp hb
    exact UInt64.le_of_lt hlt

/-! ## Trial runs -/

/-- Runs the migrations of several heights, as a trial run does. -/
def tryAll (registry : MigrationRegistry) (heights : List UInt64) (ledger : Ledger) : Ledger :=
  heights.foldl (fun ledger height => registry.tryHeight height ledger) ledger

/-- An entry gets the root after the heights up to its own, if that is among them. -/
theorem tryHeights_eq (registry : MigrationRegistry) {heights : List UInt64}
    (h : heights.Pairwise (· < ·)) (ledger : Ledger) (entries : List PlannedMigration) :
    (registry.tryHeights heights ledger entries).1 = entries.map fun entry =>
      if entry.height ∈ heights then
        { entry with
          root := some (registry.tryAll (heights.filter (· ≤ entry.height)) ledger).store.root }
      else entry := by
  induction heights generalizing ledger entries with
  | nil => simp [tryHeights]
  | cons first rest ih =>
    obtain ⟨hfirst, hrest⟩ := List.pairwise_cons.mp h
    rw [tryHeights, ih hrest, List.map_map]
    refine List.map_congr_left fun entry _ => ?_
    rw [Function.comp_apply, PlannedMigration.withRoot]
    have hcons : first ≤ entry.height → (first :: rest).filter (· ≤ entry.height) =
        first :: rest.filter (· ≤ entry.height) := fun hle => List.filter_cons_of_pos (by simpa using hle)
    -- The entry is noted at its own height, which is the first one, a later one, or none of them.
    by_cases hmem : entry.height ∈ rest
    · -- The root noted at the first height is not the entry's, since its own height comes later.
      have hlt := hfirst _ hmem
      rw [if_neg (UInt64.ne_of_lt hlt).symm, if_pos hmem, if_pos (List.mem_cons_of_mem _ hmem),
        hcons (UInt64.le_of_lt hlt)]
      rfl
    · by_cases heq : entry.height = first
      · -- No other height comes up to its own.
        have hnone : rest.filter (· ≤ entry.height) = [] := by
          rw [List.filter_eq_nil_iff]
          intro later hlater hle
          exact UInt64.not_lt.mpr (heq ▸ of_decide_eq_true hle) (hfirst later hlater)
        rw [if_pos heq, if_neg hmem, if_pos (heq ▸ List.mem_cons_self), hcons (UInt64.le_of_eq heq.symm),
          hnone]
        rfl
      · have hnot : entry.height ∉ first :: rest := fun h => (List.mem_cons.mp h).elim heq hmem
        rw [if_neg heq, if_neg hmem, if_neg hnot]

/-- All entries of a plan get the roots of their heights. -/
theorem trial_plan (registry : MigrationRegistry) :
    (registry.trial registry.plan).1 = registry.plan.map fun entry =>
      { entry with
        root := some (registry.tryAll (registry.heights.filter (· ≤ entry.height))
          (.ofStore .empty)).store.root } := by
  rw [trial, tryHeights_eq registry registry.heights_pairwise]
  refine List.map_congr_left fun entry hentry => ?_
  rw [if_pos (height_mem_of_mem_plan hentry)]

end MigrationRegistry

end BridgeMint
