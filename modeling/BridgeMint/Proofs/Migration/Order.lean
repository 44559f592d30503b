import BridgeMint.Proofs.Migration.Registry

/-!
# The order of migrations

A registry that is filled by adding migrations one after another keeps every one of them.  What it tells of
a height, what it does there, how many migrations it counts and which plan it makes are all given by the
order in which the migrations were added, and by that order within each height only.
-/

namespace BridgeMint

namespace Migration

/-- The entry of a migration in a plan, with no root yet. -/
def planned (migration : Migration) : PlannedMigration :=
  ⟨migration.height, migration.name, none⟩

/-- Runs migrations one after another, with a notice before each. -/
def runInOrder (source : String) : List Migration → Ledger → Ledger
  | [], ledger => ledger
  | migration :: rest, ledger =>
    runInOrder source rest
      (migration.run (ledger.note (.migrating migration.name migration.height source)))

/-- Migrations of one height all name it in their notices. -/
theorem runInOrder_eq_foldl {migrations : List Migration} {height : UInt64}
    (h : ∀ migration ∈ migrations, migration.height = height) (source : String) (ledger : Ledger) :
    runInOrder source migrations ledger =
      migrations.foldl
        (fun ledger migration => migration.run (ledger.note (.migrating migration.name height source)))
        ledger := by
  induction migrations generalizing ledger with
  | nil => rfl
  | cons migration rest ih =>
    obtain ⟨hfirst, hrest⟩ := List.forall_mem_cons.mp h
    rw [List.foldl_cons, runInOrder, ih hrest, hfirst]

/-- What a migration makes of a store when nothing has been noted yet. -/
def effect (migration : Migration) (s : Store) : Store :=
  (migration.run (.ofStore s)).store

/-- Migrations that do not depend on the notices do to the store what their effects do, in order. -/
theorem store_runInOrder {migrations : List Migration}
    (h : ∀ migration ∈ migrations, ∀ ledger,
      (migration.run ledger).store = migration.effect ledger.store)
    (source : String) (ledger : Ledger) :
    (runInOrder source migrations ledger).store =
      migrations.foldl (fun s migration => migration.effect s) ledger.store := by
  induction migrations generalizing ledger with
  | nil => rfl
  | cons migration rest ih =>
    obtain ⟨hfirst, hrest⟩ := List.forall_mem_cons.mp h
    rw [runInOrder, ih hrest, hfirst]
    rfl

end Migration

namespace MigrationRegistry

/-- The registry to which migrations have been added one after another. -/
def ofList (migrations : List Migration) : MigrationRegistry :=
  migrations.foldl MigrationRegistry.append empty

variable {migrations : List Migration}

/-! ## What is scheduled -/

theorem height_of_mem_filter {height : UInt64} {migration : Migration}
    (h : migration ∈ migrations.filter (·.height = height)) : migration.height = height := by
  obtain ⟨-, hheight⟩ := List.mem_filter.mp h
  exact of_decide_eq_true hheight

theorem scheduledAt_ofList (migrations : List Migration) (height : UInt64) :
    (ofList migrations).scheduledAt height = migrations.filter (·.height = height) :=
  scheduledAt_foldl_append migrations empty height

theorem height_of_mem_scheduledAt {height : UInt64} {migration : Migration}
    (h : migration ∈ (ofList migrations).scheduledAt height) : migration.height = height := by
  rw [scheduledAt_ofList] at h
  exact height_of_mem_filter h

theorem mem_heights_ofList {height : UInt64} : height ∈ (ofList migrations).heights ↔
    ∃ migration ∈ migrations, migration.height = height := by
  rw [ofList, mem_heights_foldl_append]
  exact or_iff_left List.not_mem_nil

/-! ## All migrations -/

theorem toList_eq (registry : MigrationRegistry) :
    registry.toList = registry.heights.flatMap registry.scheduledAt := by
  rw [toList, heights, SortedMap.keys, List.flatMap_map]
  refine List.flatMap_congr fun entry hentry => ?_
  rw [scheduledAt, (SortedMap.mem_entries _ entry).mp hentry, Option.getD_some]

/-- No migration is lost and none is there twice. -/
theorem toList_ofList_perm (migrations : List Migration) :
    (ofList migrations).toList.Perm migrations := by
  -- It is enough to look at the migrations of one height at a time.
  refine perm_of_filter_eq (·.height) fun height => ?_
  rw [toList_eq, filter_flatMap_key (fun _ _ => height_of_mem_scheduledAt) (ofList migrations).heights_nodup,
    ← scheduledAt_ofList]
  -- A height that is not listed has no migrations.
  split
  · rfl
  · next hnot => exact (scheduledAt_eq_nil hnot).symm

theorem plan_ofList (migrations : List Migration) :
    (ofList migrations).plan = (ofList migrations).toList.map Migration.planned := by
  rw [plan, toList_eq, List.map_flatMap]
  refine List.flatMap_congr fun height _ => List.map_congr_left fun migration hmigration => ?_
  rw [Migration.planned, height_of_mem_scheduledAt hmigration]

/-! ## What is run -/

theorem execute_ofList (migrations : List Migration) (height : UInt64) (source : String)
    (ledger : Ledger) :
    (ofList migrations).execute height source ledger =
      Migration.runInOrder source (migrations.filter (·.height = height)) ledger := by
  rw [execute, scheduledAt_ofList, Migration.runInOrder_eq_foldl]
  exact fun migration hmigration => height_of_mem_filter hmigration

/-! ## Different heights -/

/-- Migrations of different heights may be added in either order. -/
theorem append_append_comm (registry : MigrationRegistry) {a b : Migration} (h : a.height ≠ b.height) :
    (registry.append a).append b = (registry.append b).append a := by
  -- Each is added to what was scheduled for its own height before, which the other has not changed.
  have hget : ∀ key, ((registry.append a).append b).byHeight.get? key =
      ((registry.append b).append a).byHeight.get? key := by
    intro key
    have hab := scheduledAt_append registry a b.height
    have hba := scheduledAt_append registry b a.height
    rw [if_neg h.symm] at hab
    rw [if_neg h] at hba
    simp only [MigrationRegistry.append, SortedMap.get?_insert] at hab hba ⊢
    rw [hab, hba]
    -- What is found under a key can be told apart by two keys only.
    by_cases hkey : key = b.height
    · rw [if_pos hkey, if_neg (hkey ▸ h.symm), if_pos hkey]
    · rw [if_neg hkey, if_neg hkey]
  exact congrArg MigrationRegistry.mk (SortedMap.ext_get? hget)

/-- A registry keeps the order in which migrations were added.  It has the migrations of each height in this
order, lists exactly the heights that have some, ascending, and counts them all.  At a height it runs those
of the height one after another, and so does to the store what they do; at any other height it does nothing.
Adding at different heights commutes.  The plan has one entry for each migration, heights ascending and those
of one height in the order they were added. -/
theorem ofList_order (migrations : List Migration) :
    let registry := ofList migrations
    (∀ height, registry.scheduledAt height = migrations.filter (·.height = height)) ∧
    registry.heights.Pairwise (· < ·) ∧
    (∀ height, height ∈ registry.heights ↔ ∃ migration ∈ migrations, migration.height = height) ∧
    registry.size = migrations.length ∧
    (∀ height source ledger,
      registry.execute height source ledger =
        Migration.runInOrder source (migrations.filter (·.height = height)) ledger ∧
      ((∀ migration ∈ migrations, ∀ ledger,
        (migration.run ledger).store = migration.effect ledger.store) →
          (registry.execute height source ledger).store =
            (migrations.filter (·.height = height)).foldl (fun s migration => migration.effect s)
              ledger.store) ∧
      (height ∉ registry.heights → registry.execute height source ledger = ledger)) ∧
    (∀ a b : Migration, a.height ≠ b.height →
      (registry.append a).append b = (registry.append b).append a) ∧
    registry.plan.Perm (migrations.map Migration.planned) ∧
    registry.plan.Pairwise (fun a b => a.height ≤ b.height) ∧
    ∀ height, registry.plan.filter (·.height = height) =
      (migrations.filter (·.height = height)).map Migration.planned := by
  intro registry
  have hperm := toList_ofList_perm migrations
  refine ⟨scheduledAt_ofList migrations, registry.heights_pairwise, fun _ => mem_heights_ofList,
    hperm.length_eq, fun height source ledger => ⟨?run, ?store, ?elsewhere⟩,
    fun a b => registry.append_append_comm, ?once, registry.plan_pairwise, fun height => ?stable⟩
  case run => exact execute_ofList migrations height source ledger
  -- Run in order, the effects on the store are composed in order.
  case store =>
    intro heffects
    rw [execute_ofList]
    exact Migration.store_runInOrder (fun m hm => heffects m (List.mem_of_mem_filter hm)) source ledger
  case elsewhere => exact fun hnot => execute_of_not_mem hnot source ledger
  case once =>
    rw [plan_ofList]
    exact hperm.map _
  case stable =>
    rw [registry.filter_plan, scheduledAt_ofList]
    -- The plan has the heights of the registry, which are those of the migrations themselves.
    refine List.map_congr_left fun migration hmigration => ?_
    rw [Migration.planned, height_of_mem_filter hmigration]

/-- A migration that gives the zero address a nonce. -/
def nonceMigration (name : String) (height nonce : UInt64) : Migration :=
  ⟨name, height, fun ledger => ledger.change (·.setNonce .zero nonce)⟩

/-- Two migrations of one height, and one of another that was added in between. -/
def mixedMigrations : List Migration :=
  [nonceMigration "first" 10 1, nonceMigration "other" 5 2, nonceMigration "second" 10 3]

/-- The later migration of a height has the last word; nothing runs at the height in between. -/
theorem ofList_order_mixed :
    let registry := ofList mixedMigrations
    registry.heights = [5, 10] ∧ registry.plan.map (·.name) = ["other", "first", "second"] ∧
    (registry.execute 10 "import" (.ofStore .empty)).store =
      (Store.empty.setNonce .zero 1).setNonce .zero 3 ∧
    registry.execute 7 "import" (.ofStore .empty) = .ofStore .empty ∧
    (registry.append (nonceMigration "third" 10 4)).append (nonceMigration "last" 20 5) =
      (registry.append (nonceMigration "last" 20 5)).append (nonceMigration "third" 10 4) := by
  intro registry
  obtain ⟨-, -, -, -, hexecute, hcomm, -⟩ := ofList_order mixedMigrations
  obtain ⟨-, hstore, -⟩ := hexecute 10 "import" (.ofStore .empty)
  obtain ⟨-, -, hnothing⟩ := hexecute 7 "import" (.ofStore .empty)
  have heffects : ∀ migration ∈ mixedMigrations, ∀ ledger,
      (migration.run ledger).store = migration.effect ledger.store := by
    intro migration hmigration ledger
    simp only [mixedMigrations, List.mem_cons, List.not_mem_nil, or_false] at hmigration
    rcases hmigration with rfl | rfl | rfl <;> rfl
  exact ⟨by decide, by decide, hstore heffects, hnothing (by decide), hcomm _ _ (by decide)⟩

end MigrationRegistry

end BridgeMint
