import BridgeMint.Proofs.Toml.Document

/-!
# What sections build

Changing what stands under a name, or in the table that a path reaches, and then changing it again is
one change; so all the lines of a section together change one table, the one its header stands in.
There the section adds a table with its values, if its name and the names of the values are new.
-/

namespace BridgeMint

namespace Toml

namespace Entries

/-! ## As data -/

theorem entriesData_eq_map (entries : Entries) :
    entriesData entries = entries.map fun entry => (entry.1, entry.2.toDatum) := by
  induction entries with
  | nil => rw [entriesData, List.map_nil]
  | cons entry rest ih => rw [entriesData, List.map_cons, ih]

theorem entriesData_append (front back : Entries) :
    entriesData (front ++ back) = entriesData front ++ entriesData back := by
  simp only [entriesData_eq_map, List.map_append]

/-! ## One change after another -/

/-- Changing what stands under a name twice is one change. -/
theorem alter_bind_alter (name : String) (f g : Option Node → Option Node) (entries : Entries) :
    (alter name f entries).bind (alter name g) =
      alter name (fun node? => (f node?).bind fun node => g (some node)) entries := by
  induction entries with
  | nil =>
    rw [alter, alter]
    cases f none with
    | none => rfl
    | some node => simp [alter]
  | cons entry rest ih =>
    obtain ⟨key, node⟩ := entry
    rw [alter, alter]
    -- The second change finds the name where the first one found it.
    by_cases hkey : key = name
    · rw [if_pos hkey, if_pos hkey]
      cases f (some node) with
      | none => rfl
      | some node => simp [alter, hkey]
    · rw [if_neg hkey, if_neg hkey, ← ih]
      cases alter name f rest with
      | none => rfl
      | some rest => simp [alter, hkey]

/-- Changing the table that a path reaches twice is one change. -/
theorem within_bind_within (path : List String) (f g : Entries → Option Entries)
    (entries : Entries) :
    (within path f entries).bind (within path g) =
      within path (fun table => (f table).bind g) entries := by
  induction path generalizing entries with
  | nil => rfl
  | cons name path ih =>
    simp only [within, alter_bind_alter, ← ih]
    congr 1
    funext node?
    -- What the first change leaves under the name is a table or rows again.
    match node? with
    | none => dsimp only; cases within path f [] <;> rfl
    | some (.value _) => rfl
    | some (.table _ table) => dsimp only; cases within path f table <;> rfl
    | some (.rows []) => rfl
    | some (.rows (newest :: _)) => dsimp only; cases within path f newest <;> rfl

/-- A path in two parts is followed one part after the other. -/
theorem within_append (path later : List String) (f : Entries → Option Entries) :
    within (path ++ later) f = within path (within later f) := by
  induction path with
  | nil => rfl
  | cons name path ih =>
    funext entries
    rw [List.cons_append, within, within, ih]

/-! ## New names -/

/-- What stands before a name that is not there yet stays as it is. -/
theorem alter_append {name : String} {entries : Entries} (hnew : name ∉ entries.map (·.1))
    (f : Option Node → Option Node) (later : Entries) :
    alter name f (entries ++ later) = (alter name f later).map (entries ++ ·) := by
  induction entries with
  | nil => simp
  | cons entry rest ih =>
    obtain ⟨key, node⟩ := entry
    rw [List.map_cons, List.mem_cons, not_or] at hnew
    obtain ⟨hother, hnew⟩ := hnew
    rw [List.cons_append, alter, if_neg (Ne.symm hother), ih hnew]
    cases alter name f later <;> rfl

/-- What is put under a new name comes last. -/
theorem alter_new {name : String} {entries : Entries} (hnew : name ∉ entries.map (·.1))
    (f : Option Node → Option Node) :
    alter name f entries = (f none).map fun node => entries ++ [(name, node)] := by
  have h := alter_append hnew f []
  rw [List.append_nil, alter] at h
  rw [h]
  cases f none <;> rfl

theorem assign_new {name : String} {entries : Entries} (hnew : name ∉ entries.map (·.1))
    (d : Datum) : assign [] name d entries = some (entries ++ [(name, .value d)]) := by
  rw [assign, alter_new hnew]
  rfl

theorem lookup_eq_none {name : String} {entries : Entries} (hnew : name ∉ entries.map (·.1)) :
    entries.lookup name = none := by
  rw [List.lookup_eq_none_iff]
  rintro ⟨key, node⟩ hentry
  have hkey : name ≠ key := fun h => hnew (h ▸ List.mem_map_of_mem hentry)
  simpa using hkey

/-- A table whose name is new is opened at the end. -/
theorem openTable_new {name : String} {entries : Entries} (hnew : name ∉ entries.map (·.1)) :
    openTable ⟨[], name⟩ entries = some (entries ++ [(name, .table .header [])]) := by
  rw [openTable, within, lookup_eq_none hnew]

/-- The table at the end is reached by its name. -/
theorem within_last {name : String} {entries : Entries} (hnew : name ∉ entries.map (·.1))
    (origin : Origin) (table : Entries) (f : Entries → Option Entries) :
    within [name] f (entries ++ [(name, .table origin table)]) =
      (f table).map fun table => entries ++ [(name, .table origin table)] := by
  rw [within, alter_append hnew, alter, if_pos rfl]
  simp only [within]
  cases f table <;> rfl

/-! ## Values -/

/-- Values as they stand in a table. -/
def ofValues (values : List (String × Scalar)) : Entries :=
  values.map fun entry => (entry.1, .value entry.2.toDatum)

theorem entriesData_ofValues (values : List (String × Scalar)) :
    entriesData (ofValues values) = values.map fun entry => (entry.1, entry.2.toDatum) := by
  rw [entriesData_eq_map, ofValues, List.map_map]
  refine List.map_congr_left fun entry _ => ?_
  rw [Function.comp_apply, Node.toDatum]

theorem map_ofValues (values : List (String × Scalar)) :
    (ofValues values).map (·.1) = values.map (·.1) := by
  rw [ofValues, List.map_map]
  rfl

/-- Sets values one after another in the table that a path reaches. -/
def assignAll (path : List String) (values : List (String × Scalar)) (entries : Entries) :
    Option Entries :=
  values.foldlM (fun entries entry => entries.within path (assign [] entry.1 entry.2.toDatum)) entries

theorem assignAll_nil (path : List String) : assignAll path [] = some :=
  rfl

theorem assignAll_cons (path : List String) (entry : String × Scalar)
    (values : List (String × Scalar)) (entries : Entries) :
    assignAll path (entry :: values) entries =
      (entries.within path (assign [] entry.1 entry.2.toDatum)).bind (assignAll path values) :=
  List.foldlM_cons

/-- Values with new names come last, in order. -/
theorem assignAll_new (values : List (String × Scalar)) (entries : Entries)
    (hnew : (entries.map (·.1) ++ values.map (·.1)).Nodup) :
    assignAll [] values entries = some (entries ++ ofValues values) := by
  induction values generalizing entries with
  | nil => simp [assignAll_nil, ofValues]
  | cons entry values ih =>
    obtain ⟨-, -, hdisjoint⟩ := List.nodup_append.mp hnew
    have hfirst : entry.1 ∉ entries.map (·.1) := fun hmem =>
      hdisjoint _ hmem _ List.mem_cons_self rfl
    -- The value comes last now, and the names after it are new to what it is put behind.
    have hlater := ih (entries ++ [(entry.1, .value entry.2.toDatum)])
      (by simpa using hnew)
    rw [assignAll_cons, within, assign_new hfirst, Option.bind_some, hlater, List.append_assoc]
    rfl

/-- After a change to a table, setting values in it changes the same table further. -/
theorem within_bind_assignAll (path later : List String) (values : List (String × Scalar))
    (f : Entries → Option Entries) (entries : Entries) :
    (within path f entries).bind (assignAll (path ++ later) values) =
      within path (fun table => (f table).bind (assignAll later values)) entries := by
  induction values generalizing f entries with
  | nil => simp only [assignAll_nil, Option.bind_fun_some]
  | cons entry values ih =>
    have hcons : ∀ path, assignAll path (entry :: values) = fun entries =>
        (within path (assign [] entry.1 entry.2.toDatum) entries).bind (assignAll path values) :=
      fun path => funext (assignAll_cons path entry values)
    -- The first value goes into the table at once, so the others change what it leaves.
    rw [hcons, hcons, ← Option.bind_assoc, within_append, within_bind_within, ih]
    simp only [Option.bind_assoc]

/-- Opens a table by its header and sets its values. -/
def addTable (name : String) (values : List (String × Scalar)) (entries : Entries) :
    Option Entries :=
  (entries.openTable ⟨[], name⟩).bind (assignAll [name] values)

/-- A table with a new name comes last, with its values. -/
theorem addTable_new {name : String} {values : List (String × Scalar)} {entries : Entries}
    (hname : name ∉ entries.map (·.1)) (hvalues : (values.map (·.1)).Nodup) :
    addTable name values entries = some (entries ++ [(name, .table .header (ofValues values))]) := by
  have hset := within_bind_assignAll [name] [] values some (entries ++ [(name, .table .header [])])
  have hall := assignAll_new values [] (by simpa using hvalues)
  -- The table that was opened is the last one, and in it all names are new.
  rw [within_last hname, within_last hname] at hset
  simp only [Option.map_some, Option.bind_some, hall] at hset
  rw [addTable, openTable_new hname, Option.bind_some]
  exact hset

end Entries

/-! ## Sections -/

namespace Draft

/-- Lines that set values set them in the table opened last. -/
theorem foldlM_add_values (values : List (String × Scalar)) (draft : Draft) :
    (Section.valueStatements values).foldlM add draft =
      (draft.entries.assignAll draft.path values).map (⟨·, draft.path⟩) := by
  rw [Section.valueStatements]
  induction values generalizing draft with
  | nil => rfl
  | cons entry values ih =>
    rw [List.map_cons, List.foldlM_cons, Entries.assignAll_cons, add]
    cases draft.entries.within draft.path (·.assign [] entry.1 entry.2.toDatum) with
    | none => rfl
    | some entries => exact ih ⟨entries, draft.path⟩

/-- A section adds a table in the one that its header stands in. -/
theorem foldlM_add_section (first : String) (others : List String)
    (values : List (String × Scalar)) (draft : Draft) :
    (Section.statements ⟨first :: others, values⟩).foldlM add draft =
      (draft.entries.within (Name.ofParts first others).parents
        (Entries.addTable (Name.ofParts first others).last values)).map (⟨·, first :: others⟩) := by
  have hparts := Name.parts_ofParts first others
  rw [Section.statements, Section.headerStatements, List.foldlM_append]
  generalize Name.ofParts first others = name at hparts ⊢
  -- Opening the table and setting its values are one change to the table above it.
  have hset : (draft.entries.openTable name).bind (Entries.assignAll name.parts values) =
      draft.entries.within name.parents (Entries.addTable name.last values) :=
    Entries.within_bind_assignAll name.parents [name.last] values
      (Entries.openTable ⟨[], name.last⟩) draft.entries
  have hheader : [Statement.nothing, .openTable name].foldlM add draft =
      (draft.entries.openTable name).map (⟨·, name.parts⟩) := by
    cases h : draft.entries.openTable name <;> simp [add, h]
  rw [hheader, ← hset, ← hparts]
  cases draft.entries.openTable name with
  | none => rfl
  | some opened => exact foldlM_add_values values ⟨opened, name.parts⟩

variable {values : List (String × Scalar)}

/-- A section with a new name adds a table at the end of the document. -/
theorem foldlM_add_last (draft : Draft) {name : String} (hname : name ∉ draft.entries.map (·.1))
    (hvalues : (values.map (·.1)).Nodup) :
    (Section.statements ⟨[name], values⟩).foldlM add draft =
      some ⟨draft.entries ++ [(name, .table .header (Entries.ofValues values))], [name]⟩ := by
  rw [foldlM_add_section]
  show (Entries.addTable name values draft.entries).map _ = _
  rw [Entries.addTable_new hname hvalues]
  rfl

/-- A section under the last table adds a table at the end of that table. -/
theorem foldlM_add_inside {outer name : String} {origin : Origin} {entries table : Entries}
    {path : List String} (houter : outer ∉ entries.map (·.1)) (hname : name ∉ table.map (·.1))
    (hvalues : (values.map (·.1)).Nodup) :
    (Section.statements ⟨[outer, name], values⟩).foldlM add
        ⟨entries ++ [(outer, .table origin table)], path⟩ =
      some ⟨entries ++ [(outer, .table origin (table ++ [(name, .table .header (Entries.ofValues values))]))],
        [outer, name]⟩ := by
  rw [foldlM_add_section]
  show (Entries.within [outer] (Entries.addTable name values) (entries ++ _)).map _ = _
  rw [Entries.within_last houter, Entries.addTable_new hname hvalues]
  rfl

end Draft

end Toml

end BridgeMint
