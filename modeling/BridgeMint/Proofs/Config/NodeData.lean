import BridgeMint.Config.NodeFile
import BridgeMint.Proofs.Config.ChainData
import BridgeMint.Proofs.Toml.Tree

/-!
# A node's configuration comes back from its document

The document consists of a head and of a table for the chain and one for the log; if the chain has a
mint section, however blank, the chain's table contains one for it.  What a configuration does not
have is left out of its table.  As a field that is left out is read as one that is not there, each
record is read field by field as it was written.
-/

namespace BridgeMint

open Toml

/-! ## What is written -/

/-- The members of a table that values make up. -/
def Toml.members (values : List (String × Scalar)) : List (String × Datum) :=
  values.map fun entry => (entry.1, entry.2.toDatum)

theorem Toml.members_append (front back : List (String × Scalar)) :
    members (front ++ back) = members front ++ members back :=
  List.map_append

theorem Toml.members_optional {α : Type} (value? : Option α) (name : String) (write : α → Scalar) :
    members (value?.map fun a => (name, write a)).toList =
      (value?.map fun a => (name, (write a).toDatum)).toList := by
  cases value? <;> rfl

/-- The fields of a mint section that are written; others are left out. -/
theorem MintSection.names_sublist (mint : MintSection) :
    (mint.scalars.map (·.1)).Sublist ["activation_block", "owner_address", "mint_limit"] := by
  obtain ⟨height, owner, limit⟩ := mint
  cases height <;> cases owner <;> cases limit <;> simp [scalars]

/-- The fields of a chain that are written; a fee collector may be left out. -/
theorem ChainConfig.names_sublist (config : ChainConfig) :
    (config.scalars.map (·.1)).Sublist ["chain_id", "gas_limit", "fee_collector"] := by
  obtain ⟨chainId, gasLimit, feeCollector, mint⟩ := config
  cases feeCollector <;> simp [scalars]

/-- The fields of the log that are written; a file may be left out. -/
theorem Logging.names_sublist (logging : Logging) :
    (logging.scalars.map (·.1)).Sublist ["level", "log_file", "format"] := by
  obtain ⟨level, file, format⟩ := logging
  cases file <;> simp [scalars]

/-! ## Reading records -/

/-- A mint section is read back from the values it is written as. -/
theorem MintSection.ofDatum_members (mint : MintSection) (surplus : Bool) :
    ofDatum surplus (.table (members mint.scalars) true) = .ok mint := by
  have hheight := Datum.toOption_ofOption Datum.toUInt64_ofUInt64 (by rintro _ ⟨⟩)
  have howner := Datum.toOption_ofOption Datum.toAddress_text (by rintro _ ⟨⟩)
  have hlimit := Datum.toOption_ofOption (fun x => (spells_decimal x).toAmount) (by rintro _ ⟨⟩)
  have hread : shape.readMembers [] (members mint.scalars ++ []) blank = .ok mint := by
    simp only [scalars, members_append, members_optional, List.append_assoc]
    -- Each field may be missing, and no name was seen before its own field.
    refine RecordShape.readMembers_optional _ rfl (fun a => FieldShape.read_of (hheight (some a)) _)
      rfl (by simp) fun seen hfirst => ?_
    refine RecordShape.readMembers_optional _ rfl (fun a => FieldShape.read_of (howner (some a)) _)
      rfl (hfirst _ (by decide) (by simp)) fun seen hsecond => ?_
    refine RecordShape.readMembers_optional _ rfl (fun a => FieldShape.read_of (hlimit (some a)) _)
      rfl (hsecond _ (by decide) (hfirst _ (by decide) (by simp))) fun seen _ => ?_
    rfl
  rw [List.append_nil] at hread
  rw [ofDatum, RecordShape.read, hread]
  rfl

/-- The parameters of a chain as its table in the document. -/
def ChainConfig.toTable (config : ChainConfig) : Datum :=
  .table (members config.scalars ++
    (config.mint.map fun mint => ("mint_contract", .table (members mint.scalars) true)).toList) true

/-- A chain's parameters are read back from their table, a blank mint section included. -/
theorem ChainConfig.ofDatum_toTable (config : ChainConfig) (surplus : Bool) :
    ofDatum surplus config.toTable = .ok config := by
  have hcollector := Datum.toOption_ofOption Datum.toAddress_text (by rintro _ ⟨⟩)
  have hmint := Datum.toOption_ofOption (MintSection.ofDatum_members · surplus) (by rintro _ ⟨⟩)
  have hread : (shape surplus).readMembers [] (members config.scalars ++ ((config.mint.map fun mint =>
      ("mint_contract", .table (members mint.scalars) true)).toList ++ [])) mainnet = .ok config := by
    simp only [scalars, members_append, members_optional, List.append_assoc]
    show (shape surplus).readMembers [] (("chain_id", .ofUInt64 config.chainId) ::
      ("gas_limit", .ofUInt64 config.gasLimit) :: _) mainnet = _
    -- Two members are always there, and two may be left out.
    rw [RecordShape.readMembers_cons rfl (FieldShape.read_of (Datum.toUInt64_ofUInt64 _) _) (by simp),
      RecordShape.readMembers_cons rfl (FieldShape.read_of (Datum.toUInt64_ofUInt64 _) _) (by simp)]
    refine RecordShape.readMembers_optional _ rfl (fun a => FieldShape.read_of (hcollector (some a)) _)
      rfl (by simp) fun seen hfirst => ?_
    refine RecordShape.readMembers_optional _ rfl (fun a => FieldShape.read_of (hmint (some a)) _)
      rfl (hfirst _ (by decide) (by simp)) fun seen _ => ?_
    rfl
  rw [List.append_nil] at hread
  rw [ofDatum, toTable, RecordShape.read, hread]
  rfl

theorem LogFormat.ofName_name (format : LogFormat) : ofName format.name = .ok format := by
  cases format <;> rfl

theorem Datum.toText_text (expected s : String) : (text s).toText expected = .ok s :=
  rfl

/-- The settings of the log are read back from the values they are written as. -/
theorem Logging.ofDatum_members (logging : Logging) :
    ofDatum (.table (members logging.scalars) true) = .ok logging := by
  have hread : shape.readMembers [] (members logging.scalars) standard = .ok logging := by
    simp only [scalars, members_append, members_optional, List.append_assoc]
    show shape.readMembers [] (("level", .text logging.level) :: _) standard = _
    rw [RecordShape.readMembers_cons rfl (FieldShape.read_of (Datum.toText_text "a string" _) _)
      (by simp)]
    -- A file that is given is read as such; one that is not stays as the default has it, absent.
    refine RecordShape.readMembers_optional (fun file logging => { logging with file }) rfl
      (fun _ => rfl) rfl (by simp) fun seen hfirst => ?_
    show shape.readMembers seen (("format", .text logging.format.name) :: []) _ = _
    rw [RecordShape.readMembers_cons rfl (FieldShape.read_of logging.format.ofName_name _)
      (hfirst _ (by decide) (by simp))]
    rfl
  rw [ofDatum, RecordShape.read, hread]
  rfl

/-- A node's configuration as the data in its document. -/
def NodeConfig.toDatum (config : NodeConfig) : Datum :=
  .table [("name", .text config.name), ("chain", config.chain.toTable),
    ("logging", .table (members config.logging.scalars) true)] true

/-- A configuration is read back from its data, in three members. -/
theorem NodeConfig.read_toDatum (config : NodeConfig) :
    shape.read true standard config.toDatum = .ok config := by
  rw [toDatum, RecordShape.read,
    RecordShape.readMembers_cons rfl (FieldShape.read_of (Datum.toText_text "a string" _) _) (by simp),
    RecordShape.readMembers_cons rfl (FieldShape.read_of (config.chain.ofDatum_toTable true) _) (by simp),
    RecordShape.readMembers_cons rfl (FieldShape.read_of config.logging.ofDatum_members _) (by simp)]
  rfl

/-! ## The document -/

/-- The parameters of a chain as the lines of its table, and of the one inside it, build them up. -/
def ChainConfig.entries (config : ChainConfig) : Entries :=
  Entries.ofValues config.scalars ++ (config.mint.map fun mint =>
    ("mint_contract", Node.table .header (Entries.ofValues mint.scalars))).toList

/-- What the lines build up is the chain's table. -/
theorem ChainConfig.entriesData_entries (config : ChainConfig) :
    Datum.table (entriesData config.entries) true = config.toTable := by
  rw [entries, Entries.entriesData_append, Entries.entriesData_ofValues, toTable]
  cases config.mint with
  | none => rfl
  | some mint => simp [entriesData, Node.toDatum, Entries.entriesData_ofValues, members]

/-- The mint section, if there is one, adds its table at the end of the chain's. -/
theorem ChainConfig.foldlM_mint (config : ChainConfig) {entries : Entries} (path : List String)
    (hchain : "chain" ∉ entries.map (·.1)) :
    ∃ later, ((config.mint.map fun mint =>
        (⟨["chain", "mint_contract"], mint.scalars⟩ : Section)).toList.flatMap
          Section.statements).foldlM Draft.add
            ⟨entries ++ [("chain", .table .header (Entries.ofValues config.scalars))], path⟩ =
      some ⟨entries ++ [("chain", .table .header config.entries)], later⟩ := by
  -- The name of the inner table is none of the fields before it.
  have hnew : "mint_contract" ∉ (Entries.ofValues config.scalars).map (·.1) := by
    rw [Entries.map_ofValues]
    exact fun hmem => absurd (config.names_sublist.subset hmem) (by decide)
  rw [ChainConfig.entries]
  cases config.mint with
  | none => exact ⟨path, by simp⟩
  | some mint =>
    have hvalues := mint.names_sublist.nodup (by decide)
    refine ⟨["chain", "mint_contract"], ?_⟩
    rw [Option.map_some, Option.toList_some, List.flatMap_singleton,
      Draft.foldlM_add_inside hchain hnew hvalues]
    rfl

/-- The lines of the document build up the configuration, table by table. -/
theorem NodeConfig.foldlM_sections (config : NodeConfig) :
    ((config.sections.flatMap Section.statements).foldlM Draft.add Draft.blank).map
      (·.entries.toDatum) = some config.toDatum := by
  let head : Entries := Entries.ofValues [("name", .text config.name)]
  let chain : Node := .table .header config.chain.entries
  have hnames : head.map (·.1) = ["name"] := rfl
  have hchain : "chain" ∉ head.map (·.1) := by
    rw [hnames]
    decide
  have hlogging : "logging" ∉ (head ++ [("chain", chain)]).map (·.1) := by
    rw [List.map_append, hnames]
    simp
  have haddHead : (Section.statements ⟨[], [("name", .text config.name)]⟩).foldlM Draft.add
      Draft.blank = some ⟨head, []⟩ := rfl
  -- Each section opens its table at the end, since its name is new.
  have haddChain := Draft.foldlM_add_last ⟨head, []⟩ hchain
    (config.chain.names_sublist.nodup (by decide))
  obtain ⟨path, haddMint⟩ := config.chain.foldlM_mint ["chain"] hchain
  have haddLogging := Draft.foldlM_add_last ⟨_, path⟩ hlogging
    (config.logging.names_sublist.nodup (by decide))
  have hdata : Entries.toDatum (head ++ [("chain", chain)] ++
      [("logging", .table .header (Entries.ofValues config.logging.scalars))]) = config.toDatum := by
    simp only [Entries.toDatum, Entries.entriesData_append, entriesData, Node.toDatum, head, chain,
      Entries.entriesData_ofValues, config.chain.entriesData_entries]
    rfl
  simp only [sections, List.flatMap_append, List.flatMap_cons, List.flatMap_nil, List.foldlM_append,
    List.append_nil, haddHead, Option.bind_eq_bind, Option.bind_some, haddChain, haddMint]
  show Option.map _ (List.foldlM Draft.add ⟨head ++ [("chain", chain)], path⟩ _) = _
  rw [haddLogging, Option.map_some, hdata]

/-! ## The round trip -/

/-- The height of a mint section, if it has one, can be written. -/
def MintSection.Writable (mint : MintSection) : Prop :=
  ∀ height ∈ mint.activationBlock, height.toNat < 2 ^ 63

/-- The integers among the parameters of a chain can be written: they have at most sixty-three bits. -/
structure ChainConfig.Writable (config : ChainConfig) : Prop where
  chainId : config.chainId.toNat < 2 ^ 63
  gasLimit : config.gasLimit.toNat < 2 ^ 63
  mint : ∀ mint ∈ config.mint, mint.Writable

theorem Toml.isWritable_integer {n : UInt64} (h : n.toNat < 2 ^ 63) :
    (Scalar.integer n).isWritable := by
  have hlt : n < 0x8000000000000000 := UInt64.lt_iff_toNat_lt.mpr h
  simp [Scalar.isWritable, hlt]

/-- A section whose values have names among the given ones; no name needs quotes. -/
theorem Toml.Section.WellFormed.of_names {path : List String} {values : List (String × Scalar)}
    {names : List String} (hbare : ∀ name ∈ path ++ names, IsBare name) (hdepth : path.length ≤ 2)
    (hvalues : (values.map (·.1)).Sublist names)
    (hwritable : ∀ entry ∈ values, entry.2.isWritable) : WellFormed ⟨path, values⟩ where
  path _ hname := hbare _ (List.mem_append_left names hname)
  depth := Nat.le_trans hdepth (Nat.le_add_left 2 77)
  names _ hentry :=
    hbare _ (List.mem_append_right path (hvalues.subset (List.mem_map_of_mem hentry)))
  values := List.all_eq_true.mpr hwritable

/-- All values of a mint section can be written if its height can. -/
theorem MintSection.Writable.isWritable {mint : MintSection} (h : mint.Writable) :
    ∀ entry ∈ mint.scalars, entry.2.isWritable := by
  intro entry hentry
  simp only [scalars, List.mem_append, Option.mem_toList, Option.map_eq_some_iff] at hentry
  rcases hentry with (⟨height, hheight, rfl⟩ | ⟨owner, -, rfl⟩) | ⟨limit, -, rfl⟩
  · exact isWritable_integer (h height hheight)
  · rfl
  · rfl

/-- All values of a chain can be written if its integers can. -/
theorem ChainConfig.Writable.isWritable {config : ChainConfig} (h : config.Writable) :
    ∀ entry ∈ config.scalars, entry.2.isWritable := by
  intro entry hentry
  simp only [scalars, List.mem_append, List.mem_cons, List.not_mem_nil, or_false,
    Option.mem_toList, Option.map_eq_some_iff] at hentry
  rcases hentry with (rfl | rfl) | ⟨collector, -, rfl⟩
  · exact isWritable_integer h.chainId
  · exact isWritable_integer h.gasLimit
  · rfl

theorem Logging.isWritable (logging : Logging) :
    ∀ entry ∈ logging.scalars, entry.2.isWritable := by
  intro entry hentry
  simp only [scalars, List.mem_append, List.mem_cons, List.not_mem_nil, or_false,
    Option.mem_toList, Option.map_eq_some_iff] at hentry
  rcases hentry with (rfl | ⟨file, -, rfl⟩) | rfl <;> rfl

/-- All sections of the document can be written. -/
theorem NodeConfig.wellFormed_sections {config : NodeConfig} (h : config.chain.Writable) :
    ∀ part ∈ config.sections, part.WellFormed := by
  intro part hpart
  simp only [sections, List.mem_append, List.mem_cons, List.not_mem_nil, or_false,
    Option.mem_toList, Option.map_eq_some_iff] at hpart
  -- The head, the chain, the mint section if there is one, and the log.
  rcases hpart with ((rfl | rfl) | ⟨mint, hmint, rfl⟩) | rfl
  · exact .of_names (by decide) (by decide) (List.Sublist.refl ["name"])
      (by simp [Scalar.isWritable])
  · exact .of_names (by decide) (by decide) config.chain.names_sublist h.isWritable
  · exact .of_names (by decide) (by decide) mint.names_sublist (h.mint mint hmint).isWritable
  · exact .of_names (by decide) (by decide) config.logging.names_sublist
      config.logging.isWritable

/-- A configuration whose integers can be written comes back from the text it is written as. -/
theorem NodeConfig.exists_toToml {config : NodeConfig} (h : config.chain.Writable) :
    ∃ text, config.toToml = .ok text ∧ ofToml text = .ok config := by
  obtain ⟨text, hwritten, hread⟩ := readDocument_encode (wellFormed_sections h)
  rw [config.foldlM_sections] at hread
  refine ⟨text, hwritten, ?_⟩
  rw [ofToml, decode, hread]
  exact config.read_toDatum

end BridgeMint
