import BridgeMint.CommandLine.Program
import BridgeMint.Proofs.Config.NodeData
import BridgeMint.Proofs.Toml.Range

/-!
# Configuration files survive a reload

A configuration whose integers have sixty-three bits is read back from the file it is written to.
Every configuration that was read from a file is one, as the integers of a document are no greater;
what the command line changes about it are no integers.  What a file leaves out is filled from three
different defaults: a chain that is not there is the development chain, but the gaps of a chain that is
there are filled from the main network, and options stay absent.
-/

namespace BridgeMint

open Toml

/-! ## Records read from data in range -/

/-- What every field keeps that is read from data in range holds of the record that is read. -/
theorem RecordShape.read_invariant {ρ : Type} {shape : RecordShape ρ} {P : ρ → Prop}
    (hfields : ∀ field ∈ shape.fields, ∀ value : Datum, value.Fits → ∀ record next,
      P record → field.read value record = .ok next → P next)
    {surplus : Bool} {default result : ρ} (hdefault : P default) {d : Datum} (hd : d.Fits)
    (h : shape.read surplus default d = .ok result) : P result := by
  -- A table, and whatever stands for one, is read member by member.
  have hmembers : ∀ {members : List (String × Datum)} {result : ρ}, (∀ m ∈ members, m.2.Fits) →
      shape.readMembers [] members default = .ok result → P result := fun hmembers hread =>
    readMembers_invariant (fun field hfield value hvalue => hfields field hfield value
      (hmembers _ hvalue)) hdefault hread
  cases hd with
  | table hfits => exact hmembers hfits (readMembers_of_read h)
  | list hfits =>
    rw [read] at h
    split at h
    case h_1 => cases h
    case h_2 record rest hread =>
      have hrecord := readItems_invariant (fun field hfield item hitem =>
        hfields field hfield item (hfits item hitem)) hdefault hread
      split at h
      · cases h
        exact hrecord
      · cases h
  | moment =>
    -- A date or time stands for a table with one member, a text.
    rw [read] at h
    exact hmembers (fun m hm => List.mem_singleton.mp hm ▸ .text "") h
  | _ => cases h

/-- An integer of a document has no more than sixty-three bits. -/
theorem Datum.Fits.toNat_lt {d : Datum} (hd : d.Fits) {n : UInt64} (h : d.toUInt64 = .ok n) :
    n.toNat < 2 ^ 63 := by
  cases hd with
  | integer hlow hhigh =>
    rw [toUInt64] at h
    split at h
    case isTrue hrange =>
      cases h
      rw [UInt64.toNat_ofNat']
      omega
    case isFalse => cases h
  | _ => cases h

/-- An optional value that is read is absent or was read itself. -/
theorem Datum.toOption_eq_ok {α : Type} {read : Datum → Except MeaningError α} {d : Datum}
    {value? : Option α} (h : d.toOption read = .ok value?) : ∀ a ∈ value?, read d = .ok a := by
  intro a ha
  rw [toOption.eq_def] at h
  split at h
  case h_1 =>
    cases h
    cases ha
  case h_2 =>
    -- The value is not null, so it was read as it is.
    cases hread : read d with
    | error e =>
      rw [hread] at h
      cases h
    | ok value =>
      rw [hread] at h
      cases h
      cases ha
      rfl

/-- A mint section that was read can be written. -/
theorem MintSection.writable_of_ofDatum {surplus : Bool} {d : Datum} (hd : d.Fits)
    {mint : MintSection} (h : ofDatum surplus d = .ok mint) : mint.Writable := by
  refine RecordShape.read_invariant (fun field hfield value hvalue record next hrecord hread => ?_)
    (fun _ hmem => nomatch hmem : blank.Writable) hd h
  simp only [shape, List.mem_cons, List.not_mem_nil, or_false] at hfield
  -- Of the three fields, only the height is an integer.
  rcases hfield with rfl | rfl | rfl
  · obtain ⟨height?, hheight, rfl⟩ := FieldShape.exists_of_read_of hread
    exact fun height hmem => hvalue.toNat_lt (Datum.toOption_eq_ok hheight height hmem)
  · obtain ⟨owner, -, rfl⟩ := FieldShape.exists_of_read_of hread
    exact hrecord
  · obtain ⟨limit, -, rfl⟩ := FieldShape.exists_of_read_of hread
    exact hrecord

/-- The parameters of a chain that were read can be written. -/
theorem ChainConfig.writable_of_ofDatum {surplus : Bool} {d : Datum} (hd : d.Fits)
    {config : ChainConfig} (h : ofDatum surplus d = .ok config) : config.Writable := by
  refine RecordShape.read_invariant (fun field hfield value hvalue record next hrecord hread => ?_)
    (⟨by decide, by decide, by rintro _ ⟨⟩⟩ : mainnet.Writable) hd h
  simp only [shape, List.mem_cons, List.not_mem_nil, or_false] at hfield
  -- Each field keeps what holds of the other ones.
  rcases hfield with rfl | rfl | rfl | rfl
  · obtain ⟨chainId, hchainId, rfl⟩ := FieldShape.exists_of_read_of hread
    exact { hrecord with chainId := hvalue.toNat_lt hchainId }
  · obtain ⟨gasLimit, hgasLimit, rfl⟩ := FieldShape.exists_of_read_of hread
    exact { hrecord with gasLimit := hvalue.toNat_lt hgasLimit }
  · obtain ⟨collector, -, rfl⟩ := FieldShape.exists_of_read_of hread
    exact { hrecord with }
  · obtain ⟨mint?, hmint, rfl⟩ := FieldShape.exists_of_read_of hread
    exact { hrecord with mint := fun mint hmem =>
      MintSection.writable_of_ofDatum hvalue (Datum.toOption_eq_ok hmint mint hmem) }

/-- A configuration that was read can be written. -/
theorem NodeConfig.writable_of_ofToml {text : String} {config : NodeConfig}
    (h : ofToml text = .ok config) : config.chain.Writable := by
  rw [ofToml, decode] at h
  split at h
  case h_1 => cases h
  case h_2 d hdocument =>
    refine RecordShape.read_invariant (P := fun config : NodeConfig => config.chain.Writable)
      (fun field hfield value hvalue record next hrecord hread => ?_)
      ⟨by decide, by decide, by rintro _ ⟨⟩⟩ (fits_readDocument hdocument) h
    simp only [shape, List.mem_cons, List.not_mem_nil, or_false] at hfield
    -- Only the member of the chain has a part in this.
    rcases hfield with rfl | rfl | rfl
    · obtain ⟨name, -, rfl⟩ := FieldShape.exists_of_read_of hread
      exact hrecord
    · obtain ⟨chain, hchain, rfl⟩ := FieldShape.exists_of_read_of hread
      exact ChainConfig.writable_of_ofDatum hvalue hchain
    · obtain ⟨logging, -, rfl⟩ := FieldShape.exists_of_read_of hread
      exact hrecord

/-! ## Gaps -/

/-- Reading a field of the chain's parameters changes no other. -/
theorem ChainConfig.read_field {surplus : Bool} {field : FieldShape ChainConfig}
    (hfield : field ∈ (shape surplus).fields) {value : Datum} {record next : ChainConfig}
    (hread : field.read value record = .ok next) :
    (field.name ≠ "chain_id" → next.chainId = record.chainId) ∧
    (field.name ≠ "gas_limit" → next.gasLimit = record.gasLimit) ∧
    (field.name ≠ "fee_collector" → next.feeCollector = record.feeCollector) ∧
    (field.name ≠ "mint_contract" → next.mint = record.mint) := by
  simp only [shape, List.mem_cons, List.not_mem_nil, or_false] at hfield
  rcases hfield with rfl | rfl | rfl | rfl
  all_goals
    obtain ⟨value, -, rfl⟩ := FieldShape.exists_of_read_of hread
    simp [FieldShape.of]

/-- The gaps of a chain that is given are filled from the main network. -/
theorem ChainConfig.gaps_of_ofDatum {surplus : Bool} {members : List (String × Datum)}
    {config : ChainConfig} (h : ofDatum surplus (.table members true) = .ok config) :
    ("chain_id" ∉ members.map (·.1) → config.chainId = mainnet.chainId) ∧
    ("gas_limit" ∉ members.map (·.1) → config.gasLimit = mainnet.gasLimit) ∧
    ("fee_collector" ∉ members.map (·.1) → config.feeCollector = none) ∧
    ("mint_contract" ∉ members.map (·.1) → config.mint = none) := by
  -- A field that no member names keeps what the main network has.
  have hmembers := RecordShape.readMembers_of_read h
  refine ⟨fun habsent => ?_, fun habsent => ?_, fun habsent => ?_, fun habsent => ?_⟩
  · refine RecordShape.readMembers_keeps ChainConfig.chainId
      (fun field hfield hname value record next hread => ?_) habsent hmembers
    obtain ⟨hkept, -⟩ := read_field hfield hread
    exact hkept hname
  · refine RecordShape.readMembers_keeps ChainConfig.gasLimit
      (fun field hfield hname value record next hread => ?_) habsent hmembers
    obtain ⟨-, hkept, -⟩ := read_field hfield hread
    exact hkept hname
  · refine RecordShape.readMembers_keeps ChainConfig.feeCollector
      (fun field hfield hname value record next hread => ?_) habsent hmembers
    obtain ⟨-, -, hkept, -⟩ := read_field hfield hread
    exact hkept hname
  · refine RecordShape.readMembers_keeps ChainConfig.mint
      (fun field hfield hname value record next hread => ?_) habsent hmembers
    obtain ⟨-, -, -, hkept⟩ := read_field hfield hread
    exact hkept hname

/-- Reading the name or the log changes nothing about the chain. -/
theorem NodeConfig.read_field {field : FieldShape NodeConfig} (hfield : field ∈ shape.fields)
    (hname : field.name ≠ "chain") {value : Datum} {record next : NodeConfig}
    (hread : field.read value record = .ok next) : next.chain = record.chain := by
  simp only [shape, List.mem_cons, List.not_mem_nil, or_false] at hfield
  rcases hfield with rfl | rfl | rfl
  · obtain ⟨name, -, rfl⟩ := FieldShape.exists_of_read_of hread
    rfl
  · exact absurd rfl hname
  · obtain ⟨logging, -, rfl⟩ := FieldShape.exists_of_read_of hread
    rfl

/-- A chain that is not given is the development chain; one that is given is read over the main
network. -/
theorem NodeConfig.chain_of_ofToml {text : String} {members : List (String × Datum)}
    {config : NodeConfig} (hdocument : readDocument text = some (.table members true))
    (h : ofToml text = .ok config) :
    ("chain" ∉ members.map (·.1) → config.chain = .devnet) ∧
    ("chain" ∈ members.map (·.1) →
      ∃ d, ("chain", d) ∈ members ∧ ChainConfig.ofDatum true d = .ok config.chain) := by
  rw [ofToml, decode, hdocument] at h
  have hmembers := RecordShape.readMembers_of_read h
  refine ⟨fun habsent => ?_, fun hnamed => ?_⟩
  · exact RecordShape.readMembers_keeps NodeConfig.chain
      (fun field hfield hname value record next => read_field hfield hname) habsent hmembers
  · have hchain : FieldShape.of "chain" (ChainConfig.ofDatum true)
        (fun chain (config : NodeConfig) => { config with chain }) ∈ shape.fields := by
      simp [shape]
    -- The field of the chain brings about what is claimed, and the other two keep it.
    refine RecordShape.readMembers_taken (P := fun config =>
        ∃ d, ("chain", d) ∈ members ∧ ChainConfig.ofDatum true d = .ok config.chain)
      (by decide) hchain (fun value hvalue record next hread => ?_)
      (fun other hother hname value record next hrecord hread => ?_) hnamed hmembers
    · obtain ⟨chain, hgiven, rfl⟩ := FieldShape.exists_of_read_of hread
      exact ⟨value, hvalue, hgiven⟩
    · rw [read_field hother hname hread]
      exact hrecord

/-! ## Reloading -/

namespace NodeConfig

/-- The configuration can be written, and from whatever file its text is read, it is the same again and
so are the migrations scheduled for its chain. -/
def SurvivesReload (config : NodeConfig) : Prop :=
  ∃ text, config.toToml = .ok text ∧ ∀ path,
    ofFile path (.ok text) = .ok config ∧
    (ofFile path (.ok text)).map (fun loaded => MigrationRegistry.ofConfig loaded.chain) =
      .ok (MigrationRegistry.ofConfig config.chain)

/-- Whatever can be written survives. -/
theorem survivesReload_of_writable {config : NodeConfig} (h : config.chain.Writable) :
    config.SurvivesReload := by
  obtain ⟨text, hwritten, hread⟩ := exists_toToml h
  have hfile : ∀ path, ofFile path (.ok text) = .ok config := fun path => by
    rw [ofFile, hread]
    rfl
  exact ⟨text, hwritten, fun path => ⟨hfile path, by rw [hfile]; rfl⟩⟩

/-- A file is read as its text. -/
theorem ofToml_of_ofFile {path text : String} {config : NodeConfig}
    (h : ofFile path (.ok text) = .ok config) : ofToml text = .ok config := by
  rw [ofFile] at h
  cases hread : ofToml text with
  | error cause =>
    rw [hread] at h
    cases h
  | ok loaded =>
    rw [hread] at h
    cases h
    rfl

/-- Every configuration whose integers can be written survives being written and read again, and so
does every one that was read from a file, also as the command line changes it.  A file without a chain
has the development chain; what a given chain lacks is the main network's, and options are absent. -/
theorem ofFile_toToml :
    (∀ config : NodeConfig, config.chain.Writable → config.SurvivesReload) ∧
    (∀ path contents args config, ofFile path contents = .ok config →
      (config.override args).SurvivesReload) ∧
    (∀ path text members config, readDocument text = some (.table members true) →
      ofFile path (.ok text) = .ok config →
      ("chain" ∉ members.map (·.1) → config.chain = .devnet) ∧
      ("chain" ∈ members.map (·.1) →
        ∃ d, ("chain", d) ∈ members ∧ ChainConfig.ofDatum true d = .ok config.chain)) ∧
    (∀ members chain, ChainConfig.ofDatum true (.table members true) = .ok chain →
      ("chain_id" ∉ members.map (·.1) → chain.chainId = ChainConfig.mainnet.chainId) ∧
      ("gas_limit" ∉ members.map (·.1) → chain.gasLimit = ChainConfig.mainnet.gasLimit) ∧
      ("fee_collector" ∉ members.map (·.1) → chain.feeCollector = none) ∧
      ("mint_contract" ∉ members.map (·.1) → chain.mint = none)) := by
  refine ⟨fun config => survivesReload_of_writable, fun path contents args config h => ?_,
    fun path text members config hdocument h => chain_of_ofToml hdocument (ofToml_of_ofFile h),
    fun members chain => ChainConfig.gaps_of_ofDatum⟩
  cases contents with
  | error cause => cases h
  | ok text =>
    -- The command line changes the log level and format only.
    have hloaded : config.chain.Writable := writable_of_ofToml (ofToml_of_ofFile h)
    exact survivesReload_of_writable (show (config.override args).chain.Writable from hloaded)

/-- A name that needs quoting and a blank mint section survive; so does what was read from a file with
a gap in its chain, logged in another form; an empty file has the development chain. -/
theorem ofFile_toToml_blank_mint :
    SurvivesReload ⟨"a\r\n'b'\"", ⟨7, 0x7fffffffffffffff, none, some .blank⟩, .standard⟩ ∧
    (override ⟨"forgemint-node", { ChainConfig.mainnet with chainId := 5 }, .standard⟩
      { Arguments.standard with jsonLogs := true }).SurvivesReload ∧
    standard.chain = .devnet ∧
    (⟨5, 30000000, none, none⟩ : ChainConfig).gasLimit = ChainConfig.mainnet.gasLimit := by
  obtain ⟨hwritable, hloaded, hchain, hgaps⟩ := ofFile_toToml
  obtain ⟨habsent, -⟩ := hchain "node.toml" "" [] standard rfl rfl
  obtain ⟨-, hgasLimit, -⟩ := hgaps [("chain_id", .integer 5)] ⟨5, 30000000, none, none⟩ rfl
  exact ⟨hwritable _ ⟨by decide, by decide, by rintro _ ⟨⟩ _ ⟨⟩⟩,
    hloaded "node.toml" (.ok "[chain]\nchain_id = 5\n") _ _ (by decide +kernel),
    habsent (by decide), hgasLimit (by decide)⟩

end NodeConfig

end BridgeMint
