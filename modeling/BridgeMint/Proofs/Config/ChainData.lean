import BridgeMint.Config.ChainData
import BridgeMint.Proofs.Data.Record
import BridgeMint.Proofs.Json.Value
import BridgeMint.Proofs.UInt256.Text

/-!
# Chain parameters survive a round trip through JSON

What is written for the parameters of a chain, for those of its mint fork and for the values in them
is read as the same.  Every optional field is written, an absent one as null, and what stands for a
value is never null: so a mint section without any field stays apart from none.  An amount may be
spelled in other ways than the one it is written in.
-/

namespace BridgeMint

/-! ## Values -/

theorem Datum.toUInt64_ofUInt64 (n : UInt64) : (ofUInt64 n).toUInt64 = .ok n := by
  have hlt := n.toNat_lt
  rw [ofUInt64, toUInt64, if_pos ⟨by omega, by simp only [UInt64.size]; omega⟩]
  simp

theorem Datum.writable_ofUInt64 (n : UInt64) : (ofUInt64 n).Writable := by
  have hlt := n.toNat_lt
  exact .integer (by omega) (by omega)

theorem Datum.writable_ofOption {α : Type} {write : α → Datum} (h : ∀ a, (write a).Writable)
    (o : Option α) : (ofOption write o).Writable := by
  cases o with
  | none => exact .null
  | some a => exact h a

theorem Datum.toAddress_text (address : Address) : (text address.text).toAddress = .ok address := by
  show (Address.parse address.text).mapError _ = _
  rw [Address.parse_text]
  rfl

theorem Datum.toWord_text (word : Word) : (text word.text).toWord = .ok word := by
  show (Word.parse word.text).mapError _ = _
  rw [Word.parse_text]
  rfl

/-! ## Spellings of an amount -/

/-- The ways to spell an amount: a decimal numeral, also one with leading zeros; a hexadecimal
numeral of at most sixty-four digits, of either case, after `0x` or `0X`; and below `2 ^ 64` a
number. -/
inductive Spells (x : UInt256) : Datum → Prop where
  | decimal (digits : List Char) (hnonempty : digits ≠ []) (hdigits : ∀ c ∈ digits, c.isDigit)
      (hvalue : Nat.ofDigitChars 10 digits 0 = x.toNat) : Spells x (.text (String.ofList digits))
  | hex {mark : Char} (digits : List Char) (hmark : mark = 'x' ∨ mark = 'X')
      (hdigits : Hex.AllDigits digits) (hlength : digits.length ≤ 64)
      (hvalue : Hex.value digits = x.toNat) :
      Spells x (.text (String.ofList ('0' :: mark :: digits)))
  | number {n : UInt64} (hvalue : n.toNat = x.toNat) : Spells x (.ofUInt64 n)

theorem spells_decimal (x : UInt256) : Spells x (.text x.decimal) := by
  obtain ⟨digits, hdecimal, hnonempty, hdigits, hvalue⟩ := x.exists_decimal_digits
  rw [hdecimal]
  exact .decimal digits hnonempty hdigits hvalue

namespace Spells

variable {x : UInt256} {d : Datum}

/-- Every spelling is read as the amount that it spells. -/
theorem toAmount (h : Spells x d) : d.toAmount = .ok x := by
  have hfits := x.toNat_lt_size
  cases h with
  | decimal digits hnonempty hdigits hvalue =>
    rw [Datum.toAmount, Datum.amountOfText, UInt256.parse_decimalDigits hnonempty hdigits, hvalue,
      if_pos hfits, UInt256.ofNat_toNat]
    rfl
  | hex digits hmark hdigits hlength hvalue =>
    rw [Datum.toAmount, Datum.amountOfText, UInt256.parse_hexDigits hmark hdigits, if_pos hlength,
      hvalue, UInt256.ofNat_toNat]
    rfl
  | number hvalue =>
    -- A number is taken as it is, without a numeral.
    rw [Datum.ofUInt64, Datum.toAmount, Datum.amountOfInteger, if_pos (by omega), Int.toNat_natCast,
      hvalue, UInt256.ofNat_toNat]

theorem writable (h : Spells x d) : d.Writable := by
  cases h with
  | decimal => exact .text _
  | hex => exact .text _
  | @number n _ => exact Datum.writable_ofUInt64 n

theorem ne_null (h : Spells x d) : d ≠ .null := by
  cases h <;> rintro ⟨⟩

/-- An optional amount that is there may be spelled in every way. -/
theorem toOption (h : Spells x d) : d.toOption Datum.toAmount = .ok (some x) := by
  rw [Datum.toOption, h.toAmount]
  · rfl
  · exact h.ne_null

end Spells

/-! ## The mint fork -/

namespace MintSection

/-- The mint fork as data, with its limit given as `limit`. -/
def withLimitDatum (mint : MintSection) (limit : Datum) : Datum :=
  .table [
    ("activation_block", .ofOption .ofUInt64 mint.activationBlock),
    ("owner_address", .ofOption (fun owner => .text owner.text) mint.owner),
    ("mint_limit", limit)] true

theorem toDatum_eq (mint : MintSection) :
    mint.toDatum = mint.withLimitDatum (.ofOption (fun limit => .text limit.decimal) mint.limit) :=
  rfl

/-- A mint section can be written if its limit can. -/
theorem writable_withLimitDatum (mint : MintSection) {limit : Datum} (h : limit.Writable) :
    (mint.withLimitDatum limit).Writable := by
  refine .table fun member hmember => ?_
  simp only [List.mem_cons, List.not_mem_nil, or_false] at hmember
  rcases hmember with rfl | rfl | rfl
  · exact Datum.writable_ofOption Datum.writable_ofUInt64 _
  · exact Datum.writable_ofOption (fun _ => .text _) _
  · exact h

/-- The mint fork comes back from its data, however its limit is given. -/
theorem ofDatum_withLimitDatum {mint : MintSection} {limit : Datum} {value : Option UInt256}
    (h : limit.toOption Datum.toAmount = .ok value) (surplus : Bool) :
    ofDatum surplus (mint.withLimitDatum limit) = .ok { mint with limit := value } := by
  have hheight := Datum.toOption_ofOption Datum.toUInt64_ofUInt64 (by rintro _ ⟨⟩) mint.activationBlock
  have howner := Datum.toOption_ofOption Datum.toAddress_text (by rintro _ ⟨⟩) mint.owner
  rw [ofDatum, withLimitDatum, RecordShape.read_table (by decide) rfl]
  simp only [shape, List.map_cons, List.map_nil]
  -- The fields are read in the order in which they are declared.
  rw [RecordShape.readItems_cons (FieldShape.read_of hheight _),
    RecordShape.readItems_cons (FieldShape.read_of howner _),
    RecordShape.readItems_cons (FieldShape.read_of h _)]
  rfl

end MintSection

/-! ## The chain -/

namespace ChainConfig

/-- A chain's parameters as data, with the mint fork given as `mint`. -/
def withMintDatum (config : ChainConfig) (mint : Datum) : Datum :=
  .table [
    ("chain_id", .ofUInt64 config.chainId),
    ("gas_limit", .ofUInt64 config.gasLimit),
    ("fee_collector", .ofOption (fun collector => .text collector.text) config.feeCollector),
    ("mint_contract", mint)] true

theorem toDatum_eq (config : ChainConfig) :
    config.toDatum = config.withMintDatum (.ofOption MintSection.toDatum config.mint) :=
  rfl

/-- The parameters of a chain can be written if their mint section can. -/
theorem writable_withMintDatum (config : ChainConfig) {mint : Datum} (h : mint.Writable) :
    (config.withMintDatum mint).Writable := by
  refine .table fun member hmember => ?_
  simp only [List.mem_cons, List.not_mem_nil, or_false] at hmember
  rcases hmember with rfl | rfl | rfl | rfl
  · exact Datum.writable_ofUInt64 _
  · exact Datum.writable_ofUInt64 _
  · exact Datum.writable_ofOption (fun _ => .text _) _
  · exact h

/-- A chain's parameters come back from their data, however the mint fork is given. -/
theorem ofDatum_withMintDatum {config : ChainConfig} {mint : Datum} {value : Option MintSection}
    {surplus : Bool} (h : mint.toOption (MintSection.ofDatum surplus) = .ok value) :
    ofDatum surplus (config.withMintDatum mint) = .ok { config with mint := value } := by
  have hcollector := Datum.toOption_ofOption Datum.toAddress_text (by rintro _ ⟨⟩)
    config.feeCollector
  have hdistinct : (shape surplus).names.Nodup := by
    show ["chain_id", "gas_limit", "fee_collector", "mint_contract"].Nodup
    decide
  rw [ofDatum, withMintDatum, RecordShape.read_table hdistinct rfl]
  simp only [shape, List.map_cons, List.map_nil]
  rw [RecordShape.readItems_cons (FieldShape.read_of (Datum.toUInt64_ofUInt64 _) _),
    RecordShape.readItems_cons (FieldShape.read_of (Datum.toUInt64_ofUInt64 _) _),
    RecordShape.readItems_cons (FieldShape.read_of hcollector _),
    RecordShape.readItems_cons (FieldShape.read_of h _)]
  rfl

end ChainConfig

/-! ## Round trips -/

theorem MintSection.writable_toDatum (mint : MintSection) : mint.toDatum.Writable :=
  mint.writable_withLimitDatum (Datum.writable_ofOption (fun _ => .text _) _)

theorem MintSection.ofDatum_toDatum (mint : MintSection) (surplus : Bool) :
    ofDatum surplus mint.toDatum = .ok mint :=
  ofDatum_withLimitDatum
    (Datum.toOption_ofOption (fun x => (spells_decimal x).toAmount) (by rintro _ ⟨⟩) mint.limit) surplus

theorem ChainConfig.writable_toDatum (config : ChainConfig) : config.toDatum.Writable :=
  config.writable_withMintDatum (Datum.writable_ofOption MintSection.writable_toDatum _)

theorem ChainConfig.ofDatum_toDatum (config : ChainConfig) (surplus : Bool) :
    ofDatum surplus config.toDatum = .ok config :=
  ofDatum_withMintDatum
    (Datum.toOption_ofOption (MintSection.ofDatum_toDatum · surplus) (by rintro _ ⟨⟩) config.mint)

/-- The parameters of a chain, those of a mint fork, amounts, addresses and words come back from the
JSON text that they are written as; a blank mint section is written differently from none; and an
amount, alone or as the limit of a mint section, is read the same in each of its spellings. -/
theorem decode_encode_chainData :
    (∀ config : ChainConfig,
      Json.decode (ChainConfig.ofDatum false) (Json.encode config.toDatum) = .ok config) ∧
    (∀ mint : MintSection,
      Json.decode (MintSection.ofDatum false) (Json.encode mint.toDatum) = .ok mint) ∧
    (∀ x : UInt256, Json.decode Datum.toAmount (Json.encode (.text x.decimal)) = .ok x) ∧
    (∀ address : Address,
      Json.decode Datum.toAddress (Json.encode (.text address.text)) = .ok address) ∧
    (∀ word : Word, Json.decode Datum.toWord (Json.encode (.text word.text)) = .ok word) ∧
    (∀ config : ChainConfig, Json.encode { config with mint := some .blank }.toDatum ≠
      Json.encode { config with mint := none }.toDatum) ∧
    ∀ (x : UInt256) (d : Datum), Spells x d →
      Json.decode Datum.toAmount (Json.encode d) = .ok x ∧
      (∀ mint : MintSection,
        Json.decode (MintSection.ofDatum false) (Json.encode (mint.withLimitDatum d)) =
          .ok { mint with limit := some x }) ∧
      ∀ (config : ChainConfig) (mint : MintSection),
        Json.decode (ChainConfig.ofDatum false)
            (Json.encode (config.withMintDatum (mint.withLimitDatum d))) =
          .ok { config with mint := some { mint with limit := some x } } := by
  have hchain : ∀ config : ChainConfig,
      Json.decode (ChainConfig.ofDatum false) (Json.encode config.toDatum) = .ok config := by
    intro config
    rw [Json.decode_encode config.writable_toDatum, config.ofDatum_toDatum]
  have hspelled : ∀ {x : UInt256} {d : Datum}, Spells x d →
      Json.decode Datum.toAmount (Json.encode d) = .ok x := by
    intro x d h
    rw [Json.decode_encode h.writable, h.toAmount]
  refine ⟨hchain, fun mint => ?_, fun x => hspelled (spells_decimal x), fun address => ?_,
    fun word => ?_, fun config hsame => ?_, fun x d h => ⟨hspelled h, fun mint => ?_,
    fun config mint => ?_⟩⟩
  · rw [Json.decode_encode mint.writable_toDatum, mint.ofDatum_toDatum]
  · rw [Json.decode_encode (.text _), Datum.toAddress_text]
  · rw [Json.decode_encode (.text _), Datum.toWord_text]
  · -- Equal texts would be read as equal parameters.
    have hread := hchain { config with mint := some .blank }
    rw [hsame, hchain, Except.ok.injEq] at hread
    cases congrArg ChainConfig.mint hread
  · rw [Json.decode_encode (mint.writable_withLimitDatum h.writable),
      MintSection.ofDatum_withLimitDatum h.toOption]
  · rw [Json.decode_encode (config.writable_withMintDatum (mint.writable_withLimitDatum h.writable))]
    refine ChainConfig.ofDatum_withMintDatum ?_
    show (MintSection.ofDatum false (mint.withLimitDatum d)).map some = _
    rw [MintSection.ofDatum_withLimitDatum h.toOption]
    rfl

/-- A thousand is spelled with a leading zero, in hexadecimal of either case and as a number, also as
the limit of a mint section. -/
theorem decode_encode_chainData_thousand :
    Json.decode Datum.toAmount (Json.encode (.text "01000")) = .ok 1000 ∧
    Json.decode Datum.toAmount (Json.encode (.text "0X3e8")) = .ok 1000 ∧
    Json.decode Datum.toAmount (Json.encode (.ofUInt64 1000)) = .ok 1000 ∧
    Json.decode (MintSection.ofDatum false)
        (Json.encode (MintSection.blank.withLimitDatum (.text "0x3E8"))) =
      .ok ⟨none, none, some 1000⟩ := by
  obtain ⟨-, -, -, -, -, -, hspelled⟩ := decode_encode_chainData
  have hdecimal : Spells 1000 (.text "01000") :=
    Spells.decimal (x := 1000) ['0', '1', '0', '0', '0'] (by simp) (List.all_eq_true.mp rfl) rfl
  have hhex : Spells 1000 (.text "0X3e8") :=
    Spells.hex (x := 1000) ['3', 'e', '8'] (.inr rfl) (by decide) (by decide) rfl
  have hupper : Spells 1000 (.text "0x3E8") :=
    Spells.hex (x := 1000) ['3', 'E', '8'] (.inl rfl) (by decide) (by decide) rfl
  have hnumber : Spells 1000 (.ofUInt64 1000) := .number rfl
  obtain ⟨hdecimalRead, -⟩ := hspelled _ _ hdecimal
  obtain ⟨hhexRead, -⟩ := hspelled _ _ hhex
  obtain ⟨hnumberRead, -⟩ := hspelled _ _ hnumber
  obtain ⟨-, hlimitRead, -⟩ := hspelled _ _ hupper
  exact ⟨hdecimalRead, hhexRead, hnumberRead, hlimitRead .blank⟩

end BridgeMint
