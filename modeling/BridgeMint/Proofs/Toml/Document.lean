import BridgeMint.Proofs.Toml.Scalar
import BridgeMint.Toml.Document

/-!
# Written documents are read back line by line

A document that is written as sections consists of lines that each say one thing: a blank line
nothing, a header that a table opens, and any other line that a value is set.  Every line is read as
what it says, whatever follows it, so the document is read as the list of its lines.
-/

namespace BridgeMint

namespace Toml

/-! ## Names -/

/-- A name that is written without quotes. -/
def IsBare (name : String) : Prop :=
  name.toList ≠ [] ∧ ∀ c ∈ name.toList, isNameChar c

instance (name : String) : Decidable (IsBare name) :=
  decidable_of_iff (name.toList ≠ [] ∧ name.toList.all isNameChar) (by simp [IsBare])

/-- What follows a name does not go on with it. -/
def EndsName (rest : List Char) : Prop :=
  ∀ c ∈ rest.head?, isNameChar c = false

theorem ne_of_isNameChar {c : Char} (h : isNameChar c) (special : Char)
    (hspecial : isNameChar special = false) : c ≠ special := by
  rintro rfl
  rw [h] at hspecial
  cases hspecial

theorem skipBlanks_cons {c : Char} (h : isBlank c = false) (cs : List Char) :
    skipBlanks (c :: cs) = c :: cs := by
  simp [skipBlanks, h]

/-- One blank is skipped before a character that is none. -/
theorem skipBlanks_space_cons {c : Char} (h : isBlank c = false) (cs : List Char) :
    skipBlanks (' ' :: c :: cs) = c :: cs :=
  skipBlanks_cons h cs

theorem isBlank_of_isNameChar {c : Char} (h : isNameChar c) : isBlank c = false := by
  have hspace := ne_of_isNameChar h ' ' (by decide)
  have htab := ne_of_isNameChar h '\t' (by decide)
  simp [isBlank, hspace, htab]

namespace IsBare

variable {name : String}

theorem exists_head (h : IsBare name) : ∃ first later, name.toList = first :: later ∧
    isNameChar first := by
  obtain ⟨hnonempty, hchars⟩ := h
  cases hname : name.toList with
  | nil => exact absurd hname hnonempty
  | cons first later => exact ⟨first, later, rfl, hchars first (hname ▸ List.mem_cons_self)⟩

/-- A bare name is read back, as far as it goes. -/
theorem readNamePart (h : IsBare name) {rest : List Char} (hrest : EndsName rest) :
    readNamePart (name.toList ++ rest) = some (name, rest) := by
  obtain ⟨first, later, hname, hfirst⟩ := h.exists_head
  have hskip : skipBlanks (name.toList ++ rest) = name.toList ++ rest := by
    rw [hname, List.cons_append, skipBlanks_cons (isBlank_of_isNameChar hfirst)]
  obtain ⟨-, hchars⟩ := h
  obtain ⟨hnone, hall⟩ : rest.takeWhile isNameChar = [] ∧ rest.dropWhile isNameChar = rest := by
    cases rest with
    | nil => exact ⟨rfl, rfl⟩
    | cons c rest => simp [hrest c rfl]
  have htake : (name.toList ++ rest).takeWhile isNameChar = name.toList := by
    rw [List.takeWhile_append_of_pos hchars, hnone, List.append_nil]
  have hdrop : (name.toList ++ rest).dropWhile isNameChar = rest := by
    rw [List.dropWhile_append_of_pos hchars, hall]
  -- The name does not start with a quote, so it is taken as far as its characters reach.
  have hplain : ∀ quote : Char, isNameChar quote = false → ∀ cs, name.toList ++ rest ≠ quote :: cs := by
    intro quote hquote cs heq
    rw [hname, List.cons_append] at heq
    exact ne_of_isNameChar hfirst quote hquote (List.head_eq_of_cons_eq heq)
  rw [Toml.readNamePart, hskip]
  split
  case h_1 heq => exact absurd heq (hplain '"' (by decide) _)
  case h_2 heq => exact absurd heq (hplain '\'' (by decide) _)
  case h_3 =>
    rw [htake, hdrop, hname]
    simp only [← hname, String.ofList_toList]

end IsBare

/-- A dotted name as it is written. -/
def Name.write (name : Name) : List Char :=
  ['.'].intercalate (name.parts.map String.toList)

namespace Name

theorem write_last (last : String) : write ⟨[], last⟩ = last.toList := by
  rw [write, parts, List.nil_append, List.map_singleton, List.intercalate_singleton]

theorem write_cons (parent : String) (parents : List String) (last : String) :
    write ⟨parent :: parents, last⟩ = parent.toList ++ '.' :: write ⟨parents, last⟩ := by
  cases parents <;> simp [write, parts, List.intercalate_cons_cons]

end Name

/-- A dotted name is read back, with the blanks after it. -/
theorem readName_write {name : Name} (hbare : ∀ part ∈ name.parts, IsBare part) {limit : Nat}
    (hlimit : name.parts.length ≤ limit) (rest : List Char) (hrest : EndsName rest)
    (hdot : (skipBlanks rest).head? ≠ some '.') :
    readName limit (name.write ++ rest) = some (name, skipBlanks rest) := by
  obtain ⟨parents, last⟩ := name
  -- Every part takes one from the limit, which allows for as many parts as there are.
  induction parents generalizing limit with
  | nil =>
    cases limit with
    | zero => cases hlimit
    | succ limit =>
      have hlast : IsBare last := hbare last (by simp [Name.parts])
      rw [Name.write_last, readName, hlast.readNamePart hrest]
      simp only
      split
      case h_1 heq => exact absurd (congrArg List.head? heq) hdot
      case h_2 => rfl
  | cons parent parents ih =>
    cases limit with
    | zero => cases hlimit
    | succ limit =>
      have hparent : IsBare parent := hbare parent (by simp [Name.parts])
      have hread := ih (fun part hpart => hbare part (List.mem_cons_of_mem parent hpart))
        (Nat.le_of_succ_le_succ hlimit)
      have hskip := skipBlanks_cons (c := '.') (by decide) (Name.write ⟨parents, last⟩ ++ rest)
      rw [Name.write_cons, List.append_assoc, List.cons_append, readName,
        hparent.readNamePart (by rintro _ ⟨⟩; decide)]
      simp only [hskip, hread, Option.map_some]

/-! ## Lines -/

/-- The line is read as the statement, whatever follows it. -/
def SaysLine (line : List Char) (statement : Statement) : Prop :=
  ∀ rest, Statement.read (line ++ rest) = some (statement, rest)

theorem saysLine_blank : SaysLine ['\n'] .nothing :=
  fun _ => rfl

/-- A line that starts with a name or a bracket is no blank line and no comment. -/
theorem endLine?_eq_none {c : Char} (hblank : isBlank c = false) (hcomment : c ≠ '#')
    (hbreak : c ≠ '\n') (cs : List Char) : endLine? (c :: cs) = none := by
  rw [endLine?, skipBlanks_cons hblank, skipComment]
  · split
    case h_1 heq => cases heq
    case h_2 heq => exact absurd (List.head_eq_of_cons_eq heq) hbreak
    case h_3 => rfl
  · exact fun _ heq => hcomment (List.head_eq_of_cons_eq heq)

/-- One bracket opens a table, and not a row. -/
theorem read_bracket {c : Char} (h : c ≠ '[') (cs : List Char) :
    Statement.read ('[' :: c :: cs) = Statement.readHeader [']'] .openTable (c :: cs) := by
  rw [Statement.read, endLine?_eq_none (by decide) (by decide) (by decide)]
  simp only [skipBlanks_cons (c := '[') (by decide)]
  split
  case h_1 heq => exact absurd (List.head_eq_of_cons_eq (List.tail_eq_of_cons_eq heq)) h
  case h_2 heq => rw [List.tail_eq_of_cons_eq heq]
  case h_3 hsingle => exact absurd rfl (hsingle _)

/-- A line that starts with a name sets a value. -/
theorem read_name {c : Char} (h : isNameChar c) (cs : List Char) :
    Statement.read (c :: cs) = Statement.readAssignment (c :: cs) := by
  have hne := ne_of_isNameChar h
  rw [Statement.read, endLine?_eq_none (isBlank_of_isNameChar h) (hne '#' (by decide))
    (hne '\n' (by decide))]
  simp only [skipBlanks_cons (isBlank_of_isNameChar h)]
  split
  case h_1 heq => exact absurd (List.head_eq_of_cons_eq heq) (hne '[' (by decide))
  case h_2 heq => exact absurd (List.head_eq_of_cons_eq heq) (hne '[' (by decide))
  case h_3 => rfl

/-- A dotted name starts with a character that names consist of. -/
theorem Name.exists_head {name : Name} (hbare : ∀ part ∈ name.parts, IsBare part) :
    ∃ first later, name.write = first :: later ∧ isNameChar first := by
  obtain ⟨parents, last⟩ := name
  cases parents with
  | nil =>
    rw [Name.write_last]
    exact (hbare last (by simp [Name.parts])).exists_head
  | cons parent parents =>
    obtain ⟨first, later, hhead, hfirst⟩ := (hbare parent List.mem_cons_self).exists_head
    rw [Name.write_cons, hhead]
    exact ⟨first, later ++ '.' :: Name.write ⟨parents, last⟩, rfl, hfirst⟩

/-- A header is read as the table that it opens. -/
theorem saysLine_header {name : Name} (hbare : ∀ part ∈ name.parts, IsBare part)
    (hdepth : name.parts.length ≤ depthLimit) :
    SaysLine ('[' :: name.write ++ [']', '\n']) (.openTable name) := by
  intro rest
  have hskip : skipBlanks (']' :: '\n' :: rest) = ']' :: '\n' :: rest := skipBlanks_cons (by decide) _
  have hname := readName_write hbare hdepth (']' :: '\n' :: rest)
    (by rintro _ ⟨⟩; decide) (by simp [hskip])
  have hheader : Statement.readHeader [']'] .openTable (name.write ++ ']' :: '\n' :: rest) =
      some (.openTable name, rest) := by
    rw [Statement.readHeader, hname]
    rfl
  obtain ⟨first, later, hhead, hfirst⟩ := Name.exists_head hbare
  have hbracket : first ≠ '[' := ne_of_isNameChar hfirst '[' (by decide)
  simp only [List.cons_append, List.append_assoc, List.nil_append]
  -- What the line is, is decided by its first two characters.
  rw [hhead, List.cons_append] at hheader ⊢
  rw [read_bracket hbracket, hheader]

/-! ### Values -/

/-- A value does not start with a blank. -/
theorem Scalar.write_head (value : Scalar) :
    ∃ first later, value.write = first :: later ∧ isBlank first = false := by
  cases value with
  | text s =>
    obtain ⟨later, hhead | hhead⟩ := writeText_head s.toList
    · exact ⟨_, later, hhead, by decide⟩
    · exact ⟨_, later, hhead, by decide⟩
  | integer n =>
    cases hhead : Nat.toDigits 10 n.toNat with
    | nil => exact absurd hhead Nat.toDigits_ne_nil
    | cons first later =>
      have hdigit := isDigit_of_mem_toDigits n.toNat first (hhead ▸ List.mem_cons_self)
      have hname : isNameChar first := by simp [isNameChar, Char.isAlphanum, hdigit]
      exact ⟨first, later, hhead, isBlank_of_isNameChar hname⟩

/-- A name with its value is read back, up to the end of the line. -/
theorem readMember_write {name : String} (hbare : IsBare name) {value : Scalar}
    (hwritable : value.isWritable) (rest : List Char) :
    readMember (readValue depthLimit)
        (name.toList ++ ' ' :: '=' :: ' ' :: (value.write ++ '\n' :: rest)) =
      some ((⟨[], name⟩, value.toDatum), '\n' :: rest) := by
  obtain ⟨front, back, hvalue, hfront⟩ := value.write_head
  have hequals := skipBlanks_space_cons (c := '=') (by decide) (' ' :: (value.write ++ '\n' :: rest))
  have hskip : skipBlanks (' ' :: (value.write ++ '\n' :: rest)) = value.write ++ '\n' :: rest := by
    rw [hvalue]
    exact skipBlanks_space_cons hfront _
  have hparts : ∀ part ∈ (⟨[], name⟩ : Name).parts, IsBare part := by
    simpa [Name.parts] using hbare
  have hdepth : (⟨[], name⟩ : Name).parts.length ≤ depthLimit := Nat.succ_le_succ (Nat.zero_le 78)
  -- The name ends at the blank before the sign of equality.
  have hname := readName_write hparts hdepth (' ' :: '=' :: ' ' :: (value.write ++ '\n' :: rest))
    (by rintro _ ⟨⟩; decide) (by simp [hequals])
  rw [Name.write_last, hequals] at hname
  rw [readMember, hname]
  simp only [hskip, readValue_write hwritable depthLimit rest]
  rfl

/-- A line that sets a value is read as such. -/
theorem saysLine_value {entry : String × Scalar} (hbare : IsBare entry.1)
    (hwritable : entry.2.isWritable) :
    SaysLine (Section.writeValue entry) (.assign ⟨[], entry.1⟩ entry.2.toDatum) := by
  intro rest
  obtain ⟨name, value⟩ := entry
  obtain ⟨first, later, hhead, hfirst⟩ := hbare.exists_head
  have hassignment : Statement.readAssignment
      (name.toList ++ ' ' :: '=' :: ' ' :: (value.write ++ '\n' :: rest)) =
        some (.assign ⟨[], name⟩ value.toDatum, rest) := by
    rw [Statement.readAssignment, readMember_write hbare hwritable]
    rfl
  have hline : Section.writeValue (name, value) ++ rest =
      name.toList ++ ' ' :: '=' :: ' ' :: (value.write ++ '\n' :: rest) := by
    simp [Section.writeValue]
  -- A line that starts with the character of a name is an assignment.
  rw [hhead, List.cons_append] at hline hassignment
  rw [hline, read_name hfirst, hassignment]

/-! ## Texts of lines -/

/-- The text consists of lines that are read as the statements. -/
inductive Says : List Char → List Statement → Prop where
  | nothing : Says [] []
  | line {line text : List Char} {statement : Statement} {statements : List Statement}
      (hnonempty : line ≠ []) (hline : SaysLine line statement) (h : Says text statements) :
      Says (line ++ text) (statement :: statements)

namespace Says

variable {text : List Char} {statements : List Statement}

/-- A single line is a text. -/
theorem one {line : List Char} {statement : Statement} (hnonempty : line ≠ [])
    (hline : SaysLine line statement) : Says line [statement] := by
  have h := Says.line hnonempty hline .nothing
  rwa [List.append_nil] at h

/-- Texts of lines one after another are texts of lines. -/
theorem append {later : List Char} {following : List Statement} (h : Says text statements)
    (hlater : Says later following) : Says (text ++ later) (statements ++ following) := by
  induction h with
  | nothing => exact hlater
  | line hnonempty hline _ ih =>
    rw [List.append_assoc]
    exact .line hnonempty hline ih

/-- So are the texts that are written for the items of a list. -/
theorem flatMap {α : Type} {items : List α} {write : α → List Char} {say : α → List Statement}
    (h : ∀ item ∈ items, Says (write item) (say item)) :
    Says (items.flatMap write) (items.flatMap say) := by
  induction items with
  | nil => exact .nothing
  | cons item items ih =>
    rw [List.flatMap_cons, List.flatMap_cons]
    exact (h item List.mem_cons_self).append
      (ih fun item hitem => h item (List.mem_cons_of_mem _ hitem))

/-- There are no more lines than characters, so the bound on the lines does not get in the way. -/
theorem readAll (h : Says text statements) {fuel : Nat} (hfuel : text.length ≤ fuel) :
    Statement.readAll fuel text = some statements := by
  induction h generalizing fuel with
  | nothing => cases fuel <;> rfl
  | @line line text statement statements hnonempty hline h ih =>
    -- Every line takes one step and has a character.
    obtain ⟨first, others, rfl⟩ := List.exists_cons_of_ne_nil hnonempty
    rw [List.cons_append, List.length_cons, List.length_append] at hfuel
    cases fuel with
    | zero => omega
    | succ fuel =>
      have hread := hline text
      rw [List.cons_append] at hread ⊢
      rw [Statement.readAll, hread]
      · have hlater : text.length ≤ fuel := by omega
        simp only [ih hlater, Option.map_some]
      · rintro ⟨⟩

/-- No line starts with the mark of a byte order. -/
theorem head?_ne (h : Says text statements) : text.head? ≠ some '\ufeff' := by
  cases h with
  | nothing => rintro ⟨⟩
  | @line line text statement statements hnonempty hline h =>
    obtain ⟨first, others, rfl⟩ := List.exists_cons_of_ne_nil hnonempty
    rintro hfirst
    obtain rfl : first = '\ufeff' := Option.some.inj hfirst
    -- A line that starts with the mark would be read as nothing at all.
    have hread := hline text
    have hmark : Statement.read ('\ufeff' :: (others ++ text)) = none := rfl
    rw [List.cons_append, hmark] at hread
    cases hread

end Says

/-! ## Sections -/

/-- The name whose parts are given. -/
def Name.ofParts (first : String) (others : List String) : Name :=
  ⟨(first :: others).dropLast, (first :: others).getLast (List.cons_ne_nil first others)⟩

theorem Name.parts_ofParts (first : String) (others : List String) :
    (ofParts first others).parts = first :: others :=
  List.dropLast_append_getLast _

namespace Section

/-- What the header of a section says. -/
def headerStatements : List String → List Statement
  | [] => []
  | first :: others => [.nothing, .openTable (Name.ofParts first others)]

/-- What the lines of values say. -/
def valueStatements (values : List (String × Scalar)) : List Statement :=
  values.map fun entry => .assign ⟨[], entry.1⟩ entry.2.toDatum

/-- What the lines of a section say. -/
def statements (part : Section) : List Statement :=
  headerStatements part.path ++ valueStatements part.values

/-- A section that can be written: its names need no quotes, it is not too deep, and its integers fit. -/
structure WellFormed (part : Section) : Prop where
  path : ∀ name ∈ part.path, IsBare name
  depth : part.path.length ≤ depthLimit
  names : ∀ entry ∈ part.values, IsBare entry.1
  values : part.isWritable

theorem writeHeader_eq (first : String) (others : List String) :
    writeHeader (first :: others) =
      ['\n'] ++ ('[' :: (Name.ofParts first others).write ++ [']', '\n']) := by
  simp [writeHeader, Name.write, Name.parts_ofParts, String.toList_intercalate]

/-- A section is written as lines that say what it is. -/
theorem WellFormed.says_write {part : Section} (h : part.WellFormed) :
    Says part.write part.statements := by
  have hheader : Says (writeHeader part.path) (headerStatements part.path) := by
    have hbare := h.path
    have hdepth := h.depth
    -- The section at the top has no header.
    cases hpath : part.path with
    | nil => exact .nothing
    | cons first others =>
      rw [hpath, ← Name.parts_ofParts first others] at hbare hdepth
      rw [writeHeader_eq, headerStatements]
      exact .line (by simp) saysLine_blank (.one (by simp) (saysLine_header hbare hdepth))
  have hvalues : Says (part.values.flatMap writeValue) (valueStatements part.values) := by
    rw [valueStatements, List.map_eq_flatMap]
    refine .flatMap fun entry hentry => .one (by simp [writeValue]) ?_
    exact saysLine_value (h.names entry hentry) (List.all_eq_true.mp h.values entry hentry)
  exact hheader.append hvalues

/-! ### No carriage returns -/

/-- A carriage return is no character of names. -/
theorem return_not_mem_of_isBare {name : String} (h : IsBare name) : '\r' ∉ name.toList := by
  intro hmem
  obtain ⟨-, hchars⟩ := h
  exact absurd (hchars _ hmem) (by decide)

/-- Nor does a dotted name contain one. -/
theorem return_not_mem_name {name : Name} (h : ∀ part ∈ name.parts, IsBare part) :
    '\r' ∉ name.write := by
  obtain ⟨parents, last⟩ := name
  induction parents with
  | nil =>
    rw [Name.write_last]
    exact return_not_mem_of_isBare (h last (by simp [Name.parts]))
  | cons parent parents ih =>
    have hparent := return_not_mem_of_isBare (h parent List.mem_cons_self)
    have hrest := ih fun part hpart => h part (List.mem_cons_of_mem parent hpart)
    simp [Name.write_cons, hparent, hrest]

/-- Nor does a value, as texts are written without them. -/
theorem return_not_mem_scalar (value : Scalar) : '\r' ∉ value.write := by
  cases value with
  | text s => exact return_not_mem_writeText s.toList
  | integer n => exact not_mem_of_isDigit (isDigit_of_mem_toDigits n.toNat) (by decide)

/-- So a section is written without carriage returns. -/
theorem WellFormed.return_not_mem {part : Section} (h : part.WellFormed) : '\r' ∉ part.write := by
  have hheader : '\r' ∉ writeHeader part.path := by
    have hbare := h.path
    cases hpath : part.path with
    | nil => exact List.not_mem_nil
    | cons first others =>
      rw [hpath, ← Name.parts_ofParts first others] at hbare
      simp [writeHeader_eq, return_not_mem_name hbare]
  have hvalues : '\r' ∉ part.values.flatMap writeValue := fun hmem => by
    obtain ⟨entry, hentry, hwritten⟩ := List.mem_flatMap.mp hmem
    have hname := return_not_mem_of_isBare (h.names entry hentry)
    simp [writeValue, hname, return_not_mem_scalar] at hwritten
  simp [write, hheader, hvalues]

end Section

/-! ## Documents -/

/-- Line breaks without carriage returns stay as they are. -/
theorem unifyBreaks_eq_self {cs : List Char} (h : '\r' ∉ cs) : unifyBreaks cs = cs := by
  induction cs with
  | nil => rfl
  | cons c cs ih =>
    rw [List.mem_cons, not_or] at h
    obtain ⟨hfirst, hlater⟩ := h
    rw [unifyBreaks, ih hlater]
    exact fun _ hc => absurd hc.symm hfirst

/-- A document that is written as sections is read as what their lines say, one after another. -/
theorem readDocument_encode {parts : List Section} (h : ∀ part ∈ parts, part.WellFormed) :
    ∃ text, encode parts = .ok text ∧ readDocument text =
      ((parts.flatMap Section.statements).foldlM Draft.add Draft.blank).map (·.entries.toDatum) := by
  have hwhole : Says (parts.flatMap Section.write) (parts.flatMap Section.statements) :=
    .flatMap fun part hpart => (h part hpart).says_write
  have hwritable : parts.all Section.isWritable = true :=
    List.all_eq_true.mpr fun part hpart => (h part hpart).values
  have hreturn : '\r' ∉ parts.flatMap Section.write := fun hmem => by
    obtain ⟨part, hpart, hwritten⟩ := List.mem_flatMap.mp hmem
    exact (h part hpart).return_not_mem hwritten
  -- Neither a byte order mark is dropped nor a break changed, so the text is read as it was written.
  have hmark : dropByteOrderMark (parts.flatMap Section.write) = parts.flatMap Section.write := by
    rw [dropByteOrderMark]
    exact fun rest hcase => hwhole.head?_ne (by rw [hcase]; rfl)
  refine ⟨_, if_pos hwritable, ?_⟩
  rw [readDocument, String.toList_ofList, hmark, unifyBreaks_eq_self hreturn]
  simp only [hwhole.readAll (Nat.le_refl _)]

end Toml

end BridgeMint
