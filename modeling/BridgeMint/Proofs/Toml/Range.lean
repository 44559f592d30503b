import BridgeMint.Proofs.Toml.Tree

/-!
# Integers read from TOML

Whatever a document says, its integers have sixty-three bits and a sign: numbers out of this range are
refused where they are read, and from then on values are only put into lists and tables.  Hence what
was read from a document can be written again.
-/

namespace BridgeMint

/-- Data whose integers have sixty-three bits and a sign. -/
inductive Datum.Fits : Datum → Prop where
  | null : Fits .null
  | truth (b : Bool) : Fits (.truth b)
  | integer {n : Int} (hlow : -2 ^ 63 ≤ n) (hhigh : n < 2 ^ 63) : Fits (.integer n)
  | float : Fits .float
  | text (s : String) : Fits (.text s)
  | moment : Fits .moment
  | list {items : List Datum} {intact : Bool} (h : ∀ d ∈ items, Fits d) : Fits (.list items intact)
  | table {members : List (String × Datum)} {intact : Bool} (h : ∀ m ∈ members, Fits m.2) :
      Fits (.table members intact)
  | broken : Fits .broken

namespace Toml

/-! ## Words -/

/-- What passes the check of the range is in it. -/
theorem inRange?_eq_some {n m : Int} (h : inRange? n = some m) : -2 ^ 63 ≤ m ∧ m < 2 ^ 63 := by
  rw [inRange?] at h
  split at h
  case isTrue hrange =>
    obtain rfl := Option.some.inj h
    omega
  case isFalse => cases h

/-- In every base, integers out of range are refused. -/
theorem integer?_eq_some {cs : List Char} {n : Int} (h : integer? cs = some n) :
    -2 ^ 63 ≤ n ∧ n < 2 ^ 63 := by
  unfold integer? at h
  split at h
  all_goals
    obtain ⟨digits, -, hrange⟩ := Option.bind_eq_some_iff.mp h
    exact inRange?_eq_some hrange

/-- Whatever a word stands for is in range. -/
theorem fits_word {cs : List Char} {d : Datum} (h : word? cs = some d) : d.Fits := by
  rw [word?] at h
  split at h
  case isTrue => cases h; exact .truth true
  split at h
  case isTrue => cases h; exact .truth false
  split at h
  case isTrue => cases h; exact .moment
  -- What is neither a truth value nor a moment is a number, and integers have been checked.
  rw [number?] at h
  split at h
  case h_1 n hinteger =>
    cases h
    obtain ⟨hlow, hhigh⟩ := integer?_eq_some hinteger
    exact .integer hlow hhigh
  case h_2 =>
    split at h
    · cases h
      exact .float
    · cases h

/-! ## Tables -/

/-- What every step of a fold that succeeds keeps holds at its end. -/
theorem foldlM_invariant {α β : Type} {P : β → Prop} {step : β → α → Option β} {items : List α}
    (hstep : ∀ b, ∀ item ∈ items, ∀ c, P b → step b item = some c → P c) {start result : β}
    (hstart : P start) (h : items.foldlM step start = some result) : P result := by
  induction items generalizing start with
  | nil =>
    obtain rfl := Option.some.inj h
    exact hstart
  | cons item items ih =>
    rw [List.foldlM_cons] at h
    obtain ⟨next, hnext, hrest⟩ := Option.bind_eq_some_iff.mp h
    exact ih (fun b other hother => hstep b other (List.mem_cons_of_mem item hother))
      (hstep start item List.mem_cons_self next hstart hnext) hrest

namespace Entries

/-- Entries whose integers have sixty-three bits and a sign. -/
def Fits (entries : Entries) : Prop :=
  ∀ entry ∈ entries, entry.2.toDatum.Fits

theorem rowsData_eq_map (rows : List Entries) : rowsData rows = rows.map toDatum := by
  induction rows with
  | nil => rw [rowsData, List.map_nil]
  | cons row rest ih => rw [rowsData, List.map_cons, ih, toDatum]

/-- A table is in range exactly if its entries are. -/
theorem fits_toDatum {entries : Entries} : entries.toDatum.Fits ↔ entries.Fits := by
  rw [toDatum, entriesData_eq_map]
  constructor
  · intro h entry hentry
    cases h with
    | table hmembers => exact hmembers _ (List.mem_map_of_mem hentry)
  · intro h
    refine .table fun member hmember => ?_
    obtain ⟨entry, hentry, rfl⟩ := List.mem_map.mp hmember
    exact h entry hentry

theorem fits_table {origin : Origin} {entries : Entries} :
    (Node.table origin entries).toDatum.Fits ↔ entries.Fits := by
  rw [Node.toDatum]
  exact fits_toDatum

/-- Rows are in range exactly if each of them is. -/
theorem fits_rows {rows : List Entries} :
    (Node.rows rows).toDatum.Fits ↔ ∀ row ∈ rows, row.Fits := by
  rw [Node.toDatum, rowsData_eq_map]
  constructor
  · intro h row hrow
    cases h with
    | list hitems =>
      exact fits_toDatum.mp (hitems _ (List.mem_reverse.mpr (List.mem_map_of_mem hrow)))
  · intro h
    refine .list fun d hd => ?_
    obtain ⟨row, hrow, rfl⟩ := List.mem_map.mp (List.mem_reverse.mp hd)
    exact fits_toDatum.mpr (h row hrow)

/-- Rows keep the range when the newest one is changed and keeps it. -/
theorem fits_newest {newest changed : Entries} {older : List Entries}
    (h : (Node.rows (newest :: older)).toDatum.Fits) (hchanged : newest.Fits → changed.Fits) :
    (Node.rows (changed :: older)).toDatum.Fits := by
  have hrows := fits_rows.mp h
  refine fits_rows.mpr fun row hrow => ?_
  rcases List.mem_cons.mp hrow with rfl | hrow
  · exact hchanged (hrows newest List.mem_cons_self)
  · exact hrows row (List.mem_cons_of_mem newest hrow)

theorem fits_nil : Fits [] :=
  List.forall_mem_nil _

theorem Fits.tail {entry : String × Node} {entries : Entries} (h : Fits (entry :: entries)) :
    Fits entries :=
  fun other hother => h other (List.mem_cons_of_mem entry hother)

/-- An entry in range may be put in front. -/
theorem Fits.cons {entry : String × Node} {entries : Entries} (hentry : entry.2.toDatum.Fits)
    (h : Fits entries) : Fits (entry :: entries) := by
  intro other hother
  rcases List.mem_cons.mp hother with rfl | hother
  · exact hentry
  · exact h other hother

/-- An entry in range may be put at the end. -/
theorem Fits.append {entries : Entries} {name : String} {node : Node} (h : entries.Fits)
    (hnode : node.toDatum.Fits) : Fits (entries ++ [(name, node)]) := by
  intro entry hentry
  rcases List.mem_append.mp hentry with hold | hnew
  · exact h entry hold
  · rw [List.mem_singleton.mp hnew]
    exact hnode

/-- A change keeps the range if what it puts under the name does. -/
theorem Fits.alter {name : String} {f : Option Node → Option Node} {entries result : Entries}
    (hentries : entries.Fits)
    (hf : ∀ node? node, (∀ old ∈ node?, old.toDatum.Fits) → f node? = some node → node.toDatum.Fits)
    (h : alter name f entries = some result) : result.Fits := by
  -- The entries before the name stay, and so do those after it.
  induction entries generalizing result with
  | nil =>
    obtain ⟨node, hnode, rfl⟩ := Option.map_eq_some_iff.mp h
    exact .cons (hf none node (by rintro _ ⟨⟩) hnode) fits_nil
  | cons entry rest ih =>
    obtain ⟨key, old⟩ := entry
    have hold : old.toDatum.Fits := hentries _ List.mem_cons_self
    rw [Entries.alter] at h
    split at h
    case isTrue =>
      obtain ⟨node, hnode, rfl⟩ := Option.map_eq_some_iff.mp h
      exact .cons (hf (some old) node (by rintro _ ⟨⟩; exact hold) hnode) hentries.tail
    case isFalse =>
      obtain ⟨changed, hchanged, rfl⟩ := Option.map_eq_some_iff.mp h
      exact .cons hold (ih hentries.tail hchanged)

/-- A change to a table keeps the range if it keeps that of every table. -/
theorem Fits.within {path : List String} {f : Entries → Option Entries}
    (hf : ∀ table result : Entries, table.Fits → f table = some result → result.Fits)
    {entries result : Entries} (hentries : entries.Fits)
    (h : within path f entries = some result) : result.Fits := by
  -- By induction on the path: every name leads into a table, into the newest of its rows, or into a new
  -- table.
  induction path generalizing entries result with
  | nil => exact hf entries result hentries h
  | cons name path ih =>
    refine hentries.alter (fun node? node hold hnode => ?_) h
    split at hnode
    case h_1 =>
      obtain ⟨table, htable, rfl⟩ := Option.map_eq_some_iff.mp hnode
      exact fits_table.mpr (ih fits_nil htable)
    case h_2 origin old =>
      obtain ⟨table, htable, rfl⟩ := Option.map_eq_some_iff.mp hnode
      exact fits_table.mpr (ih (fits_table.mp (hold _ rfl)) htable)
    case h_3 newest older =>
      obtain ⟨table, htable, rfl⟩ := Option.map_eq_some_iff.mp hnode
      exact fits_newest (hold _ rfl) fun hnewest => ih hnewest htable
    case h_4 => cases hnode

/-- Setting a value in range keeps the range. -/
theorem Fits.assign {parents : List String} {name : String} {d : Datum} (hd : d.Fits)
    {entries result : Entries} (hentries : entries.Fits)
    (h : assign parents name d entries = some result) : result.Fits := by
  -- Every part of the name goes one table deeper; the last one sets the value.
  induction parents generalizing entries result with
  | nil =>
    refine hentries.alter (fun node? node hold hnode => ?_) h
    split at hnode
    case h_1 => cases hnode; exact hd
    case h_2 => cases hnode
  | cons parent parents ih =>
    refine hentries.alter (fun node? node hold hnode => ?_) h
    split at hnode
    case h_1 =>
      obtain ⟨table, htable, rfl⟩ := Option.map_eq_some_iff.mp hnode
      exact fits_table.mpr (ih fits_nil htable)
    case h_2 => cases hnode
    case h_3 origin old _ =>
      split at hnode
      · cases hnode
      · obtain ⟨table, htable, rfl⟩ := Option.map_eq_some_iff.mp hnode
        exact fits_table.mpr (ih (fits_table.mp (hold _ rfl)) htable)
    case h_4 newest older =>
      split at hnode
      · cases hnode
      · obtain ⟨table, htable, rfl⟩ := Option.map_eq_some_iff.mp hnode
        exact fits_newest (hold _ rfl) fun hnewest => ih hnewest htable
    case h_5 => cases hnode

/-- Opening a table sets no value. -/
theorem Fits.openTable {name : Name} {entries result : Entries} (hentries : entries.Fits)
    (h : openTable name entries = some result) : result.Fits := by
  refine hentries.within (fun table result htable hresult => ?_) h
  split at hresult
  case h_1 =>
    obtain rfl := Option.some.inj hresult
    exact htable.append (fits_table.mpr fits_nil)
  case h_2 inner hlookup =>
    obtain rfl := Option.some.inj hresult
    -- A table that only the headers below it implied moves to the end when it is opened itself.
    obtain ⟨before, after, rfl, -⟩ := List.lookup_eq_some_iff.mp hlookup
    have hinner := htable (name.last, .table .implied inner) (by simp)
    refine Fits.append (fun entry hentry => ?_) (fits_table.mpr (fits_table.mp hinner))
    exact htable entry (List.mem_of_mem_filter hentry)
  case h_3 => cases hresult

/-- Nor does opening a row. -/
theorem Fits.openRow {name : Name} {entries result : Entries} (hentries : entries.Fits)
    (h : openRow name entries = some result) : result.Fits := by
  refine hentries.within (fun table result htable hresult => ?_) h
  -- The row is opened in the table that the rest of the name leads to: as the first one, or after those
  -- there are.
  refine htable.alter (fun node? node hold hnode => ?_) hresult
  split at hnode
  case h_1 =>
    obtain rfl := Option.some.inj hnode
    exact fits_rows.mpr fun row hrow => List.mem_singleton.mp hrow ▸ fits_nil
  case h_2 rows =>
    obtain rfl := Option.some.inj hnode
    have hrows := fits_rows.mp (hold _ rfl)
    refine fits_rows.mpr fun row hrow => ?_
    rcases List.mem_cons.mp hrow with rfl | hrow
    · exact fits_nil
    · exact hrows row hrow
  case h_3 => cases hnode

theorem Fits.ofMembers? {members : List (Name × Datum)} (hmembers : ∀ m ∈ members, m.2.Fits)
    {result : Entries} (h : ofMembers? members = some result) : result.Fits :=
  foldlM_invariant (P := Fits)
    (fun _ m hm _ hentries hstep => hentries.assign (hmembers m hm) hstep) fits_nil h

end Entries

/-! ## Values -/

/-- Every result of the reader has the property. -/
def Yields {α : Type} (P : α → Prop) (read : List Char → Option (α × List Char)) : Prop :=
  ∀ cs a rest, read cs = some (a, rest) → P a

/-- Words are in range. -/
theorem yields_readWord : Yields Datum.Fits readWord := by
  intro cs d rest h
  rw [readWord] at h
  dsimp only at h
  split at h
  case h_1 =>
    split at h
    case isTrue =>
      split at h
      · cases h
        exact .moment
      · cases h
    case isFalse =>
      -- No time follows, so this is a word like any other.
      obtain ⟨value, hvalue, hpair⟩ := Option.map_eq_some_iff.mp h
      cases hpair
      exact fits_word hvalue
  case h_2 =>
    obtain ⟨value, hvalue, hpair⟩ := Option.map_eq_some_iff.mp h
    cases hpair
    exact fits_word hvalue

section

variable {readValue : ValueReader} (hvalue : Yields Datum.Fits readValue)

include hvalue

/-- Items are in range if the values are. -/
theorem yields_readItems (fuel : Nat) :
    Yields (fun items => ∀ d ∈ items, Datum.Fits d) (readItems readValue fuel) := by
  induction fuel with
  | zero => rintro _ _ _ ⟨⟩
  | succ fuel ih =>
    intro cs items rest h
    rw [readItems] at h
    split at h
    case h_1 =>
      cases h
      exact List.forall_mem_nil _
    case h_2 =>
      split at h
      case h_1 => cases h
      case h_2 item after hread =>
        -- The item itself is in range, and after a comma the others are by induction.
        have hitem : item.Fits := hvalue _ item after hread
        split at h
        case h_1 =>
          obtain ⟨⟨others, _⟩, hothers, hpair⟩ := Option.map_eq_some_iff.mp h
          cases hpair
          exact List.forall_mem_cons.mpr ⟨hitem, ih _ others _ hothers⟩
        case h_2 =>
          cases h
          exact List.forall_mem_singleton.mpr hitem
        case h_3 => cases h

/-- A member is in range if its value is. -/
theorem yields_readMember : Yields (fun member => member.2.Fits) (readMember readValue) := by
  intro cs member rest h
  rw [readMember] at h
  split at h
  case h_1 name after hname =>
    split at h
    case h_1 => cases h
    case h_2 value after hread =>
      cases h
      exact hvalue _ value _ hread
  case h_2 => cases h

/-- So are members one after another. -/
theorem yields_readMembers (fuel : Nat) :
    Yields (fun members => ∀ member ∈ members, member.2.Fits) (readMembers readValue fuel) := by
  induction fuel with
  | zero => rintro _ _ _ ⟨⟩
  | succ fuel ih =>
    intro cs members rest h
    rw [readMembers] at h
    split at h
    case h_1 => cases h
    case h_2 member after hread =>
      -- A comma follows, and the others are by induction.
      obtain ⟨⟨others, _⟩, hothers, hpair⟩ := Option.map_eq_some_iff.mp h
      cases hpair
      exact List.forall_mem_cons.mpr ⟨yields_readMember hvalue _ member _ hread, ih _ others _ hothers⟩
    case h_3 member after hread =>
      cases h
      exact List.forall_mem_singleton.mpr (yields_readMember hvalue _ member _ hread)
    case h_4 => cases h

/-- So is a table on one line. -/
theorem yields_readTable : Yields Datum.Fits (readTable readValue) := by
  intro cs d rest h
  rw [readTable] at h
  split at h
  case h_1 =>
    cases h
    exact .table (List.forall_mem_nil _)
  case h_2 =>
    split at h
    case h_1 => cases h
    case h_2 members _ hmembers =>
      obtain ⟨entries, hentries, hpair⟩ := Option.map_eq_some_iff.mp h
      cases hpair
      -- The members are in range, so the table they are set in is.
      exact Entries.fits_toDatum.mpr
        (.ofMembers? (yields_readMembers hvalue _ _ members _ hmembers) hentries)

end

/-- Values are in range, however deep they are. -/
theorem yields_readValue (depth : Nat) : Yields Datum.Fits (readValue depth) := by
  induction depth using Nat.strongRecOn with
  | _ depth ih =>
    intro cs d rest h
    -- Lists and tables contain values of less depth, for which it is known.
    unfold readValue at h
    split at h
    case h_1 | h_2 =>
      obtain ⟨_, -, hpair⟩ := Option.map_eq_some_iff.mp h
      cases hpair
      exact .text _
    case h_3 | h_4 => cases h
    case h_5 =>
      obtain ⟨⟨items, _⟩, hitems, hpair⟩ := Option.map_eq_some_iff.mp h
      cases hpair
      exact .list (yields_readItems (ih _ (Nat.lt_succ_self _)) _ _ items _ hitems)
    case h_6 => exact yields_readTable (ih _ (Nat.lt_succ_self _)) _ d rest h
    case h_7 => exact yields_readWord _ d rest h

/-! ## Documents -/

/-- The value that a statement sets, if it sets one, is in range. -/
def Statement.Fits : Statement → Prop
  | .assign _ d => d.Fits
  | _ => True

/-- A header sets no value. -/
theorem yields_readHeader (closing : List Char) (make : Name → Statement)
    (hmake : ∀ name, (make name).Fits) : Yields Statement.Fits (Statement.readHeader closing make) := by
  intro cs statement rest h
  rw [Statement.readHeader] at h
  split at h
  case h_1 => cases h
  case h_2 name after _ =>
    split at h
    · obtain ⟨_, -, hpair⟩ := Option.map_eq_some_iff.mp h
      cases hpair
      exact hmake name
    · cases h

/-- Whatever a line says is in range. -/
theorem yields_read : Yields Statement.Fits Statement.read := by
  intro cs statement rest h
  rw [Statement.read] at h
  split at h
  case h_1 =>
    cases h
    trivial
  case h_2 =>
    split at h
    -- The two kinds of header carry no data.
    case h_1 => exact yields_readHeader _ .openRow (fun _ => trivial) _ statement rest h
    case h_2 => exact yields_readHeader _ .openTable (fun _ => trivial) _ statement rest h
    case h_3 =>
      rw [Statement.readAssignment] at h
      split at h
      case h_1 => cases h
      case h_2 name value after hmember =>
        obtain ⟨_, -, hpair⟩ := Option.map_eq_some_iff.mp h
        cases hpair
        exact yields_readMember (yields_readValue depthLimit) _ (name, value) after hmember

/-- Whatever all lines say is in range. -/
theorem fits_readAll {fuel : Nat} {cs : List Char} {statements : List Statement}
    (h : Statement.readAll fuel cs = some statements) : ∀ statement ∈ statements, statement.Fits := by
  fun_induction Statement.readAll fuel cs generalizing statements with
  | case1 =>
    cases h
    exact List.forall_mem_nil _
  | case2 | case3 => cases h
  | case4 fuel cs _ statement rest hread ih =>
    obtain ⟨others, hothers, rfl⟩ := Option.map_eq_some_iff.mp h
    exact List.forall_mem_cons.mpr ⟨yields_read cs statement rest hread, ih hothers⟩

/-- Every statement keeps the range of what has been read. -/
theorem Draft.fits_add {draft next : Draft} {statement : Statement} (hstatement : statement.Fits)
    (hdraft : draft.entries.Fits) (h : draft.add statement = some next) : next.entries.Fits := by
  cases statement with
  | nothing =>
    cases h
    exact hdraft
  -- The other statements change the entries, in ways that have been looked at.
  | openTable name =>
    obtain ⟨entries, hentries, rfl⟩ := Option.map_eq_some_iff.mp h
    exact hdraft.openTable hentries
  | openRow name =>
    obtain ⟨entries, hentries, rfl⟩ := Option.map_eq_some_iff.mp h
    exact hdraft.openRow hentries
  | assign name value =>
    obtain ⟨entries, hentries, rfl⟩ := Option.map_eq_some_iff.mp h
    exact hdraft.within (fun _ _ htable hset => htable.assign hstatement hset) hentries

/-- The integers of every document have sixty-three bits and a sign. -/
theorem fits_readDocument {text : String} {d : Datum} (h : readDocument text = some d) : d.Fits := by
  rw [readDocument] at h
  split at h
  case h_1 => cases h
  case h_2 statements hstatements =>
    obtain ⟨draft, hdraft, rfl⟩ := Option.map_eq_some_iff.mp h
    refine Entries.fits_toDatum.mpr (foldlM_invariant (P := fun draft : Draft => draft.entries.Fits)
      (fun _ statement hmem _ hold hstep => Draft.fits_add ?_ hold hstep) Entries.fits_nil hdraft)
    exact fits_readAll hstatements statement hmem

end Toml

end BridgeMint
