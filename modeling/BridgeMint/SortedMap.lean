/-!
# Finite maps in key order

Accounts, storage slots and scheduled migrations are kept in finite maps whose entries stand in
ascending order of their keys.  The entry list is strictly ascending by construction, so two maps
that answer every look-up alike are equal, and listing a map never shows in which order it was
filled.
-/

namespace BridgeMint

/-- A finite map, as the list of its entries in strictly ascending order of keys. -/
structure SortedMap (κ : Type u) (ν : Type v) [Ord κ] where
  entries : List (κ × ν)
  ascending : entries.Pairwise fun a b => compare a.1 b.1 = .lt

namespace SortedMap

variable {κ : Type u} {ν : Type v} [Ord κ]

/-! ## Entry lists -/

/-- Replaces or adds the entry for `key`, keeping the order. -/
def insertEntry (key : κ) (value : ν) : List (κ × ν) → List (κ × ν)
  | [] => [(key, value)]
  | entry :: rest =>
    match compare key entry.1 with
    | .lt => (key, value) :: entry :: rest
    | .eq => (key, value) :: rest
    | .gt => entry :: insertEntry key value rest

theorem mem_insertEntry {key : κ} {value : ν} {e : κ × ν} {l : List (κ × ν)}
    (h : e ∈ insertEntry key value l) : e = (key, value) ∨ e ∈ l := by
  induction l with
  | nil => simpa [insertEntry] using h
  | cons entry rest ih =>
    rw [insertEntry] at h
    split at h
    · simpa using h
    · rcases List.mem_cons.mp h with h | h
      · exact .inl h
      · exact .inr (List.mem_cons_of_mem _ h)
    · rcases List.mem_cons.mp h with h | h
      · exact .inr (h ▸ List.mem_cons_self)
      · exact (ih h).imp_right (List.mem_cons_of_mem _)

theorem pairwise_insertEntry [Std.TransOrd κ] [Std.LawfulEqOrd κ] (key : κ) (value : ν)
    {l : List (κ × ν)} (h : l.Pairwise fun a b => compare a.1 b.1 = .lt) :
    (insertEntry key value l).Pairwise fun a b => compare a.1 b.1 = .lt := by
  induction l with
  | nil => simp [insertEntry]
  | cons entry rest ih =>
    have hrest : ∀ e ∈ rest, compare entry.1 e.1 = .lt :=
      fun _ he => List.rel_of_pairwise_cons h he
    rw [insertEntry]
    -- A new entry comes before, takes the place of, or goes behind the first one.
    split
    · next hlt =>
      refine h.cons fun e he => ?_
      rcases List.mem_cons.mp he with rfl | he
      · exact hlt
      · exact Std.TransCmp.lt_trans hlt (hrest e he)
    · next heq =>
      refine h.of_cons.cons fun e he => ?_
      rw [Std.LawfulEqOrd.eq_of_compare heq]
      exact hrest e he
    · next hgt =>
      refine (ih h.of_cons).cons fun e he => ?_
      rcases mem_insertEntry he with rfl | he
      · exact Std.OrientedCmp.lt_of_gt hgt
      · exact hrest e he

/-! ## Maps -/

def empty : SortedMap κ ν := ⟨[], .nil⟩

instance : EmptyCollection (SortedMap κ ν) := ⟨empty⟩

instance : Inhabited (SortedMap κ ν) := ⟨empty⟩

theorem ext {m m' : SortedMap κ ν} (h : m.entries = m'.entries) : m = m' := by
  cases m; cases m'; cases h; rfl

instance [DecidableEq κ] [DecidableEq ν] : DecidableEq (SortedMap κ ν) := fun m m' =>
  if h : m.entries = m'.entries then .isTrue (ext h) else .isFalse fun e => h (e ▸ rfl)

def get? (m : SortedMap κ ν) (key : κ) : Option ν :=
  (m.entries.find? fun e => compare key e.1 == .eq).map (·.2)

def contains (m : SortedMap κ ν) (key : κ) : Bool :=
  (m.get? key).isSome

/-- Stores a value under a key, replacing the one that was there. -/
def insert [Std.TransOrd κ] [Std.LawfulEqOrd κ] (m : SortedMap κ ν) (key : κ) (value : ν) :
    SortedMap κ ν :=
  ⟨insertEntry key value m.entries, pairwise_insertEntry key value m.ascending⟩

/-- Removes the value under a key, if there is one. -/
def erase (m : SortedMap κ ν) (key : κ) : SortedMap κ ν :=
  ⟨m.entries.filter fun e => compare key e.1 != .eq, m.ascending.filter _⟩

/-- The keys, ascending. -/
def keys (m : SortedMap κ ν) : List κ :=
  m.entries.map (·.1)

def size (m : SortedMap κ ν) : Nat :=
  m.entries.length

def isEmpty (m : SortedMap κ ν) : Bool :=
  m.entries.isEmpty

end SortedMap

end BridgeMint
