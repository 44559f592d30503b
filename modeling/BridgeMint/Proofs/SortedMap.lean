import BridgeMint.SortedMap
import Mathlib.Algebra.Order.BigOperators.Group.List
import Mathlib.Algebra.Order.Group.Nat
import Mathlib.Algebra.Ring.Nat
import Mathlib.Data.List.Pairwise

/-!
# Look-ups and sums over finite maps

What a look-up answers after a value was stored or removed, that a map is determined by its look-ups,
and how the sum of a quantity over all values changes with one of them.
-/

namespace BridgeMint

namespace SortedMap

variable {κ : Type u} {ν : Type v} [Ord κ]

/-! ## Entry lists -/

/-- Look-up in a list of entries, as `SortedMap.get?` does it. -/
def lookup (key : κ) (l : List (κ × ν)) : Option ν :=
  (l.find? fun e => compare key e.1 == .eq).map (·.2)

@[simp] theorem lookup_nil (key : κ) : lookup key ([] : List (κ × ν)) = none := rfl

theorem lookup_cons (key : κ) (e : κ × ν) (l : List (κ × ν)) :
    lookup key (e :: l) = if compare key e.1 = .eq then some e.2 else lookup key l := by
  cases h : compare key e.1 <;> simp [lookup, h]

/-- Below the first key of an ascending list nothing is found. -/
theorem lookup_eq_none_of_lt {key : κ} {l : List (κ × ν)}
    (h : ∀ e ∈ l, compare key e.1 = .lt) : lookup key l = none := by
  induction l with
  | nil => rfl
  | cons e l ih =>
    rw [lookup_cons, h e List.mem_cons_self]
    exact ih fun e' he' => h e' (List.mem_cons_of_mem _ he')

/-! ## Views of a map -/

@[simp] theorem get?_empty (key : κ) : (empty : SortedMap κ ν).get? key = none := rfl

/-- The map with every value replaced by what a function makes of it. -/
def map {μ : Type w} (f : ν → μ) (m : SortedMap κ ν) : SortedMap κ μ :=
  ⟨m.entries.map fun e => (e.1, f e.2), List.pairwise_map.mpr m.ascending⟩

theorem get?_map {μ : Type w} (f : ν → μ) (m : SortedMap κ ν) (key : κ) :
    (m.map f).get? key = (m.get? key).map f := by
  simp only [get?, map, List.find?_map, Option.map_map]
  rfl

/-- The sum of a quantity over all values. -/
def sumOf (f : ν → Nat) (m : SortedMap κ ν) : Nat :=
  (m.entries.map fun e => f e.2).sum

/-! ## Lawful orders -/

section Lawful

variable [Std.LawfulEqOrd κ]

/-- A stored value is found under its key, and what is found under other keys stays. -/
theorem lookup_insertEntry [DecidableEq κ] (key key' : κ) (value : ν) (l : List (κ × ν)) :
    lookup key' (insertEntry key value l) = if key' = key then some value else lookup key' l := by
  induction l with
  | nil => simp [insertEntry, lookup_cons]
  | cons e l ih =>
    rw [insertEntry]
    split
    · simp [lookup_cons]
    · next heq =>
      -- The entry found has the same key, so the one replaced answers no other look-up.
      have hkey : key = e.1 := Std.LawfulEqOrd.eq_of_compare heq
      simp only [lookup_cons, Std.LawfulEqOrd.compare_eq_iff_eq, ← hkey]
      split <;> rfl
    · next hgt =>
      simp only [lookup_cons, ih, Std.LawfulEqOrd.compare_eq_iff_eq]
      -- The key belongs further down, so it is not that of this entry.
      by_cases hkey : key' = e.1
      · have hne : key' ≠ key := by
          rintro rfl
          rw [hkey, Std.ReflOrd.compare_self] at hgt
          cases hgt
        simp [hkey, hkey ▸ hne]
      · simp [hkey]

/-- A key that was removed is not found, and what is found under other keys stays. -/
theorem lookup_filter [DecidableEq κ] (key key' : κ) (l : List (κ × ν)) :
    lookup key' (l.filter fun e => compare key e.1 != .eq) =
      if key' = key then none else lookup key' l := by
  induction l with
  | nil => simp
  | cons e l ih =>
    rw [List.filter_cons]
    by_cases hkey : key = e.1
    · -- This entry is removed.
      subst hkey
      simp only [Std.ReflOrd.compare_self, lookup_cons, Std.LawfulEqOrd.compare_eq_iff_eq]
      simp only [bne_self_eq_false, Bool.false_eq_true, if_false, ih]
      split <;> rfl
    · have hne : compare key e.1 ≠ .eq := fun h => hkey (Std.LawfulEqOrd.eq_of_compare h)
      simp only [bne_iff_ne, ne_eq, hne, not_false_eq_true, if_true, lookup_cons, ih,
        Std.LawfulEqOrd.compare_eq_iff_eq]
      by_cases hkey' : key' = e.1
      · simp [hkey', Ne.symm hkey]
      · simp [hkey']

/-- In an ascending list an entry is found under its key. -/
theorem mem_iff_lookup {l : List (κ × ν)} (h : l.Pairwise fun a b => compare a.1 b.1 = .lt)
    (e : κ × ν) : e ∈ l ↔ lookup e.1 l = some e.2 := by
  induction l with
  | nil => simp
  | cons d l ih =>
    have hd : ∀ e' ∈ l, compare d.1 e'.1 = .lt := fun _ he' => List.rel_of_pairwise_cons h he'
    rw [List.mem_cons, lookup_cons, ih h.of_cons]
    by_cases hkey : e.1 = d.1
    · -- No other entry has the key of the first one, so the rest answers nothing for it.
      have hnone : lookup d.1 l = none := lookup_eq_none_of_lt hd
      simp only [hkey, hnone, Std.ReflOrd.compare_self, if_true, Option.some.injEq, reduceCtorEq,
        or_false]
      exact ⟨fun he => he ▸ rfl, fun he => Prod.ext hkey he.symm⟩
    · have hne : e ≠ d := fun he => hkey (he ▸ rfl)
      simp [hkey, hne]

theorem get?_erase [DecidableEq κ] (m : SortedMap κ ν) (key key' : κ) :
    (m.erase key).get? key' = if key' = key then none else m.get? key' :=
  lookup_filter key key' m.entries

theorem mem_entries (m : SortedMap κ ν) (e : κ × ν) : e ∈ m.entries ↔ m.get? e.1 = some e.2 :=
  mem_iff_lookup m.ascending e

end Lawful

variable [Std.TransOrd κ]

/-- Storing a value changes the sum over an ascending list by the new value's share less that of the
value it replaces. -/
theorem sum_insertEntry (f : ν → Nat) (key : κ) (value : ν) {l : List (κ × ν)}
    (h : l.Pairwise fun a b => compare a.1 b.1 = .lt) :
    ((insertEntry key value l).map fun e => f e.2).sum + ((lookup key l).map f).getD 0 =
      (l.map fun e => f e.2).sum + f value := by
  induction l with
  | nil => simp [insertEntry]
  | cons e l ih =>
    have he : ∀ e' ∈ l, compare e.1 e'.1 = .lt := fun _ he' => List.rel_of_pairwise_cons h he'
    rw [insertEntry, lookup_cons]
    split
    · next hlt =>
      -- The key comes before all others and is new.
      have hnone : lookup key l = none :=
        lookup_eq_none_of_lt fun e' he' => Std.TransCmp.lt_trans hlt (he e' he')
      simp [hlt, hnone]
      omega
    · next heq =>
      simp [heq]
      omega
    · next hgt =>
      have := ih h.of_cons
      simp only [hgt, reduceCtorEq, if_false, List.map_cons, List.sum_cons]
      omega

variable [Std.LawfulEqOrd κ]

theorem get?_insert [DecidableEq κ] (m : SortedMap κ ν) (key key' : κ) (value : ν) :
    (m.insert key value).get? key' = if key' = key then some value else m.get? key' :=
  lookup_insertEntry key key' value m.entries

/-- A map is determined by its look-ups. -/
theorem ext_get? {m m' : SortedMap κ ν} (h : ∀ key, m.get? key = m'.get? key) : m = m' := by
  have hmem : ∀ e, e ∈ m.entries ↔ e ∈ m'.entries := fun e => by
    rw [mem_entries, mem_entries, h]
  -- Both entry lists are sorted and have the same members.
  have hnodup : ∀ n : SortedMap κ ν, n.entries.Nodup := fun n => by
    refine n.ascending.imp fun {a b} hab => ?_
    rintro rfl
    rw [Std.ReflOrd.compare_self] at hab
    cases hab
  have hperm : m.entries.Perm m'.entries :=
    (List.perm_ext_iff_of_nodup (hnodup m) (hnodup m')).mpr hmem
  refine ext (hperm.eq_of_pairwise (fun a b _ _ hab hba => ?_) m.ascending m'.ascending)
  -- An order has no two keys each of which comes before the other.
  rw [Std.OrientedOrd.eq_swap, hba] at hab
  cases hab

/-- Storing a value changes the sum by the new value's share less that of the value it replaces. -/
theorem sumOf_insert (f : ν → Nat) (m : SortedMap κ ν) (key : κ) (value : ν) :
    (m.insert key value).sumOf f + ((m.get? key).map f).getD 0 = m.sumOf f + f value :=
  sum_insertEntry f key value m.ascending

/-- The sum is determined by what look-ups contribute to it. -/
theorem sumOf_congr {f : ν → Nat} {m m' : SortedMap κ ν}
    (h : ∀ key, (m.get? key).map f = (m'.get? key).map f) : m.sumOf f = m'.sumOf f := by
  -- The maps of what is summed up are equal, since their look-ups are.
  have hmap : m.map f = m'.map f := ext_get? fun key => by rw [get?_map, get?_map, h]
  have hsum : ∀ n : SortedMap κ ν, n.sumOf f = ((n.map f).entries.map (·.2)).sum := fun n => by
    simp [sumOf, map, Function.comp_def]
  rw [hsum, hsum, hmap]

omit [Std.TransOrd κ] in
theorem le_sumOf (f : ν → Nat) {m : SortedMap κ ν} {key : κ} {value : ν}
    (h : m.get? key = some value) : f value ≤ m.sumOf f := by
  have hmem : (key, value) ∈ m.entries := (mem_entries m (key, value)).mpr h
  exact List.le_sum_of_mem (List.mem_map_of_mem (f := fun e => f e.2) hmem)

end SortedMap

end BridgeMint
