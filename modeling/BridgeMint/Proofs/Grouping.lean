import Mathlib.Data.List.Count
import Mathlib.Data.List.Nodup
import Mathlib.Data.List.Perm.Basic

/-!
# Lists grouped by a key

Entries that are listed key by key can be picked out again, and lists that have the same entries of every
key have the same entries.
-/

namespace BridgeMint

variable {α : Type u} {β : Type v} [DecidableEq β]

/-- Of entries listed key by key, those of one key. -/
theorem filter_flatMap_key {key : α → β} {entriesOf : β → List α}
    (hentries : ∀ b, ∀ a ∈ entriesOf b, key a = b) {keys : List β} (hkeys : keys.Nodup) (b : β) :
    (keys.flatMap entriesOf).filter (key · = b) = if b ∈ keys then entriesOf b else [] := by
  -- By induction on the keys: the entries of the first one stand in front.
  induction keys with
  | nil => rfl
  | cons first rest ih =>
    obtain ⟨hfirst, hrest⟩ := List.nodup_cons.mp hkeys
    rw [List.flatMap_cons, List.filter_append, ih hrest]
    by_cases heq : b = first
    · -- The key comes once, so the entries of the rest have others.
      subst heq
      rw [if_neg hfirst, if_pos List.mem_cons_self, List.append_nil, List.filter_eq_self]
      intro a ha
      exact decide_eq_true (hentries b a ha)
    · -- The first key is another one, and so are those of its entries.
      have hnone : (entriesOf first).filter (key · = b) = [] := by
        rw [List.filter_eq_nil_iff]
        intro a ha hsame
        exact heq ((of_decide_eq_true hsame).symm.trans (hentries first a ha))
      rw [hnone, List.nil_append]
      simp only [List.mem_cons, heq, false_or]

/-- Lists that have the same entries of each key, in the same order, have the same entries. -/
theorem perm_of_filter_eq (key : α → β) {l l' : List α}
    (h : ∀ b, l.filter (key · = b) = l'.filter (key · = b)) : l.Perm l' := by
  classical
  rw [List.perm_iff_count]
  intro x
  -- All copies of an entry have its key, so they can be counted among the entries of this key.
  have hkey : decide (key x = key x) = true := decide_eq_true rfl
  rw [← List.count_filter (p := fun y => decide (key y = key x)) hkey, h,
    List.count_filter (p := fun y => decide (key y = key x)) hkey]

end BridgeMint
