import BridgeMint.Proofs.Gas

/-!
# Meters in use

A meter is charged over and over, and it may be exhausted.  The amounts come from schedules and executors
and may be any 64-bit numbers, so that even their sum with what has been used need not fit.  A meter counts
as the integers do nevertheless.  A charge is refused exactly if it would pass the limit, and it is then as
if it had not been tried.  What has been used is the sum of the charges that were accepted, or the whole
limit once the meter was exhausted.
-/

namespace BridgeMint

namespace GasMeter

/-! ## Uses of a meter -/

/-- What can be done with a meter. -/
inductive Use where
  | charge (amount : UInt64)
  | exhaust
  deriving DecidableEq

/-- Makes use of a meter: why it is refused, if it is, and the meter after it. -/
def perform (meter : GasMeter) : Use → Option CallError × GasMeter
  | .charge amount =>
    match meter.charge amount with
    | .ok charged => (none, charged)
    | .error cause => (some cause, meter)
  | .exhaust => (none, meter.exhaust)

/-- The meter after uses that are made one after another. -/
def performAll (meter : GasMeter) (uses : List Use) : GasMeter :=
  uses.foldl (fun meter use => (meter.perform use).2) meter

/-- Those of the uses that are not refused. -/
def accepted (meter : GasMeter) : List Use → List Use
  | [] => []
  | use :: rest =>
    let (refusal, next) := meter.perform use
    if refusal.isNone then use :: next.accepted rest else next.accepted rest

/-- The amount of a charge. -/
def Use.amount? : Use → Option UInt64
  | .charge amount => some amount
  | .exhaust => none

/-- The sum of all charges among the uses, as an integer. -/
def Use.total (uses : List Use) : Nat :=
  ((uses.filterMap Use.amount?).map UInt64.toNat).sum

variable {meter : GasMeter} {amount : UInt64} {use : Use} {uses : List Use}

/-! ## One use -/

theorem perform_charge_of_le (h : meter.used.toNat + amount.toNat ≤ meter.limit.toNat) :
    meter.perform (.charge amount) = (none, { meter with used := meter.used + amount }) := by
  rw [perform, charge_of_le h]

theorem perform_charge_of_lt (h : meter.limit.toNat < meter.used.toNat + amount.toNat) :
    meter.perform (.charge amount) =
      (some (.outOfGas (UInt64.saturatingAdd meter.used amount) meter.limit), meter) := by
  rw [perform, charge_of_lt h]

/-- All that a use can come to. -/
theorem perform_cases (meter : GasMeter) (use : Use) :
    (∃ amount, use = .charge amount ∧ meter.used.toNat + amount.toNat ≤ meter.limit.toNat ∧
        meter.perform use = (none, { meter with used := meter.used + amount })) ∨
      (∃ amount, use = .charge amount ∧ meter.limit.toNat < meter.used.toNat + amount.toNat ∧
        meter.perform use =
          (some (.outOfGas (UInt64.saturatingAdd meter.used amount) meter.limit), meter)) ∨
      (use = .exhaust ∧ meter.perform use = (none, meter.exhaust)) := by
  cases use with
  | charge amount =>
    rcases Nat.lt_or_ge meter.limit.toNat (meter.used.toNat + amount.toNat) with hover | hfits
    · exact .inr (.inl ⟨amount, rfl, hover, perform_charge_of_lt hover⟩)
    · exact .inl ⟨amount, rfl, hfits, perform_charge_of_le hfits⟩
  | exhaust => exact .inr (.inr ⟨rfl, rfl⟩)

/-- A charge is accepted exactly if it does not pass the limit, as a sum of integers. -/
theorem perform_charge_fst_eq_none :
    (meter.perform (.charge amount)).1 = none ↔
      meter.used.toNat + amount.toNat ≤ meter.limit.toNat := by
  rcases Nat.lt_or_ge meter.limit.toNat (meter.used.toNat + amount.toNat) with hover | hfits
  · simp only [perform_charge_of_lt hover, reduceCtorEq, false_iff, Nat.not_le]
    exact hover
  · simp only [perform_charge_of_le hfits, true_iff]
    exact hfits

/-- A refused use leaves the meter as it was. -/
theorem perform_snd_of_refused {cause : CallError} (h : (meter.perform use).1 = some cause) :
    (meter.perform use).2 = meter := by
  rcases meter.perform_cases use with ⟨_, -, -, hdone⟩ | ⟨_, -, -, hrefused⟩ | ⟨-, hdone⟩
  · rw [hdone] at h
    cases h
  · rw [hrefused]
  · rw [hdone] at h
    cases h

/-- No use passes the limit. -/
theorem Within.perform {limit : UInt64} (h : meter.Within limit) (use : Use) :
    (meter.perform use).2.Within limit := by
  rcases meter.perform_cases use with ⟨amount, -, hle, hdone⟩ | ⟨_, -, -, hrefused⟩ | ⟨-, hdone⟩
  · rw [hdone]
    exact h.charge (charge_of_le hle)
  · rw [hrefused]
    exact h
  · rw [hdone]
    exact h.exhaust

/-- A meter that has reached its limit stays as it is. -/
theorem perform_of_used_eq_limit (h : meter.used = meter.limit) (use : Use) :
    (meter.perform use).2 = meter := by
  rcases meter.perform_cases use with ⟨amount, -, hle, hdone⟩ | ⟨_, -, -, hrefused⟩ | ⟨-, hdone⟩
  · -- Only a charge of nothing fits.
    have hzero : amount = 0 := by
      rw [h] at hle
      exact UInt64.toNat_inj.mp (Nat.le_zero.mp (by omega))
    rw [hdone, hzero, UInt64.add_zero]
  · rw [hrefused]
  · rw [hdone]
    exact congrArg (GasMeter.mk meter.limit) h.symm

/-! ## Many uses -/

@[simp] theorem performAll_nil : meter.performAll [] = meter := rfl

@[simp] theorem performAll_cons :
    meter.performAll (use :: uses) = (meter.perform use).2.performAll uses := rfl

theorem performAll_append (before after : List Use) :
    meter.performAll (before ++ after) = (meter.performAll before).performAll after :=
  List.foldl_append

theorem accepted_cons_of_done (h : (meter.perform use).1 = none) :
    meter.accepted (use :: uses) = use :: (meter.perform use).2.accepted uses := by
  simp only [accepted, h, Option.isNone_none, if_true]

theorem accepted_cons_of_refused {cause : CallError} (h : (meter.perform use).1 = some cause) :
    meter.accepted (use :: uses) = meter.accepted uses := by
  simp only [accepted, h, Option.isNone_some, Bool.false_eq_true, if_false,
    perform_snd_of_refused h]

/-- No list of uses passes the limit. -/
theorem Within.performAll {limit : UInt64} (h : meter.Within limit) (uses : List Use) :
    (meter.performAll uses).Within limit := by
  induction uses generalizing meter with
  | nil => exact h
  | cons use uses ih => exact ih (h.perform use)

/-- Refused uses make no difference: without them the meter comes to the same. -/
theorem performAll_accepted (meter : GasMeter) (uses : List Use) :
    meter.performAll (meter.accepted uses) = meter.performAll uses := by
  induction uses generalizing meter with
  | nil => rfl
  | cons use uses ih =>
    cases hrefusal : (meter.perform use).1 with
    | none => rw [accepted_cons_of_done hrefusal, performAll_cons, performAll_cons, ih]
    | some cause =>
      -- Left out on one side, the use changes nothing on the other.
      rw [accepted_cons_of_refused hrefusal, performAll_cons, perform_snd_of_refused hrefusal, ih]

theorem Use.total_charge_cons : Use.total (.charge amount :: uses) = amount.toNat + Use.total uses :=
  rfl

/-- As long as a meter is not exhausted, it counts up by the sum of what it accepts. -/
theorem toNat_used_performAll (hexhaust : .exhaust ∉ uses) :
    (meter.performAll uses).used.toNat =
      meter.used.toNat + Use.total (meter.accepted uses) := by
  -- The induction is on the uses, from whatever the meter has counted before.
  induction uses generalizing meter with
  | nil => rfl
  | cons use uses ih =>
    have hrest : .exhaust ∉ uses := fun hmem => hexhaust (List.mem_cons_of_mem _ hmem)
    rcases meter.perform_cases use with ⟨amount, rfl, hle, hdone⟩ | ⟨_, rfl, -, hrefused⟩ | ⟨rfl, -⟩
    · -- The amount is added exactly, and the rest goes on from there.
      have hcounted := toNat_used_of_charge (charge_of_le hle)
      rw [accepted_cons_of_done (by rw [hdone]), performAll_cons, hdone, ih hrest, hcounted,
        Use.total_charge_cons, Nat.add_assoc]
    · rw [accepted_cons_of_refused (by rw [hrefused]), performAll_cons, hrefused, ih hrest]
    · exact absurd List.mem_cons_self hexhaust

/-- A meter that has reached its limit stays as it is, whatever is tried. -/
theorem performAll_of_used_eq_limit (h : meter.used = meter.limit) (uses : List Use) :
    meter.performAll uses = meter := by
  induction uses with
  | nil => rfl
  | cons use uses ih => rw [performAll_cons, perform_of_used_eq_limit h, ih]

/-- Once a meter was exhausted, its limit is used up. -/
theorem used_performAll_of_exhaust (hexhaust : .exhaust ∈ uses) :
    (meter.performAll uses).used = (meter.performAll uses).limit := by
  obtain ⟨before, after, rfl⟩ := List.append_of_mem hexhaust
  -- Nothing after the exhaustion changes the meter any more.
  have hafter : meter.performAll (before ++ .exhaust :: after) = (meter.performAll before).exhaust := by
    rw [performAll_append, performAll_cons]
    exact performAll_of_used_eq_limit rfl after
  rw [hafter]
  rfl

/-- A meter counts as the integers do, whatever is done with it.  It keeps its limit and never passes it, so
that what is left and what is used make up the limit.  A charge succeeds exactly if it does not pass the
limit; else the meter stays as it was, and told is how much would have been used, or the greatest number if
that is less, and so without the refused uses the meter comes to the same.  As long as it is not exhausted,
what is used is the sum of what was accepted; once it was, only charges of nothing succeed. -/
theorem performAll_start (limit : UInt64) (uses : List Use) :
    let meter := (start limit).performAll uses
    let accepted := (start limit).accepted uses
    (meter.limit = limit ∧ meter.used ≤ limit ∧
      meter.used.toNat + meter.remaining.toNat = limit.toNat) ∧
    (∀ amount, (meter.perform (.charge amount)).1 = none ↔
      meter.used.toNat + amount.toNat ≤ limit.toNat) ∧
    (∀ amount, limit.toNat < meter.used.toNat + amount.toNat →
      ∃ reported, meter.perform (.charge amount) = (some (.outOfGas reported limit), meter) ∧
        reported.toNat = min (2 ^ 64 - 1) (meter.used.toNat + amount.toNat)) ∧
    (start limit).performAll accepted = meter ∧
    (.exhaust ∉ uses → meter.used.toNat = Use.total accepted) ∧
    (.exhaust ∈ uses → meter.used = limit ∧
      ∀ amount, (meter.perform (.charge amount)).1 = none ↔ amount = 0) := by
  intro meter accepted
  have hwithin : meter.Within limit := (within_start limit).performAll uses
  obtain ⟨hlimit, hused⟩ : meter.limit = limit ∧ meter.used ≤ limit := id hwithin
  refine ⟨⟨hlimit, hused, ?adds⟩, fun amount => ?fits, fun amount hover => ?refused,
    performAll_accepted _ uses, fun hexhaust => ?sum, fun hexhaust => ?spent⟩
  case adds =>
    rw [Nat.add_comm]
    exact hwithin.remaining_add_used
  case fits =>
    rw [← hlimit]
    exact perform_charge_fst_eq_none
  case refused =>
    -- The sum that is reported stops at the greatest number.
    refine ⟨_, ?_, UInt64.toNat_saturatingAdd _ _⟩
    rw [← hlimit] at hover ⊢
    exact perform_charge_of_lt hover
  case sum =>
    have hstart : (start limit).used.toNat = 0 := rfl
    rw [toNat_used_performAll hexhaust, hstart, Nat.zero_add]
  case spent =>
    -- Nothing is left, so whatever is more than nothing passes the limit.
    have hspent : meter.used = meter.limit := used_performAll_of_exhaust hexhaust
    refine ⟨hspent.trans hlimit, fun amount => ?_⟩
    rw [perform_charge_fst_eq_none, hspent, ← UInt64.toNat_inj, UInt64.toNat_zero]
    omega

/-- Two charges make up a limit of ten.  The one between them is so great that its sum with what has been
used is five in 64 bits. -/
def wrappingUses : List Use :=
  [.charge 6, .charge 0xffffffffffffffff, .charge 4]

theorem performAll_start_wrapping :
    let meter := (start 10).performAll wrappingUses
    meter.used.toNat = Use.total [.charge 6, .charge 4] ∧
    (∃ reported, meter.perform (.charge 1) = (some (.outOfGas reported 10), meter) ∧
      reported.toNat = 11) ∧
    ((start 10).performAll [.charge 6, .exhaust]).used = 10 ∧
    (((start 10).performAll [.charge 6, .exhaust]).perform (.charge 1)).1 ≠ none := by
  intro meter
  obtain ⟨-, -, hrefused, -, hsum, -⟩ := performAll_start 10 wrappingUses
  obtain ⟨-, -, -, -, -, hspent⟩ := performAll_start 10 [.charge 6, .exhaust]
  obtain ⟨hlimit, hzero⟩ := hspent (by decide)
  exact ⟨hsum (by decide), hrefused 1 (by decide), hlimit,
    fun hnone => absurd ((hzero 1).mp hnone) (by decide)⟩

end GasMeter

end BridgeMint
