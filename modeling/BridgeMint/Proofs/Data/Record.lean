import BridgeMint.Data.Record
import Mathlib.Data.List.Basic

/-!
# A record from a table of its fields

Members that name fields of a record, each once, are read like the list of their values: by the
fields they name, one after another.  Fields that no member names keep what the default says.
-/

namespace BridgeMint

/-! ## Optional values -/

/-- An optional value comes back from its data, as long as what stands for a value is not null. -/
theorem Datum.toOption_ofOption {α : Type} {write : α → Datum}
    {read : Datum → Except MeaningError α} (hread : ∀ a, read (write a) = .ok a)
    (hnull : ∀ a, write a ≠ .null) (o : Option α) : (ofOption write o).toOption read = .ok o := by
  cases o with
  | none => rfl
  | some a =>
    have hpresent := hnull a
    rw [ofOption, toOption, hread]
    · rfl
    · exact hpresent

/-! ## Fields -/

/-- A field puts what is read of its value into the record. -/
theorem FieldShape.read_of {ρ α : Type} {name : String} {read : Datum → Except MeaningError α}
    {put : α → ρ → ρ} {d : Datum} {a : α} (h : read d = .ok a) (record : ρ) :
    (FieldShape.of name read put).read d record = .ok (put a record) := by
  simp only [FieldShape.of, h, Except.map]

/-- Whatever a field brings about, it puts in what was read of its value. -/
theorem FieldShape.exists_of_read_of {ρ α : Type} {name : String}
    {read : Datum → Except MeaningError α} {put : α → ρ → ρ} {d : Datum} {record next : ρ}
    (h : (FieldShape.of name read put).read d record = .ok next) :
    ∃ a, read d = .ok a ∧ next = put a record := by
  simp only [FieldShape.of] at h
  cases hread : read d with
  | error e =>
    rw [hread] at h
    cases h
  | ok a =>
    rw [hread] at h
    exact ⟨a, rfl, (Except.ok.inj h).symm⟩

namespace RecordShape

variable {ρ : Type} {shape : RecordShape ρ}

theorem readItems_cons {field : FieldShape ρ} {item : Datum} {record next : ρ}
    (h : field.read item record = .ok next) (fields : List (FieldShape ρ)) (items : List Datum) :
    readItems (field :: fields) (item :: items) record = readItems fields items next := by
  rw [readItems, h]

/-! ## Members -/

/-- A field is found by its name if no other field has that name. -/
theorem find?_name {fields : List (FieldShape ρ)} (hdistinct : (fields.map (·.name)).Nodup)
    {field : FieldShape ρ} (hfield : field ∈ fields) :
    fields.find? (·.name == field.name) = some field := by
  induction fields with
  | nil => cases hfield
  | cons first rest ih =>
    rw [List.map_cons, List.nodup_cons] at hdistinct
    obtain ⟨hfirst, hdistinct⟩ := hdistinct
    rcases List.mem_cons.mp hfield with rfl | hrest
    · simp
    · have hother : first.name ≠ field.name := fun hname =>
        hfirst (hname ▸ List.mem_map_of_mem hrest)
      rw [List.find?_cons_of_neg (by simpa using hother)]
      exact ih hdistinct hrest

/-- Members that name the fields `fields`, each once, are read like the list of their values. -/
theorem readMembers_eq_readItems (hdistinct : shape.names.Nodup) {fields : List (FieldShape ρ)}
    (hfields : ∀ f ∈ fields, f ∈ shape.fields) (honce : (fields.map (·.name)).Nodup)
    {members : List (String × Datum)} (hnames : members.map (·.1) = fields.map (·.name))
    {seen : List String} (hnew : ∀ f ∈ fields, f.name ∉ seen) (record : ρ) :
    shape.readMembers seen members record =
      (readItems fields (members.map (·.2)) record).map (·.1) := by
  induction fields generalizing members seen record with
  | nil =>
    obtain rfl := List.map_eq_nil_iff.mp hnames
    rfl
  | cons field fields ih =>
    obtain ⟨⟨name, value⟩, rest, rfl, hname, hrest⟩ := List.map_eq_cons_iff.mp hnames
    obtain rfl : name = field.name := hname
    rw [List.map_cons, List.nodup_cons] at honce
    obtain ⟨hfirst, honce⟩ := honce
    have hunseen : ¬ seen.contains field.name = true := by
      simpa using hnew field (by simp)
    -- The name of this field counts as taken from now on, and no later field has it.
    have hlater : ∀ f ∈ fields, f.name ∉ field.name :: seen := by
      intro f hf
      have hother : f.name ≠ field.name := fun hsame =>
        hfirst (hsame ▸ List.mem_map_of_mem hf)
      simp [hother, hnew f (by simp [hf])]
    rw [readMembers, find?_name hdistinct (hfields field (by simp)), List.map_cons, readItems]
    simp only [if_neg hunseen]
    cases hread : field.read value record with
    | error e => rfl
    | ok record =>
      exact ih (fun f hf => hfields f (by simp [hf])) honce hrest hlater record

/-- A table of all fields in order is read like the list of their values. -/
theorem read_table (hdistinct : shape.names.Nodup) {members : List (String × Datum)}
    (hnames : members.map (·.1) = shape.names) (surplus : Bool) (default : ρ) :
    shape.read surplus default (.table members true) =
      (readItems shape.fields (members.map (·.2)) default).map (·.1) := by
  rw [read, readMembers_eq_readItems hdistinct (fun _ h => h) hdistinct hnames (by simp)]
  cases readItems shape.fields (members.map (·.2)) default <;> rfl

/-- What is read from a table is read from its members. -/
theorem readMembers_of_read {surplus intact : Bool} {members : List (String × Datum)}
    {default result : ρ} (h : shape.read surplus default (.table members intact) = .ok result) :
    shape.readMembers [] members default = .ok result := by
  rw [read] at h
  split at h
  case h_1 => cases h
  case h_2 record hread =>
    split at h
    · rw [hread, h]
    · cases h

/-! ## Members one by one -/

variable {name : String} {field : FieldShape ρ} {seen : List String}

/-- A member is read by the field that it names. -/
theorem readMembers_cons (hfind : shape.fields.find? (·.name == name) = some field)
    {value : Datum} {record next : ρ} (hread : field.read value record = .ok next)
    (hnew : name ∉ seen) (rest : List (String × Datum)) :
    shape.readMembers seen ((name, value) :: rest) record =
      shape.readMembers (name :: seen) rest next := by
  have hunseen : ¬ seen.contains name = true := by simpa using hnew
  rw [readMembers, hfind]
  simp only [if_neg hunseen, hread]

/-- A member that may be left out is read as the optional value it was written for, if a field that is
left out has none.  Either way no other field counts as taken. -/
theorem readMembers_optional {α : Type} (put : Option α → ρ → ρ)
    (hfind : shape.fields.find? (·.name == name) = some field) {value? : Option α}
    {write : α → Datum} {record : ρ}
    (hread : ∀ a, field.read (write a) record = .ok (put (some a) record))
    (habsent : put none record = record) (hnew : name ∉ seen) {rest : List (String × Datum)}
    {result : Except MeaningError ρ}
    (hrest : ∀ later, (∀ other, other ≠ name → other ∉ seen → other ∉ later) →
      shape.readMembers later rest (put value? record) = result) :
    shape.readMembers seen ((value?.map fun a => (name, write a)).toList ++ rest) record =
      result := by
  cases value? with
  | none =>
    rw [habsent] at hrest
    exact hrest seen fun _ _ hother => hother
  | some a =>
    rw [Option.map_some, Option.toList_some, List.singleton_append,
      readMembers_cons hfind (hread a) hnew]
    refine hrest (name :: seen) fun other hne hother hmem => ?_
    exact (List.mem_cons.mp hmem).elim hne hother

/-! ## What every field keeps -/

/-- What every field keeps that a member names holds of the record that is read. -/
theorem readMembers_invariant {P : ρ → Prop} {members : List (String × Datum)}
    (hfields : ∀ field ∈ shape.fields, ∀ value, (field.name, value) ∈ members → ∀ record next,
      P record → field.read value record = .ok next → P next)
    {seen : List String} {record result : ρ} (hrecord : P record)
    (h : shape.readMembers seen members record = .ok result) : P result := by
  fun_induction readMembers shape seen members record generalizing result with
  | case1 =>
    cases h
    exact hrecord
  | case2 | case4 | case5 => cases h
  | case3 _ name value rest _ _ _ ih =>
    exact ih (fun field hfield value hvalue => hfields field hfield value (List.mem_cons_of_mem _ hvalue))
      hrecord h
  | case6 seen name value rest record field hfind _ next hread ih =>
    -- The member is read by a field of its own name, which keeps the property.
    have hname : field.name = name := by simpa using List.find?_some hfind
    refine ih (fun field hfield value hvalue =>
      hfields field hfield value (List.mem_cons_of_mem _ hvalue)) ?_ h
    exact hfields field (List.mem_of_find?_eq_some hfind) value (hname ▸ List.mem_cons_self) record next
      hrecord hread

/-- A field that no member names keeps the default's value. -/
theorem readMembers_keeps {α : Type} (part : ρ → α)
    (hothers : ∀ field ∈ shape.fields, field.name ≠ name → ∀ value record next,
      field.read value record = .ok next → part next = part record)
    {members : List (String × Datum)} (habsent : name ∉ members.map (·.1)) {record result : ρ}
    (h : shape.readMembers seen members record = .ok result) : part result = part record := by
  refine readMembers_invariant (P := fun next => part next = part record)
    (fun field hfield value hvalue before next hbefore hread => ?_) rfl h
  -- Every member that is read names another field.
  have hother : field.name ≠ name := fun hname =>
    habsent (hname ▸ List.mem_map_of_mem (f := (·.1)) hvalue)
  exact (hothers field hfield hother value before next hread).trans hbefore

/-- The same for a list of values: each of its fields keeps the property. -/
theorem readItems_invariant {P : ρ → Prop} {fields : List (FieldShape ρ)} {items : List Datum}
    (hfields : ∀ field ∈ fields, ∀ item ∈ items, ∀ record next,
      P record → field.read item record = .ok next → P next)
    {record result : ρ} {left : List Datum} (hrecord : P record)
    (h : readItems fields items record = .ok (result, left)) : P result := by
  fun_induction readItems fields items record generalizing result left with
  | case1 | case2 =>
    cases h
    exact hrecord
  | case3 => cases h
  | case4 field fields item items record next hread ih =>
    refine ih (fun other hother d hd =>
      hfields other (List.mem_cons_of_mem field hother) d (List.mem_cons_of_mem item hd)) ?_ h
    exact hfields field List.mem_cons_self item List.mem_cons_self record next hrecord hread

/-- What a field brings about and the others keep holds of the record if a member names the field. -/
theorem readMembers_taken (hdistinct : shape.names.Nodup) (hfield : field ∈ shape.fields)
    {P : ρ → Prop} {members : List (String × Datum)}
    (htaken : ∀ value, (field.name, value) ∈ members → ∀ record next,
      field.read value record = .ok next → P next)
    (hothers : ∀ other ∈ shape.fields, other.name ≠ field.name → ∀ value record next,
      P record → other.read value record = .ok next → P next)
    (hnamed : field.name ∈ members.map (·.1)) {record result : ρ}
    (h : shape.readMembers seen members record = .ok result) : P result := by
  have hfind := find?_name hdistinct hfield
  fun_induction readMembers shape seen members record generalizing result with
  | case1 => cases hnamed
  | case2 | case4 | case5 => cases h
  | case3 _ key value rest _ hunknown _ ih =>
    -- A member with an unknown name names another field and is passed over.
    have hkey : field.name ≠ key := by
      rintro rfl
      rw [hfind] at hunknown
      cases hunknown
    exact ih (fun value hvalue => htaken value (List.mem_cons_of_mem _ hvalue))
      ((List.mem_cons.mp hnamed).resolve_left hkey) h
  | case6 seen key value rest record taken hknown _ next hread ih =>
    by_cases hkey : field.name = key
    · -- The field is taken here; whatever is read later keeps what it brings about.
      subst hkey
      obtain rfl : field = taken := Option.some.inj (hfind.symm.trans hknown)
      have hnext := htaken value List.mem_cons_self record next hread
      refine readMembers_invariant (fun other hother value hvalue record next hrecord hread => ?_) hnext h
      by_cases hsame : other.name = field.name
      · have hfound := find?_name hdistinct hother
        rw [hsame, hfind] at hfound
        obtain rfl := Option.some.inj hfound
        exact htaken value (List.mem_cons_of_mem _ hvalue) record next hread
      · exact hothers other hother hsame value record next hrecord hread
    · exact ih (fun value hvalue => htaken value (List.mem_cons_of_mem _ hvalue))
        ((List.mem_cons.mp hnamed).resolve_left hkey) h

end RecordShape

end BridgeMint
