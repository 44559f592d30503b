import BridgeMint.Proofs.Canonical.Codec

/-!
# One encoding for each value

A codec is exact if what it accepts are the encodings, each read as the value it was written from, and if what
it refuses is refused for the reason it gives: bytes that end too early are the beginning of an encoding, and
up to a byte that is no tag they could still have become one.  Codecs put together from exact codecs are
exact.  For whole byte strings this leaves four cases: an encoding, more than an encoding, less than an
encoding, and a wrong tag.
-/

namespace BridgeMint

namespace Codec

variable {α β γ : Type} {P : α → Prop} {Q : α → β → Prop} {R : γ → Prop}

/-! ## What a refusal says -/

/-- The bytes are the beginning of the encoding of a value with the property. -/
def Begins (codec : Codec α) (P : α → Prop) (bytes : Bytes) : Prop :=
  ∃ a more, P a ∧ bytes ++ more = codec.encode a

/-- The reason for which the bytes are refused is true of them. -/
def Explains (codec : Codec α) (P : α → Prop) (bytes : Bytes) : DecodeError → Prop
  | .unexpectedEnd => codec.Begins P bytes
  | .leftover => False
  | .optionTag tag => tag ≠ 0 ∧ tag ≠ 1 ∧
      ∃ front back, bytes = front ++ tag :: back ∧ codec.Begins P front

/-- What is true of some bytes for one codec is true for another one behind other bytes, if beginnings are
beginnings there. -/
theorem Explains.append {codec : Codec α} {codec' : Codec γ} {bytes before : Bytes} {e : DecodeError}
    (h : codec.Explains P bytes e)
    (hbegins : ∀ front, codec.Begins P front → codec'.Begins R (before ++ front)) :
    codec'.Explains R (before ++ bytes) e := by
  cases e with
  | unexpectedEnd => exact hbegins bytes h
  | leftover => exact h
  | optionTag tag =>
    obtain ⟨hzero, hone, front, back, rfl, hfront⟩ := h
    exact ⟨hzero, hone, before ++ front, back, (List.append_assoc _ _ _).symm, hbegins front hfront⟩

/-! ## Exact codecs -/

/-- Decoding undoes encoding, encoding undoes decoding, and refusals are true. -/
structure Exact (codec : Codec α) (P : α → Prop) : Prop where
  restores : codec.Restores P
  encode_of_decode : ∀ {bytes a rest}, codec.decode bytes = .ok (a, rest) →
    P a ∧ bytes = codec.encode a ++ rest
  explains : ∀ {bytes e}, codec.decode bytes = .error e → codec.Explains P bytes e
  /-- A wrong tag stays wrong whatever comes after it. -/
  refuses : ∀ {bytes tag} (more : Bytes), codec.decode bytes = .error (.optionTag tag) →
    codec.decode (bytes ++ more) = .error (.optionTag tag)
  inhabited : ∃ a, P a

/-- What is decoded does not depend on what comes after it. -/
theorem Exact.decode_append {codec : Codec α} (h : codec.Exact P) {bytes rest : Bytes} {a : α}
    (hdecode : codec.decode bytes = .ok (a, rest)) (more : Bytes) :
    codec.decode (bytes ++ more) = .ok (a, rest ++ more) := by
  obtain ⟨ha, rfl⟩ := h.encode_of_decode hdecode
  rw [List.append_assoc]
  exact h.restores a (rest ++ more) ha

/-- Only which values are meant counts, and not how that is said. -/
theorem Exact.congr {codec : Codec α} {P' : α → Prop} (h : codec.Exact P) (hP : ∀ a, P a ↔ P' a) :
    codec.Exact P' := by
  have hsame : P = P' := funext fun a => propext (hP a)
  exact hsame ▸ h

/-! ## Fixed widths -/

/-- A codec that takes a fixed number of bytes, whatever they are. -/
theorem exact_of_width {codec : Codec α} (n : Nat) (hrestores : codec.Restores P)
    (hshort : ∀ bytes, bytes.length < n → codec.decode bytes = .error .unexpectedEnd)
    (hlong : ∀ bytes, n ≤ bytes.length → ∃ a, P a ∧ codec.encode a = bytes.take n ∧
      codec.decode bytes = .ok (a, bytes.drop n)) : codec.Exact P := by
  refine ⟨hrestores, ?_, ?_, ?_, ?_⟩
  · intro bytes a rest h
    -- Had there been too few bytes, they would have been refused.
    have hle : n ≤ bytes.length := by
      by_contra hlt
      rw [hshort bytes (by omega)] at h
      cases h
    obtain ⟨b, hb, hencode, hdecode⟩ := hlong bytes hle
    rw [hdecode] at h
    cases h
    rw [hencode, List.take_append_drop]
    exact ⟨hb, rfl⟩
  · intro bytes e h
    have hlt : bytes.length < n := by
      by_contra hle
      obtain ⟨b, -, -, hdecode⟩ := hlong bytes (by omega)
      rw [hdecode] at h
      cases h
    rw [hshort bytes hlt] at h
    cases h
    -- With enough bytes after them, they are an encoding.
    have hlength : (bytes ++ List.replicate (n - bytes.length) 0).length = n := by
      rw [List.length_append, List.length_replicate]
      omega
    obtain ⟨a, ha, hencode, -⟩ := hlong _ hlength.ge
    rw [List.take_of_length_le hlength.le] at hencode
    exact ⟨a, _, ha, hencode.symm⟩
  · intro bytes tag more h
    -- Neither too few bytes nor enough of them are ever refused for a tag.
    by_cases hlt : bytes.length < n
    · rw [hshort bytes hlt] at h
      cases h
    · obtain ⟨b, -, -, hdecode⟩ := hlong bytes (by omega)
      rw [hdecode] at h
      cases h
  · obtain ⟨a, ha, -⟩ := hlong (List.replicate n 0) List.length_replicate.ge
    exact ⟨a, ha⟩

theorem exact_fixedBytes (n : Nat) : (fixedBytes n).Exact fun _ => True := by
  refine exact_of_width n (restores_fixedBytes n) (fun bytes hlt => ?_) fun bytes hle => ?_
  · exact dif_neg (by omega)
  · exact ⟨⟨bytes.take n, List.length_take_of_le hle⟩, trivial, rfl, dif_pos hle⟩

/-- A numeral of its own length gives the bytes back. -/
theorem littleEndian_take {n : Nat} {bytes : Bytes} (hle : n ≤ bytes.length) :
    Bytes.littleEndianValue (bytes.take n) < 256 ^ n ∧
      Bytes.littleEndian n (Bytes.littleEndianValue (bytes.take n)) = bytes.take n := by
  have hlt := Bytes.littleEndianValue_lt (bytes.take n)
  have hsame := Bytes.littleEndian_littleEndianValue (bytes.take n)
  rw [List.length_take_of_le hle] at hlt hsame
  exact ⟨hlt, hsame⟩

/-- Every four bytes are the numeral of one number. -/
theorem exact_uint32 : uint32.Exact fun _ => True := by
  refine exact_of_width 4 restores_uint32 (fun bytes hlt => ?_) fun bytes hle => ?_
  · exact if_neg (by omega)
  · obtain ⟨hlt, hsame⟩ := littleEndian_take hle
    -- The bytes are the numeral of the value that they have.
    refine ⟨.ofNat (Bytes.littleEndianValue (bytes.take 4)), trivial, ?_, if_pos hle⟩
    show Bytes.littleEndian 4 (UInt32.ofNat _).toNat = _
    rw [UInt32.toNat_ofNat_of_lt' hlt, hsame]

/-- Every eight bytes are the numeral of one number. -/
theorem exact_uint64 : uint64.Exact fun _ => True := by
  refine exact_of_width 8 restores_uint64 (fun bytes hlt => ?_) fun bytes hle => ?_
  · exact if_neg (by omega)
  · obtain ⟨hlt, hsame⟩ := littleEndian_take hle
    refine ⟨.ofNat (Bytes.littleEndianValue (bytes.take 8)), trivial, ?_, if_pos hle⟩
    show Bytes.littleEndian 8 (UInt64.ofNat _).toNat = _
    rw [UInt64.toNat_ofNat_of_lt' hlt, hsame]

/-! ## One value after another -/

section Parts

variable {codec : Codec γ} {first : Codec α} {second : α → Codec β} {combine : α → β → γ}

/-- Decodes one value after another, where the first may decide how the second is decoded. -/
def decodeParts (first : Codec α) (second : α → Codec β) (combine : α → β → γ) (bytes : Bytes) :
    Except DecodeError (γ × Bytes) :=
  match first.decode bytes with
  | .error e => .error e
  | .ok (a, rest) =>
    match (second a).decode rest with
    | .error e => .error e
    | .ok (b, rest') => .ok (combine a b, rest')

/-- One value after another is read if each of them is. -/
theorem decodeParts_eq_ok {bytes rest : Bytes} {c : γ} :
    decodeParts first second combine bytes = .ok (c, rest) ↔
      ∃ a b middle, first.decode bytes = .ok (a, middle) ∧ (second a).decode middle = .ok (b, rest) ∧
        combine a b = c := by
  unfold decodeParts
  cases hfirst : first.decode bytes with
  | error e => simp
  | ok read =>
    obtain ⟨a, middle⟩ := read
    cases hsecond : (second a).decode middle with
    | error e => simp [hsecond]
    | ok read =>
      obtain ⟨b, rest'⟩ := read
      simp [hsecond, and_comm]

/-- It is refused if one of them is, the first one first. -/
theorem decodeParts_eq_error {bytes : Bytes} {e : DecodeError} :
    decodeParts first second combine bytes = .error e ↔
      first.decode bytes = .error e ∨
        ∃ a middle, first.decode bytes = .ok (a, middle) ∧ (second a).decode middle = .error e := by
  unfold decodeParts
  cases hfirst : first.decode bytes with
  | error e => simp
  | ok read =>
    obtain ⟨a, middle⟩ := read
    cases hsecond : (second a).decode middle <;> simp [hsecond]

/-- What is put together from the values of exact codecs, written one after the other, has an exact codec. -/
theorem Exact.sequence (combine : α → β → γ) (hfirst : first.Exact P)
    (hsecond : ∀ a, P a → (second a).Exact (Q a))
    (hencode : ∀ a b, P a → Q a b → codec.encode (combine a b) = first.encode a ++ (second a).encode b)
    (hdecode : ∀ bytes, codec.decode bytes = decodeParts first second combine bytes)
    (hR : ∀ c, R c ↔ ∃ a b, P a ∧ Q a b ∧ combine a b = c) : codec.Exact R := by
  -- The beginnings of the two parts are beginnings of the whole.
  have hbeginsFirst : ∀ front, first.Begins P front → codec.Begins R ([] ++ front) := by
    rintro front ⟨a, more, ha, hmore⟩
    obtain ⟨b, hb⟩ := (hsecond a ha).inhabited
    refine ⟨combine a b, more ++ (second a).encode b, (hR _).mpr ⟨a, b, ha, hb, rfl⟩, ?_⟩
    rw [hencode a b ha hb, ← hmore, List.nil_append, List.append_assoc]
  have hbeginsSecond : ∀ a, P a → ∀ front, (second a).Begins (Q a) front →
      codec.Begins R (first.encode a ++ front) := by
    rintro a ha front ⟨b, more, hb, hmore⟩
    refine ⟨combine a b, more, (hR _).mpr ⟨a, b, ha, hb, rfl⟩, ?_⟩
    rw [hencode a b ha hb, ← hmore, List.append_assoc]
  refine ⟨?_, ?_, ?_, ?_, ?_⟩
  · -- Both parts are read back one after the other.
    intro c rest hc
    obtain ⟨a, b, ha, hb, rfl⟩ := (hR c).mp hc
    rw [hdecode, hencode a b ha hb, List.append_assoc]
    exact decodeParts_eq_ok.mpr
      ⟨a, b, _, hfirst.restores a _ ha, (hsecond a ha).restores b rest hb, rfl⟩
  · intro bytes c rest h
    rw [hdecode] at h
    obtain ⟨a, b, middle, hread, hread', rfl⟩ := decodeParts_eq_ok.mp h
    obtain ⟨ha, rfl⟩ := hfirst.encode_of_decode hread
    obtain ⟨hb, rfl⟩ := (hsecond a ha).encode_of_decode hread'
    rw [hencode a b ha hb, List.append_assoc]
    exact ⟨(hR _).mpr ⟨a, b, ha, hb, rfl⟩, rfl⟩
  · -- What is refused is refused by one of the parts, which has its reason.
    intro bytes e h
    rw [hdecode] at h
    rcases decodeParts_eq_error.mp h with hread | ⟨a, middle, hread, hread'⟩
    · exact (hfirst.explains hread).append hbeginsFirst
    · obtain ⟨ha, rfl⟩ := hfirst.encode_of_decode hread
      exact ((hsecond a ha).explains hread').append (hbeginsSecond a ha)
  · intro bytes tag more h
    rw [hdecode] at h ⊢
    rcases decodeParts_eq_error.mp h with hread | ⟨a, middle, hread, hread'⟩
    · exact decodeParts_eq_error.mpr (.inl (hfirst.refuses more hread))
    · obtain ⟨ha, -⟩ := hfirst.encode_of_decode hread
      exact decodeParts_eq_error.mpr
        (.inr ⟨a, _, hfirst.decode_append hread more, (hsecond a ha).refuses more hread'⟩)
  · obtain ⟨a, ha⟩ := hfirst.inhabited
    obtain ⟨b, hb⟩ := (hsecond a ha).inhabited
    exact ⟨combine a b, (hR _).mpr ⟨a, b, ha, hb, rfl⟩⟩

end Parts

/-- Pairs are exact if their parts are. -/
theorem Exact.pair {first : Codec α} {second : Codec β} {Q : β → Prop} (hfirst : first.Exact P)
    (hsecond : second.Exact Q) : (first.pair second).Exact fun p => P p.1 ∧ Q p.2 := by
  refine hfirst.sequence Prod.mk (Q := fun _ => Q) (fun _ _ => hsecond)
    (fun _ _ _ _ => rfl) (fun _ => rfl) fun p => ?_
  constructor
  · rintro ⟨ha, hb⟩
    exact ⟨p.1, p.2, ha, hb, rfl⟩
  · rintro ⟨a, b, ha, hb, rfl⟩
    exact ⟨ha, hb⟩

/-- A value that takes no bytes, because there is only one. -/
def constant (a : α) : Codec α where
  encode _ := []
  decode bytes := .ok (a, bytes)

theorem exact_constant (a : α) : (constant a).Exact fun b => b = a := by
  refine exact_of_width 0 ?_ (fun bytes hlt => absurd hlt (Nat.not_lt_zero _)) fun bytes _ => ?_
  · rintro b rest rfl
    rfl
  · exact ⟨a, rfl, rfl, rfl⟩

/-- What is made of a value has the codec of the value. -/
theorem Exact.map {codec : Codec α} {codec' : Codec γ} {f : α → γ} (h : codec.Exact P)
    (hencode : ∀ a, codec'.encode (f a) = codec.encode a)
    (hdecode : ∀ bytes, codec'.decode bytes =
      (codec.decode bytes).map fun read => (f read.1, read.2))
    (hR : ∀ c, R c ↔ ∃ a, P a ∧ f a = c) : codec'.Exact R := by
  -- A value that takes no bytes is read after it.
  refine h.sequence (fun a _ => f a) (fun _ _ => exact_constant ())
    (fun a _ _ _ => ?_) (fun bytes => ?_) fun c => ?_
  · rw [hencode]
    exact (List.append_nil _).symm
  · rw [hdecode]
    unfold decodeParts
    cases codec.decode bytes <;> rfl
  · simp [hR]

/-- A codec stays exact if its values are only written in another way. -/
theorem Exact.rename {codec : Codec α} {ofBase : α → β} {toBase : β → α} (h : codec.Exact P)
    (hinverse : ∀ b, ofBase (toBase b) = b) (hinverse' : ∀ a, toBase (ofBase a) = a) :
    (codec.rename ofBase toBase).Exact fun b => P (toBase b) := by
  refine h.map (f := ofBase) (fun a => ?_) (fun bytes => ?_) fun b => ?_
  · exact congrArg codec.encode (hinverse' a)
  · simp only [Codec.rename]
    cases codec.decode bytes <;> rfl
  · constructor
    · intro hb
      exact ⟨toBase b, hb, hinverse b⟩
    · rintro ⟨a, ha, rfl⟩
      rw [hinverse']
      exact ha

/-! ## Values that may be missing -/

/-- The byte that tells whether an optional value is there. -/
def presence : Codec Bool where
  encode isThere := [if isThere then 1 else 0]
  decode
    | [] => .error .unexpectedEnd
    | tag :: rest =>
      if tag = 0 then .ok (false, rest)
      else if tag = 1 then .ok (true, rest)
      else .error (.optionTag tag)

/-- A first byte tells that the value is there, that it is not, or is no such byte. -/
theorem presence_cases (tag : UInt8) (rest : Bytes) :
    (∃ isThere, tag = (if isThere then 1 else 0) ∧ presence.decode (tag :: rest) = .ok (isThere, rest)) ∨
      tag ≠ 0 ∧ tag ≠ 1 ∧ presence.decode (tag :: rest) = .error (.optionTag tag) := by
  by_cases hzero : tag = 0
  · exact .inl ⟨false, hzero, if_pos hzero⟩
  by_cases hone : tag = 1
  · subst hone
    exact .inl ⟨true, rfl, rfl⟩
  · refine .inr ⟨hzero, hone, ?_⟩
    simp only [presence, if_neg hzero, if_neg hone]

/-- The byte that tells whether a value is there is exact. -/
theorem exact_presence : presence.Exact fun _ => True := by
  refine ⟨?_, ?_, ?_, ?_, ⟨true, trivial⟩⟩
  · rintro (_ | _) rest - <;> rfl
  · intro bytes isThere rest h
    match bytes with
    | [] => cases h
    | tag :: bytes =>
      rcases presence_cases tag bytes with ⟨isThere', rfl, hread⟩ | ⟨-, -, hread⟩
      · -- The byte that is read is the one that would be written.
        rw [hread] at h
        cases h
        exact ⟨trivial, rfl⟩
      · rw [hread] at h
        cases h
  · intro bytes e h
    match bytes with
    | [] =>
      cases h
      exact ⟨true, [1], trivial, rfl⟩
    | tag :: bytes =>
      rcases presence_cases tag bytes with ⟨isThere, -, hread⟩ | ⟨hzero, hone, hread⟩
      · rw [hread] at h
        cases h
      · rw [hread] at h
        cases h
        exact ⟨hzero, hone, [], bytes, rfl, true, [1], trivial, rfl⟩
  · intro bytes tag' more h
    match bytes with
    | [] => cases h
    | tag :: bytes =>
      rcases presence_cases tag bytes with ⟨isThere, -, hread⟩ | ⟨hzero, hone, hread⟩
      · rw [hread] at h
        cases h
      · rw [hread] at h
        cases h
        rw [List.cons_append]
        simp only [presence, if_neg hzero, if_neg hone]

/-- An optional value of which it is known whether it is there. -/
def optionalBody (codec : Codec α) : Bool → Codec (Option α)
  | false => constant none
  | true =>
    { encode := fun o => o.elim [] codec.encode
      decode := fun bytes => (codec.decode bytes).map fun read => (some read.1, read.2) }

/-- What follows the first byte is exact, whether the value is there or not. -/
theorem Exact.optionalBody {codec : Codec α} (h : codec.Exact P) (isThere : Bool) :
    (codec.optionalBody isThere).Exact fun o => o.isSome = isThere ∧ ∀ a, o = some a → P a := by
  cases isThere with
  | false =>
    refine (exact_constant none).congr fun o => ?_
    cases o <;> simp
  | true =>
    refine h.map (f := some) (fun _ => rfl) (fun _ => rfl) fun o => ?_
    cases o <;> simp

/-- Optional values are exact if the values are. -/
theorem Exact.optional {codec : Codec α} (h : codec.Exact P) :
    codec.optional.Exact fun o => ∀ a, o = some a → P a := by
  refine exact_presence.sequence (fun _ o => o) (fun isThere _ => h.optionalBody isThere)
    (fun isThere o _ ho => ?_) (fun bytes => ?_) fun o => ?_
  · obtain ⟨rfl, -⟩ := ho
    cases o <;> rfl
  · match bytes with
    | [] => rfl
    | tag :: bytes =>
      -- The codec decides about the first byte and reads on, which is what the two parts do one after the
      -- other.
      unfold decodeParts
      rcases presence_cases tag bytes with ⟨isThere, rfl, hread⟩ | ⟨hzero, hone, hread⟩
      · rw [hread]
        cases isThere with
        | false => rfl
        | true =>
          show (match codec.decode bytes with
            | .error e => (.error e : Except DecodeError (Option α × Bytes))
            | .ok (a, rest) => .ok (some a, rest)) = _
          simp only [Codec.optionalBody]
          cases codec.decode bytes <;> rfl
      · rw [hread]
        simp only [Codec.optional, if_neg hzero, if_neg hone]
  · simp

/-! ## Values of any length -/

/-- A byte string whose length is known. -/
def rawBytes (n : Nat) : Codec Bytes where
  encode bytes := bytes
  decode bytes :=
    if n ≤ bytes.length then .ok (bytes.take n, bytes.drop n) else .error .unexpectedEnd

/-- A byte string of known length is exact. -/
theorem exact_rawBytes (n : Nat) : (rawBytes n).Exact fun bytes => bytes.length = n := by
  refine exact_of_width n ?_ (fun bytes hlt => ?_) fun bytes hle => ?_
  · rintro bytes rest rfl
    have hle : bytes.length ≤ (bytes ++ rest).length := by simp
    simp only [rawBytes, if_pos hle, List.take_left, List.drop_left]
  · exact if_neg (by omega)
  · exact ⟨bytes.take n, List.length_take_of_le hle, rfl, if_pos hle⟩

/-- A list whose length is known. -/
def many (codec : Codec α) (n : Nat) : Codec (List α) where
  encode as := as.flatMap codec.encode
  decode := decodeMany codec n

/-- A list of known length is exact if its values are. -/
theorem Exact.many {codec : Codec α} (h : codec.Exact P) (n : Nat) :
    (codec.many n).Exact fun as => as.length = n ∧ ∀ a ∈ as, P a := by
  induction n with
  | zero =>
    -- The empty list takes no bytes.
    refine exact_of_width 0 ?_ (fun bytes hlt => absurd hlt (Nat.not_lt_zero _)) fun bytes hle => ?_
    · rintro as rest ⟨hlength, -⟩
      obtain rfl := List.eq_nil_of_length_eq_zero hlength
      rfl
    · exact ⟨[], ⟨rfl, nofun⟩, rfl, rfl⟩
  | succ n ih =>
    -- A list that is not empty is written as its first value and the others.
    refine h.sequence List.cons (fun _ _ => ih)
      (fun a as _ _ => List.flatMap_cons) (fun bytes => ?_) fun as => ?_
    · simp only [Codec.many, decodeParts, decodeMany]
      cases codec.decode bytes with
      | error e => rfl
      | ok read =>
        simp only
        cases decodeMany codec n read.2 <;> rfl
    · constructor
      · rintro ⟨hlength, has⟩
        obtain ⟨a, as, rfl⟩ := List.exists_cons_of_length_eq_add_one hlength
        exact ⟨a, as, has a List.mem_cons_self,
          ⟨Nat.succ.inj hlength, fun b hb => has b (List.mem_cons_of_mem a hb)⟩, rfl⟩
      · rintro ⟨a, as, ha, ⟨hlength, has⟩, rfl⟩
        refine ⟨congrArg Nat.succ hlength, fun b hb => ?_⟩
        rcases List.mem_cons.mp hb with rfl | hb
        · exact ha
        · exact has b hb

/-- A value after its length is exact if it is exact for each length that can be written. -/
theorem Exact.counted {codec : Codec (List α)} {body : Nat → Codec (List α)} {P : List α → Prop}
    (hbody : ∀ n, (body n).Exact fun as => as.length = n ∧ P as)
    (hencode : ∀ as, codec.encode as =
      uint32.encode (.ofNat as.length) ++ (body as.length).encode as)
    (hdecode : ∀ bytes, codec.decode bytes =
      decodeParts uint32 (fun n => body n.toNat) (fun _ as => as) bytes) :
    codec.Exact fun as => as.length < 2 ^ 32 ∧ P as := by
  refine exact_uint32.sequence (fun _ as => as) (Q := fun n as => as.length = n.toNat ∧ P as)
    (fun n _ => hbody n.toNat) ?_ hdecode fun as => ?_
  · -- The length that is written is the one by which the rest is read.
    rintro n as - ⟨hlength, -⟩
    rw [hencode, hlength, UInt32.ofNat_toNat]
  · constructor
    · rintro ⟨hlength, has⟩
      exact ⟨.ofNat as.length, as, trivial, ⟨(UInt32.toNat_ofNat_of_lt hlength).symm, has⟩, rfl⟩
    · rintro ⟨n, as, -, ⟨hlength, has⟩, rfl⟩
      exact ⟨hlength ▸ n.toNat_lt, has⟩

/-- A byte string after its length is exact. -/
theorem exact_byteString : byteString.Exact fun bytes => bytes.length < 2 ^ 32 := by
  have hbody : ∀ n, (rawBytes n).Exact fun bytes => bytes.length = n ∧ True := fun n =>
    (exact_rawBytes n).congr fun _ => (and_iff_left trivial).symm
  have hexact : byteString.Exact _ := Exact.counted hbody (fun _ => rfl) fun bytes => by
    simp only [byteString, decodeParts, rawBytes]
    cases uint32.decode bytes with
    | error e => rfl
    | ok read =>
      simp only
      split <;> rfl
  exact hexact.congr fun _ => and_iff_left trivial

/-- A list after its length is exact if its values are. -/
theorem Exact.list {codec : Codec α} (h : codec.Exact P) :
    codec.list.Exact fun as => as.length < 2 ^ 32 ∧ ∀ a ∈ as, P a := by
  refine Exact.counted h.many (fun _ => rfl) fun bytes => ?_
  simp only [Codec.list, decodeParts, Codec.many]
  cases uint32.decode bytes with
  | error e => rfl
  | ok read =>
    simp only
    cases decodeMany codec read.1.toNat read.2 <;> rfl

/-! ## Whole byte strings -/

/-- Encodings are canonical: a byte string is the encoding of one value, goes on after an encoding, stops
short of one, or has a wrong tag, and decoding tells which. -/
structure Canonical (codec : Codec α) (P : α → Prop) : Prop where
  decodeAll_eq_ok_iff : ∀ bytes a, codec.decodeAll bytes = .ok a ↔ P a ∧ codec.encode a = bytes
  decodeAll_eq_leftover_iff : ∀ bytes, codec.decodeAll bytes = .error .leftover ↔
    ∃ a more, P a ∧ more ≠ [] ∧ codec.encode a ++ more = bytes
  decodeAll_eq_unexpectedEnd_iff : ∀ bytes, codec.decodeAll bytes = .error .unexpectedEnd ↔
    ∃ a more, P a ∧ more ≠ [] ∧ bytes ++ more = codec.encode a
  decodeAll_eq_optionTag : ∀ bytes tag, codec.decodeAll bytes = .error (.optionTag tag) →
    tag ≠ 0 ∧ tag ≠ 1 ∧ ∃ front back, bytes = front ++ tag :: back ∧ codec.Begins P front

/-- A whole byte string is read if nothing is left of it. -/
theorem decodeAll_eq_ok {codec : Codec α} {bytes : Bytes} {a : α} :
    codec.decodeAll bytes = .ok a ↔ codec.decode bytes = .ok (a, []) := by
  unfold decodeAll
  cases codec.decode bytes with
  | error e => simp
  | ok read =>
    obtain ⟨b, rest⟩ := read
    cases rest <;> simp

/-- It is refused for what decoding refuses, or because something is left. -/
theorem decodeAll_eq_error {codec : Codec α} {bytes : Bytes} {e : DecodeError} :
    codec.decodeAll bytes = .error e ↔ codec.decode bytes = .error e ∨
      e = .leftover ∧ ∃ a more, more ≠ [] ∧ codec.decode bytes = .ok (a, more) := by
  unfold decodeAll
  cases codec.decode bytes with
  | error e => simp
  | ok read =>
    obtain ⟨b, rest⟩ := read
    cases rest <;> simp [eq_comm]

/-- The encodings of an exact codec are canonical. -/
theorem Exact.canonical {codec : Codec α} (h : codec.Exact P) : codec.Canonical P := by
  refine ⟨fun bytes a => ?_, fun bytes => ?_, fun bytes => ?_, fun bytes tag hread => ?_⟩
  · rw [decodeAll_eq_ok]
    constructor
    · intro hread
      obtain ⟨ha, hbytes⟩ := h.encode_of_decode hread
      rw [List.append_nil] at hbytes
      exact ⟨ha, hbytes.symm⟩
    · rintro ⟨ha, rfl⟩
      have hread := h.restores a [] ha
      rwa [List.append_nil] at hread
  · rw [decodeAll_eq_error]
    constructor
    · rintro (hread | ⟨-, a, more, hmore, hread⟩)
      · -- Decoding itself never says that something is left over.
        exact (h.explains hread).elim
      · obtain ⟨ha, hbytes⟩ := h.encode_of_decode hread
        exact ⟨a, more, ha, hmore, hbytes.symm⟩
    · rintro ⟨a, more, ha, hmore, rfl⟩
      exact .inr ⟨rfl, a, more, hmore, h.restores a more ha⟩
  · rw [decodeAll_eq_error]
    constructor
    · rintro (hread | ⟨hother, -⟩)
      · obtain ⟨a, more, ha, hmore⟩ := h.explains hread
        refine ⟨a, more, ha, ?_, hmore⟩
        -- Without anything missing they would have been read.
        rintro rfl
        rw [List.append_nil] at hmore
        have hwhole := h.restores a [] ha
        rw [List.append_nil, ← hmore, hread] at hwhole
        cases hwhole
      · cases hother
    · rintro ⟨a, more, ha, hmore, hbytes⟩
      have hwhole := h.restores a [] ha
      rw [List.append_nil, ← hbytes] at hwhole
      cases hread : codec.decode bytes with
      | ok read =>
        -- What is read off the beginning is read off the whole, where nothing is left.
        have hlonger := h.decode_append hread more
        rw [hwhole] at hlonger
        obtain ⟨-, hnil⟩ := Prod.mk.inj (Except.ok.inj hlonger)
        obtain ⟨-, hnone⟩ := List.append_eq_nil_iff.mp hnil.symm
        exact absurd hnone hmore
      | error e =>
        cases e with
        | unexpectedEnd => exact .inl rfl
        | leftover => exact (h.explains hread).elim
        | optionTag tag =>
          rw [h.refuses more hread] at hwhole
          cases hwhole
  · rcases decodeAll_eq_error.mp hread with hread | ⟨hother, -⟩
    · exact h.explains hread
    · cases hother

end Codec

end BridgeMint
