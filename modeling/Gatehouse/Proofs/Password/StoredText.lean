import Gatehouse.Password.Phc
import Gatehouse.Proofs.Results
import Gatehouse.Proofs.Text.Base64
import Gatehouse.Proofs.Text.Digits
import Gatehouse.Proofs.Text.Pieces

/-! # The text of a stored hash

A stored hash is written in one way only. Its text is read exactly where it is the written form of parts that are
each within their bounds, and what is read are these parts: no field can be taken for another one, and none can be
spelled differently. Two things are asked of the parts as a whole. A tag is written behind a salt, and without a
version a lone parameter must not look like one.
-/

namespace Gatehouse.Password.Phc

open Gatehouse.Text

variable {cs : List Char}

/-! ## Names and values -/

/-- Up to 64 octets of the characters of values. -/
structure IsValue (cs : List Char) : Prop where
  octets : octetCount cs ≤ 64
  chars : ∀ c ∈ cs, isValueChar c = true

structure IsParameter (p : List Char × List Char) : Prop where
  name : isName p.1 = true
  value : IsValue p.2

theorem name_eq_ok_iff {n : List Char} : name cs = .ok n ↔ n = cs ∧ isName cs = true := by
  rw [name]
  split
  · rename_i h
    simp [h, eq_comm]
  · rename_i h
    simp [h]

theorem value_eq_ok_iff {v : List Char} : value cs = .ok v ↔ v = cs ∧ IsValue cs := by
  rw [value]
  split
  · rename_i long
    have not_value : ¬ IsValue cs := fun h => absurd h.octets (Nat.not_le.mpr long)
    simp [not_value]
  · rename_i short
    split
    · rename_i c found
      have not_value : ¬ IsValue cs := by
        intro h
        have inside := h.chars c (List.mem_of_find?_eq_some found)
        have outside := List.find?_some found
        rw [inside] at outside
        cases outside
      simp [not_value]
    · rename_i none
      have chars : ∀ c ∈ cs, isValueChar c = true := by
        intro c hc
        simpa using List.find?_eq_none.mp none c hc
      have is_value : IsValue cs := ⟨Nat.not_lt.mp short, chars⟩
      simp [is_value, eq_comm]

theorem decimal_eq_ok_iff {n : Nat} : decimal cs = .ok n ↔ cs = Decimal.digits n ∧ n < Nat.pow 2 32 := by
  constructor
  · intro h
    simp only [decimal] at h
    split at h
    · cases h
    rename_i filled
    split at h
    · cases h
    rename_i none
    have digit : ∀ c ∈ cs, c.isDigit = true := by
      intro c hc
      simpa using List.find?_eq_none.mp none c hc
    split at h
    · cases h
    rename_i plain
    split at h
    · cases h
    rename_i small
    cases h
    refine ⟨(Decimal.digits_value filled digit ?_).symm, Nat.not_le.mp small⟩
    intro zero
    have pos := List.length_pos_iff.mpr filled
    have short : ¬ 1 < cs.length := fun long => plain ⟨zero, long⟩
    omega
  · rintro ⟨rfl, small⟩
    have none : (Decimal.digits n).find? (fun c => !c.isDigit) = none := by
      rw [List.find?_eq_none]
      intro c hc
      simp [Decimal.isDigit_of_mem_digits hc]
    have plain : ¬ ((Decimal.digits n).head? = some '0' ∧ 1 < (Decimal.digits n).length) := by
      rintro ⟨zero, long⟩
      rw [Decimal.head?_digits zero, Decimal.digits_of_lt (by decide)] at long
      exact absurd long (by decide)
    have fits : ¬ Nat.pow 2 32 ≤ n := Nat.not_le.mpr small
    rw [decimal, if_neg (Decimal.digits_ne_nil n), none]
    simp only [if_neg plain, Decimal.value_digits, if_neg fits]

/-! ## Characters that cannot stand in a field -/

theorem not_mem_of_isName (h : isName cs = true) {c : Char} (out : (c.isLower || c.isDigit || c = '-') = false) :
    c ∉ cs := by
  simp only [isName, Bool.and_eq_true, List.all_eq_true] at h
  exact not_mem_of_class h.2 out

theorem IsValue.not_mem (h : IsValue cs) {c : Char} (out : isValueChar c = false) : c ∉ cs :=
  not_mem_of_class h.chars out

theorem isValueChar_of_isAlphanum {c : Char} (h : c.isAlphanum = true) : isValueChar c = true := by
  simp [isValueChar, h]

theorem isValueChar_of_mem_encode {octets : List UInt8} {c : Char}
    (h : c ∈ Base64.encode Base64.standard octets) : isValueChar c = true := by
  rcases Base64.of_mem_encode h with alphanum | rfl | rfl
  · exact isValueChar_of_isAlphanum alphanum
  · decide
  · decide

theorem isValueChar_of_mem_digits {n : Nat} {c : Char} (h : c ∈ Decimal.digits n) : isValueChar c = true :=
  isValueChar_of_isAlphanum (isAlphanum_of_mem_digits h)

theorem ascii_of_isValueChar {c : Char} (h : isValueChar c = true) : c.toNat < 0x80 := by
  simp only [isValueChar, Bool.or_eq_true, decide_eq_true_eq] at h
  rcases h with (((alphanum | rfl) | rfl) | rfl) | rfl
  · exact (isVisible_of_isAlphanum alphanum).isPrintable.ascii
  all_goals decide

/-! ## Parameters -/

def parameterText (p : List Char × List Char) : List Char :=
  p.1 ++ '=' :: p.2

def parametersText (ps : List (List Char × List Char)) : List Char :=
  [','].intercalate (ps.map parameterText)

theorem parameter_eq_ok_iff {p : List Char × List Char} :
    parameter cs = .ok p ↔ cs = parameterText p ∧ IsParameter p := by
  obtain ⟨n, v⟩ := p
  constructor
  · intro h
    have parts := intercalate_pieces '=' cs
    rw [parameter] at h
    split at h
    · cases h
    rename_i n' rest hp
    obtain ⟨n'', named, after_name⟩ := exists_of_bind_eq_ok h
    obtain ⟨rfl, is_name⟩ := name_eq_ok_iff.mp named
    split at after_name
    · cases after_name
    rename_i v' more
    obtain ⟨v'', valued, after_value⟩ := exists_of_bind_eq_ok after_name
    obtain ⟨rfl, is_value⟩ := value_eq_ok_iff.mp (ok_of_mapError valued)
    split at after_value
    · cases after_value
    rename_i nothing
    cases after_value
    obtain rfl : more = [] := Classical.not_not.mp nothing
    refine ⟨?_, is_name, is_value⟩
    rw [← parts, hp, List.intercalate_cons_cons, List.intercalate_singleton]
    simp [parameterText]
  · rintro ⟨rfl, is_name, is_value⟩
    have parts : pieces '=' (parameterText (n, v)) = [n, v] := by
      rw [parameterText, pieces_append '=' (not_mem_of_isName is_name (by decide)),
        pieces_of_not_mem '=' (is_value.not_mem (by decide))]
    have named := name_eq_ok_iff.mpr ⟨rfl, is_name⟩
    have valued := value_eq_ok_iff.mpr ⟨rfl, is_value⟩
    simp only [parameter, parts, named, valued, ok_bind, ok_mapError]
    rfl

theorem comma_not_mem_parameterText {p : List Char × List Char} (h : IsParameter p) : ',' ∉ parameterText p := by
  simp only [parameterText, List.mem_append, List.mem_cons, not_or]
  exact ⟨not_mem_of_isName h.name (by decide), by decide, h.value.not_mem (by decide)⟩

theorem parameterList_eq_ok_iff {ps : List (List Char × List Char)} : parameterList cs = .ok ps ↔
    cs = parametersText ps ∧ ps ≠ [] ∧ (∀ p ∈ ps, IsParameter p) ∧ octetCount cs ≤ 127 := by
  rw [parameterList]
  split
  · rename_i long
    have not_short : ¬ octetCount cs ≤ 127 := Nat.not_le.mpr long
    simp [not_short]
  rename_i short
  have short' : octetCount cs ≤ 127 := Nat.not_lt.mp short
  have read {texts : List (List Char)} :
      texts.mapM parameter = .ok ps ↔ texts = ps.map parameterText ∧ ∀ p ∈ ps, IsParameter p := by
    simp only [mapM_eq_ok_iff, parameter_eq_ok_iff]
    constructor
    · intro h
      induction h with
      | nil => simp
      | cons one _ ih => exact ⟨by rw [List.map_cons, one.1, ih.1], List.forall_mem_cons.mpr ⟨one.2, ih.2⟩⟩
    · rintro ⟨rfl, each⟩
      rw [List.forall₂_map_left_iff, List.forall₂_same]
      exact fun p hp => ⟨rfl, each p hp⟩
  rw [read]
  simp only [short', and_true]
  constructor
  · rintro ⟨texts, each⟩
    refine ⟨?_, ?_, each⟩
    · rw [parametersText, ← texts, intercalate_pieces]
    · rintro rfl
      exact pieces_ne_nil ',' cs texts
  · rintro ⟨rfl, filled, each⟩
    have texts : pieces ',' (parametersText ps) = ps.map parameterText := by
      apply pieces_intercalate
      · simpa using filled
      · intro text among
        obtain ⟨p, hp, rfl⟩ := List.mem_map.mp among
        exact comma_not_mem_parameterText (each p hp)
    exact ⟨texts, each⟩

/-! ## Salt and tag -/

theorem saltText_eq_ok_iff {s : List Char} : saltText cs = .ok s ↔ s = cs ∧ 4 ≤ octetCount cs ∧ IsValue cs := by
  rw [saltText]
  split
  · rename_i short
    have not_long : ¬ 4 ≤ octetCount cs := Nat.not_le.mpr short
    simp [not_long]
  · rename_i long
    have long' : 4 ≤ octetCount cs := Nat.not_lt.mp long
    rw [and_iff_right long', ← value_eq_ok_iff]
    cases value cs <;> simp [Except.mapError]

theorem octetCount_encode (octets : List UInt8) :
    octetCount (Base64.encode Base64.standard octets) = (4 * octets.length + 2) / 3 := by
  rw [octetCount_of_ascii fun c hc => ascii_of_isValueChar (isValueChar_of_mem_encode hc), Base64.length_encode]

theorem bounded_eq_ok_iff {most : Nat} {octets : List UInt8} : bounded most cs = .ok octets ↔
    cs = Base64.encode Base64.standard octets ∧ octets.length ≤ most := by
  have length {t : List UInt8} (written : cs = Base64.encode Base64.standard t) :
      Base64.decodedLength (octetCount cs) = t.length := by
    rw [written, octetCount_encode, ← Base64.length_encode Base64.standard, Base64.decodedLength_encode]
  constructor
  · intro h
    rw [bounded] at h
    split at h
    · cases h
    rename_i few
    split at h
    · rename_i t decoded
      cases h
      have written := (Base64.encode_of_decode decoded).symm
      exact ⟨written, by rw [← length written]; exact Nat.not_lt.mp few⟩
    · cases h
  · rintro ⟨written, few⟩
    have fits : ¬ most < Base64.decodedLength (octetCount cs) := by
      rw [length written]
      exact Nat.not_lt.mpr few
    rw [bounded, if_neg fits, written, Base64.decode_encode]

theorem tagOf_eq_ok_iff {tag : List UInt8} : tagOf cs = .ok tag ↔
    cs = Base64.encode Base64.standard tag ∧ 10 ≤ tag.length ∧ tag.length ≤ 64 := by
  constructor
  · intro h
    rw [tagOf] at h
    obtain ⟨octets, read, h⟩ := exists_of_bind_eq_ok h
    obtain ⟨written, few⟩ := bounded_eq_ok_iff.mp read
    split at h
    · cases h
    · rename_i enough
      cases h
      exact ⟨written, Nat.not_lt.mp enough, few⟩
  · rintro ⟨written, enough, few⟩
    have read := bounded_eq_ok_iff.mpr ⟨written, few⟩
    rw [tagOf, read, ok_bind, if_neg (Nat.not_lt.mpr enough)]
    rfl

/-! ## Fields -/

def versionFields : Option Nat → List (List Char)
  | none => []
  | some v => ['v' :: '=' :: Decimal.digits v]

def parameterFields (ps : List (List Char × List Char)) : List (List Char) :=
  if ps = [] then [] else [parametersText ps]

def secretFields (salt : Option (List Char)) (tag : Option (List UInt8)) : List (List Char) :=
  salt.toList ++ (tag.map (Base64.encode Base64.standard)).toList

def fields (hash : Phc) : List (List Char) :=
  hash.function :: (versionFields hash.version ++
    (parameterFields hash.parameters ++ secretFields hash.salt hash.tag))

/-- A field that would be taken for the version. -/
def LooksLikeVersion (field : List Char) : Prop :=
  ∃ v, field = 'v' :: '=' :: v ∧ ',' ∉ v

theorem not_looksLikeVersion {field : List Char} (h : '=' ∉ field) : ¬ LooksLikeVersion field := by
  rintro ⟨v, rfl, -⟩
  exact h (List.mem_cons_of_mem 'v' List.mem_cons_self)

theorem isValue_digits {n : Nat} (small : n < Nat.pow 2 32) : IsValue (Decimal.digits n) where
  octets := by
    have ten : n < Nat.pow 10 10 := Nat.lt_trans small (by decide)
    have width := Decimal.length_digits_le (by decide) ten
    rw [octetCount_of_ascii fun c hc => ascii_of_isValueChar (isValueChar_of_mem_digits hc)]
    omega
  chars := fun _ hc => isValueChar_of_mem_digits hc

/-- The version is taken from its own field, and where there is none no field looks like it. -/
theorem takeVersion_eq_ok_iff {fields rest : List (List Char)} {version : Option Nat} :
    takeVersion fields = .ok (version, rest) ↔
      fields = versionFields version ++ rest ∧ (∀ v ∈ version, v < Nat.pow 2 32) ∧
        (version = none → ∀ field ∈ rest.head?, ¬ LooksLikeVersion field) := by
  constructor
  · intro h
    rw [takeVersion.eq_def] at h
    split at h
    · rename_i v more
      split at h
      · rename_i comma
        cases h
        refine ⟨rfl, by simp, ?_⟩
        rintro - field hf ⟨w, same, none⟩
        cases hf
        cases same
        exact none (by simpa using comma)
      · obtain ⟨v', valued, after_value⟩ := exists_of_bind_eq_ok h
        obtain ⟨n, counted, after_decimal⟩ := exists_of_bind_eq_ok after_value
        cases after_decimal
        obtain ⟨rfl, -⟩ := value_eq_ok_iff.mp (ok_of_mapError valued)
        obtain ⟨rfl, small⟩ := decimal_eq_ok_iff.mp (ok_of_mapError counted)
        exact ⟨rfl, by simpa using small, by simp⟩
    · rename_i other
      cases h
      refine ⟨rfl, by simp, ?_⟩
      rintro - field hf ⟨w, rfl, none⟩
      cases fields with
      | nil => cases hf
      | cons first more =>
          cases hf
          exact other w more rfl
  · rintro ⟨rfl, small, unlike⟩
    cases version with
    | some v =>
        have fits := small v rfl
        have no_comma : (Decimal.digits v).contains ',' = false := by
          simpa using (isValue_digits fits).not_mem (by decide)
        have valued := value_eq_ok_iff.mpr ⟨rfl, isValue_digits fits⟩
        have counted := decimal_eq_ok_iff.mpr ⟨rfl, fits⟩
        simp only [versionFields, List.cons_append, List.nil_append, takeVersion, no_comma, valued, counted,
          ok_mapError, ok_bind]
        rfl
    | none =>
        rw [versionFields, List.nil_append, takeVersion.eq_def]
        split
        · rename_i v more
          have comma : ',' ∈ v := by
            apply Classical.byContradiction
            intro none
            exact unlike rfl _ rfl ⟨v, rfl, none⟩
          rw [if_pos (by simpa using comma)]
        · rfl

theorem equals_mem_parametersText {ps : List (List Char × List Char)} (filled : ps ≠ []) :
    '=' ∈ parametersText ps := by
  cases ps with
  | nil => exact absurd rfl filled
  | cons p ps =>
      have first : '=' ∈ parameterText p := List.mem_append_right p.1 List.mem_cons_self
      cases ps with
      | nil => simpa [parametersText] using first
      | cons q ps =>
          rw [parametersText, List.map_cons, List.map_cons, List.intercalate_cons_cons]
          exact List.mem_append_left _ (List.mem_append_left _ first)

/-- The parameters are taken from their own field, and where there are none no equals sign follows. -/
theorem takeParameters_eq_ok_iff {fields rest : List (List Char)} {ps : List (List Char × List Char)} :
    takeParameters fields = .ok (ps, rest) ↔
      fields = parameterFields ps ++ rest ∧ (∀ p ∈ ps, IsParameter p) ∧ octetCount (parametersText ps) ≤ 127 ∧
        (ps = [] → ∀ field ∈ rest.head?, '=' ∉ field) := by
  constructor
  · intro h
    cases fields with
    | nil =>
        cases h
        exact ⟨rfl, by simp, by decide, by simp⟩
    | cons field more =>
        rw [takeParameters] at h
        split at h
        · obtain ⟨read, listed, after_list⟩ := exists_of_bind_eq_ok h
          cases after_list
          obtain ⟨rfl, filled, each, few⟩ := parameterList_eq_ok_iff.mp listed
          refine ⟨?_, each, few, fun none => absurd none filled⟩
          rw [parameterFields, if_neg filled]
          rfl
        · rename_i plain
          cases h
          refine ⟨rfl, by simp, by decide, ?_⟩
          intro _ same hf
          cases hf
          simpa using plain
  · rintro ⟨rfl, each, few, plain⟩
    by_cases none : ps = []
    · subst none
      rw [parameterFields, if_pos rfl, List.nil_append]
      cases rest with
      | nil => rfl
      | cons field more =>
          have unequal : ¬ field.contains '=' = true := by simpa using plain rfl field rfl
          rw [takeParameters, if_neg unequal]
    · have equals : (parametersText ps).contains '=' = true := by simpa using equals_mem_parametersText none
      have listed := parameterList_eq_ok_iff.mpr ⟨rfl, none, each, few⟩
      rw [parameterFields, if_neg none, List.cons_append, List.nil_append, takeParameters, if_pos equals, listed]
      rfl

/-! ## The whole text -/

/-- Salt and tag, which are the last fields. -/
def readSecrets (hash : Phc) : List (List Char) → Except PhcFault Phc
  | [] => return hash
  | salt :: fields => do
    let hash := { hash with salt := some (← saltText salt) }
    match fields with
    | [] => return hash
    | tag :: fields =>
      let hash := { hash with tag := some (← tagOf tag) }
      if fields ≠ [] then throw .trailingField
      return hash

theorem read_of_pieces {function : List Char} {fields : List (List Char)}
    (parts : pieces '$' cs = [] :: function :: fields) : read cs = (do
      let function ← name function
      let (version, fields) ← takeVersion fields
      let (parameters, fields) ← takeParameters fields
      readSecrets ⟨function, version, parameters, none, none⟩ fields) := by
  rw [read, parts]
  rfl

theorem readSecrets_eq_ok_iff {function : List Char} {version : Option Nat}
    {parameters : List (List Char × List Char)} {fields : List (List Char)} {hash : Phc} :
    readSecrets ⟨function, version, parameters, none, none⟩ fields = .ok hash ↔
      hash = ⟨function, version, parameters, hash.salt, hash.tag⟩ ∧ fields = secretFields hash.salt hash.tag ∧
        (∀ s ∈ hash.salt, 4 ≤ octetCount s ∧ IsValue s) ∧
        (∀ t ∈ hash.tag, 10 ≤ t.length ∧ t.length ≤ 64) ∧ (hash.tag.isSome → hash.salt.isSome) := by
  constructor
  · intro h
    cases fields with
    | nil =>
        cases h
        exact ⟨rfl, rfl, by simp, by simp, by simp⟩
    | cons salt fields =>
        obtain ⟨s, salted, after_salt⟩ := exists_of_bind_eq_ok h
        obtain ⟨rfl, long, is_value⟩ := saltText_eq_ok_iff.mp salted
        cases fields with
        | nil =>
            cases after_salt
            exact ⟨rfl, rfl, by simpa using ⟨long, is_value⟩, by simp, by simp⟩
        | cons tag fields =>
            obtain ⟨t, tagged, after_tag⟩ := exists_of_bind_eq_ok after_salt
            split at after_tag
            · cases after_tag
            rename_i nothing
            cases after_tag
            obtain rfl : fields = [] := Classical.not_not.mp nothing
            obtain ⟨rfl, enough, few⟩ := tagOf_eq_ok_iff.mp tagged
            exact ⟨rfl, rfl, by simpa using ⟨long, is_value⟩, by simpa using ⟨enough, few⟩, by simp⟩
  · obtain ⟨_, _, _, salt, tag⟩ := hash
    rintro ⟨same, rfl, salted, tagged, order⟩
    cases same
    cases salt with
    | none =>
        cases tag with
        | none => rfl
        | some t => exact absurd (order rfl) Bool.false_ne_true
    | some s =>
        have salt_read := saltText_eq_ok_iff.mpr ⟨rfl, salted s rfl⟩
        cases tag with
        | none =>
            simp only [secretFields, Option.toList, Option.map, List.append_nil, readSecrets, salt_read, ok_bind]
            rfl
        | some t =>
            have tag_read := tagOf_eq_ok_iff.mpr ⟨rfl, tagged t rfl⟩
            simp only [secretFields, Option.toList, Option.map, List.cons_append, List.nil_append, readSecrets,
              salt_read, tag_read, ok_bind]
            rfl

/-- The parts of a stored hash that its text tells apart. -/
structure WellFormed (hash : Phc) : Prop where
  function : isName hash.function = true
  version : ∀ v ∈ hash.version, v < Nat.pow 2 32
  parameters : ∀ p ∈ hash.parameters, IsParameter p
  octets : octetCount (parametersText hash.parameters) ≤ 127
  unversioned : hash.version = none → ∀ v, hash.parameters ≠ [(['v'], v)]
  salt : ∀ s ∈ hash.salt, 4 ≤ octetCount s ∧ IsValue s
  tag : ∀ t ∈ hash.tag, 10 ≤ t.length ∧ t.length ≤ 64
  tagged : hash.tag.isSome → hash.salt.isSome

theorem write_eq (hash : Phc) : hash.write = ['$'].intercalate ([] :: hash.fields) := by
  have joined (ps : List (List Char)) : ['$'].intercalate ([] :: ps) = ps.flatMap ('$' :: ·) := by
    rw [intercalate_cons]
    rfl
  have each : parameterText = fun p => p.1 ++ '=' :: p.2 := rfl
  obtain ⟨function, version, parameters, salt, tag⟩ := hash
  rw [joined]
  cases version <;> cases parameters <;> cases salt <;> cases tag <;>
    simp [write, fields, versionFields, parameterFields, parametersText, each, secretFields]

theorem WellFormed.secret_chars {hash : Phc} (h : hash.WellFormed) {field : List Char}
    (hf : field ∈ secretFields hash.salt hash.tag) : ∀ c ∈ field, isValueChar c = true := by
  simp only [secretFields, List.mem_append, Option.mem_toList, Option.map_eq_some_iff] at hf
  rcases hf with salted | ⟨t, -, rfl⟩
  · exact (h.salt field salted).2.chars
  · exact fun c hc => isValueChar_of_mem_encode hc

theorem dollar_not_mem {hash : Phc} (h : hash.WellFormed) : ∀ field ∈ hash.fields, '$' ∉ field := by
  intro field hf
  simp only [fields, List.mem_cons, List.mem_append] at hf
  rcases hf with rfl | hf | hf | hf
  · exact not_mem_of_isName h.function (by decide)
  · cases version : hash.version with
    | none => simp [version, versionFields] at hf
    | some v =>
        simp only [version, versionFields, List.mem_singleton] at hf
        subst hf
        have digits := (isValue_digits (h.version v version)).not_mem (c := '$') (by decide)
        simp [digits]
  · rw [parameterFields] at hf
    split at hf
    · cases hf
    · rw [List.mem_singleton.mp hf]
      intro among
      rcases mem_of_mem_intercalate ',' among with comma | ⟨text, ht, among⟩
      · exact absurd comma (by decide)
      · obtain ⟨p, hp, rfl⟩ := List.mem_map.mp ht
        have is_parameter := h.parameters p hp
        simp only [parameterText, List.mem_append, List.mem_cons] at among
        rcases among with inName | equals | inValue
        · exact not_mem_of_isName is_parameter.name (by decide) inName
        · exact absurd equals (by decide)
        · exact is_parameter.value.not_mem (by decide) inValue
  · exact not_mem_of_class (h.secret_chars hf) (by decide)

/-- Without a version neither the parameters nor the salt are taken for one. -/
theorem WellFormed.unlike_version {hash : Phc} (h : hash.WellFormed) (unversioned : hash.version = none) :
    ∀ field ∈ (parameterFields hash.parameters ++ secretFields hash.salt hash.tag).head?,
      ¬ LooksLikeVersion field := by
  intro field hf
  cases listed : hash.parameters with
  | nil =>
      rw [listed, parameterFields, if_pos rfl, List.nil_append] at hf
      exact not_looksLikeVersion (not_mem_of_class (h.secret_chars (List.mem_of_mem_head? hf)) (by decide))
  | cons p ps =>
      rw [listed, parameterFields, if_neg (List.cons_ne_nil p ps)] at hf
      cases hf
      have first := h.parameters p (by rw [listed]; exact List.mem_cons_self)
      rintro ⟨v, same, alone⟩
      cases ps with
      | nil =>
          -- one parameter has one equals sign, so its name is the letter in front of it
          have text : parameterText p = ['v'] ++ '=' :: v := by simpa [parametersText] using same
          have cut_text := cut_append p.2 (not_mem_of_isName first.name (c := '=') (by decide))
          rw [← parameterText, text, cut_append v (by decide)] at cut_text
          have named : p.1 = ['v'] := (congrArg Prod.fst (Option.some.inj cut_text)).symm
          exact h.unversioned unversioned p.2 (by rw [listed, ← named])
      | cons q ps =>
          have comma : ',' ∈ 'v' :: '=' :: v := by
            rw [← same, parametersText]
            exact sep_mem_intercalate ',' (by simp)
          simp only [List.mem_cons] at comma
          rcases comma with letter | equals | later
          · exact absurd letter (by decide)
          · exact absurd equals (by decide)
          · exact alone later

/-- A text is read exactly where it is the written form of a well-formed stored hash, which is what is read. -/
theorem read_eq_ok_iff {hash : Phc} : read cs = .ok hash ↔ hash.WellFormed ∧ cs = hash.write := by
  rw [write_eq]
  constructor
  · intro h
    have joined := intercalate_pieces '$' cs
    cases parts : pieces '$' cs with
    | nil => exact absurd parts (pieces_ne_nil '$' cs)
    | cons front others =>
        cases front with
        | cons c front =>
            rw [read, parts] at h
            cases h
        | nil =>
            cases others with
            | nil =>
                rw [read, parts] at h
                cases h
            | cons function fields =>
                rw [read_of_pieces parts] at h
                obtain ⟨name, named, after_name⟩ := exists_of_bind_eq_ok h
                obtain ⟨⟨version, fields₁⟩, versioned, after_version⟩ := exists_of_bind_eq_ok after_name
                obtain ⟨⟨ps, fields₂⟩, listed, secrets⟩ := exists_of_bind_eq_ok after_version
                obtain ⟨rfl, is_name⟩ := name_eq_ok_iff.mp named
                obtain ⟨rfl, small, unlike⟩ := takeVersion_eq_ok_iff.mp versioned
                obtain ⟨rfl, each, few, plain⟩ := takeParameters_eq_ok_iff.mp listed
                obtain ⟨same, rfl, salted, tagged, order⟩ := readSecrets_eq_ok_iff.mp secrets
                rw [same]
                refine ⟨⟨is_name, small, each, few, ?_, salted, tagged, order⟩, ?_⟩
                · -- a lone parameter of this name would have been taken for the version
                  rintro none v rfl
                  have is_parameter := each (['v'], v) List.mem_cons_self
                  refine unlike none (parametersText [(['v'], v)]) rfl ⟨v, ?_, is_parameter.value.not_mem (by decide)⟩
                  simp [parametersText, parameterText]
                · rw [← joined, parts]
                  rfl
  · rintro ⟨h, rfl⟩
    have parts : pieces '$' (['$'].intercalate ([] :: hash.fields)) = [] :: hash.fields := by
      apply pieces_intercalate '$' (List.cons_ne_nil _ _)
      intro field hf
      rcases List.mem_cons.mp hf with rfl | hf
      · exact List.not_mem_nil
      · exact dollar_not_mem h field hf
    have named := name_eq_ok_iff.mpr ⟨rfl, h.function⟩
    have versioned := takeVersion_eq_ok_iff.mpr ⟨rfl, h.version, h.unlike_version⟩
    have plain : hash.parameters = [] → ∀ field ∈ (secretFields hash.salt hash.tag).head?, '=' ∉ field :=
      fun _ field hf => not_mem_of_class (h.secret_chars (List.mem_of_mem_head? hf)) (by decide)
    have listed := takeParameters_eq_ok_iff.mpr ⟨rfl, h.parameters, h.octets, plain⟩
    have secrets := readSecrets_eq_ok_iff.mpr ⟨rfl, rfl, h.salt, h.tag, h.tagged⟩
    rw [read_of_pieces parts, named, ok_bind, versioned, ok_bind]
    simp only [listed, ok_bind, secrets]

end Gatehouse.Password.Phc
