import Gatehouse.Password.Hashing
import Gatehouse.Proofs.Password.Argon2
import Gatehouse.Proofs.Password.StoredText

/-! # What a stored hash verifies

Of a stored hash everything is taken from its own text: the function, the version, the costs, the salt and the
length of the tag; only for what it does not name there are usual values. So a new hash verifies the passwords of
its tag, and no text verifies a password of which it does not hold the tag. Nothing is assumed of the derivation
but the length of what it makes.
-/

namespace Gatehouse.Password

open Gatehouse.Text

/-! ## Costs -/

namespace Costs

variable {costs costs' : Costs} {name value : List Char}

/-- A parameter sets one cost, or is a number of a key, which sets none. -/
theorem with_cases (h : costs.with name value = .ok costs') :
    (∃ n, name = ['m'] ∧ value = Decimal.digits n ∧ n < Nat.pow 2 32 ∧ costs' = { costs with memory := n }) ∨
      (∃ n, name = ['t'] ∧ value = Decimal.digits n ∧ n < Nat.pow 2 32 ∧ costs' = { costs with passes := n }) ∨
      (∃ n, name = ['p'] ∧ value = Decimal.digits n ∧ n < Nat.pow 2 32 ∧ costs' = { costs with lanes := n }) ∨
      (name = ['k', 'e', 'y', 'i', 'd'] ∧ costs' = costs) ∨
      ∃ octets, name = ['d', 'a', 't', 'a'] ∧ value = Base64.encode Base64.standard octets ∧
        costs' = { costs with data := octets } := by
  have number {n : Nat} (read : (Phc.decimal value).mapError PhcFault.badValue = .ok n) :
      value = Decimal.digits n ∧ n < Nat.pow 2 32 :=
    Phc.decimal_eq_ok_iff.mp (ok_of_mapError read)
  simp only [Costs.with] at h
  split at h
  · rename_i named
    obtain ⟨n, read, after⟩ := exists_of_bind_eq_ok h
    cases after
    exact Or.inl ⟨n, named, (number read).1, (number read).2, rfl⟩
  split at h
  · rename_i named
    obtain ⟨n, read, after⟩ := exists_of_bind_eq_ok h
    cases after
    exact Or.inr (Or.inl ⟨n, named, (number read).1, (number read).2, rfl⟩)
  split at h
  · rename_i named
    obtain ⟨n, read, after⟩ := exists_of_bind_eq_ok h
    cases after
    exact Or.inr (Or.inr (Or.inl ⟨n, named, (number read).1, (number read).2, rfl⟩))
  split at h
  · rename_i named
    obtain ⟨_, -, after⟩ := exists_of_bind_eq_ok h
    cases after
    exact Or.inr (Or.inr (Or.inr (Or.inl ⟨named, rfl⟩)))
  split at h
  · rename_i named
    obtain ⟨octets, read, after⟩ := exists_of_bind_eq_ok h
    cases after
    exact Or.inr (Or.inr (Or.inr (Or.inr ⟨octets, named, (Phc.bounded_eq_ok_iff.mp read).1, rfl⟩)))
  · cases h

/-- The text of a cost, by the name of its parameter. -/
def text (costs : Costs) (key : List Char) : List Char :=
  if key = ['m'] then Decimal.digits costs.memory
  else if key = ['t'] then Decimal.digits costs.passes
  else if key = ['p'] then Decimal.digits costs.lanes
  else if key = ['d', 'a', 't', 'a'] then Base64.encode Base64.standard costs.data
  else []

theorem text_memory (costs : Costs) : costs.text ['m'] = Decimal.digits costs.memory := rfl

theorem text_passes (costs : Costs) : costs.text ['t'] = Decimal.digits costs.passes := rfl

theorem text_lanes (costs : Costs) : costs.text ['p'] = Decimal.digits costs.lanes := rfl

theorem text_data (costs : Costs) : costs.text ['d', 'a', 't', 'a'] = Base64.encode Base64.standard costs.data := rfl

theorem text_with (h : costs.with name value = .ok costs') {key : List Char} (ne : key ≠ ['k', 'e', 'y', 'i', 'd']) :
    costs'.text key = if name = key then value else costs.text key := by
  rcases with_cases h with ⟨n, rfl, rfl, -, rfl⟩ | ⟨n, rfl, rfl, -, rfl⟩ | ⟨n, rfl, rfl, -, rfl⟩ | ⟨rfl, rfl⟩ |
    ⟨octets, rfl, rfl, rfl⟩
  all_goals
    simp only [text]
    grind

/-- Of the parameters of a name the last one counts. -/
theorem text_of_parameters {parameters : List (List Char × List Char)}
    (h : parameters.foldlM (fun costs (n, v) => costs.with n v) costs = .ok costs') {key : List Char}
    (ne : key ≠ ['k', 'e', 'y', 'i', 'd']) :
    costs'.text key = (parameters.reverse.lookup key).getD (costs.text key) := by
  induction parameters generalizing costs with
  | nil =>
      cases h
      rfl
  | cons p parameters ih =>
      obtain ⟨name, value⟩ := p
      rw [List.foldlM_cons] at h
      obtain ⟨between, first, rest⟩ := exists_of_bind_eq_ok h
      rw [ih rest, text_with first ne, List.reverse_cons, List.lookup_append]
      cases parameters.reverse.lookup key with
      | some v => rfl
      | none =>
          by_cases same : name = key
          · simp [same]
          · have other : (key == name) = false := by simpa using Ne.symm same
            simp [same, List.lookup_cons, other]

end Costs

/-! ## The job of a stored hash -/

/-- The text of a parameter, or that of its usual value. -/
def Phc.parameterOr (hash : Phc) (name usual : List Char) : List Char :=
  (hash.parameters.reverse.lookup name).getD usual

/--
What a stored hash says of the job of its tag. Numbers and octets are told by the texts that they are written as;
where a parameter stands twice, the last one counts.
-/
structure Phc.Describes (hash : Phc) (job : Argon2.Job) : Prop where
  function : hash.function = job.variant.name.toList
  version : hash.version.getD 19 = job.version.number
  memory : hash.parameterOr ['m'] (Decimal.digits 19456) = Decimal.digits job.memory
  passes : hash.parameterOr ['t'] (Decimal.digits 2) = Decimal.digits job.passes
  lanes : hash.parameterOr ['p'] (Decimal.digits 1) = Decimal.digits job.lanes
  data : hash.parameterOr ['d', 'a', 't', 'a'] [] = Base64.encode Base64.standard job.data
  salt : hash.salt = some (Base64.encode Base64.standard job.salt)

theorem variantOf_name (variant : Argon2.Variant) : variantOf variant.name.toList = .ok variant := by
  cases variant <;> decide

theorem versionOf_number (version : Argon2.Version) : versionOf (some version.number) = .ok version := by
  cases version <;> decide

theorem variant_of_variantOf {name : List Char} {variant : Argon2.Variant} (h : variantOf name = .ok variant) :
    name = variant.name.toList := by
  rw [variantOf] at h
  split at h
  · rename_i found
    cases h
    have same := List.find?_some found
    exact (of_decide_eq_true same).symm
  · cases h

theorem version_of_versionOf {version? : Option Nat} {version : Argon2.Version} (h : versionOf version? = .ok version) :
    version?.getD 19 = version.number := by
  cases version? with
  | none =>
      cases h
      rfl
  | some n =>
      rw [versionOf] at h
      split at h
      · rename_i found
        cases h
        have same := List.find?_some found
        exact (of_decide_eq_true same).symm
      · cases h

theorem salt_of_saltOf {salt : List Char} {octets : List UInt8} (h : saltOf salt = .ok octets) :
    salt = Base64.encode Base64.standard octets := by
  rw [saltOf] at h
  split at h
  · cases h
  rename_i decoded
  split at h
  · cases h
  · cases h
    exact (Base64.encode_of_decode decoded).symm

/-- The job that is done is the one that the stored hash describes. -/
theorem describes_of_jobOf {stored : Phc} {salt : List Char} {password : String} {length : Nat} {job : Argon2.Job}
    (salted : stored.salt = some salt) (h : jobOf stored salt password length = .ok job) :
    stored.Describes job ∧ job.password = utf8 password ∧ job.length = length := by
  obtain ⟨costs, counted, after_costs⟩ := exists_of_bind_eq_ok h
  obtain ⟨variant, named, after_variant⟩ := exists_of_bind_eq_ok after_costs
  obtain ⟨version, numbered, after_version⟩ := exists_of_bind_eq_ok after_variant
  obtain ⟨octets, decoded, after_salt⟩ := exists_of_bind_eq_ok after_version
  cases after_salt
  obtain ⟨_, folded, after_fold⟩ := exists_of_bind_eq_ok counted
  obtain ⟨_, -, after_check⟩ := exists_of_bind_eq_ok after_fold
  cases after_check
  refine ⟨?_, rfl, rfl⟩
  constructor
  case function => exact variant_of_variantOf named
  case version => exact version_of_versionOf numbered
  case memory =>
    rw [← costs.text_memory, Costs.text_of_parameters folded (by decide), Costs.text_memory]
    rfl
  case passes =>
    rw [← costs.text_passes, Costs.text_of_parameters folded (by decide), Costs.text_passes]
    rfl
  case lanes =>
    rw [← costs.text_lanes, Costs.text_of_parameters folded (by decide), Costs.text_lanes]
    rfl
  case data =>
    rw [← costs.text_data, Costs.text_of_parameters folded (by decide), Costs.text_data]
    rfl
  case salt => rw [salted, salt_of_saltOf decoded]

/-! ## New hashes -/

variable {job : Argon2.Job} {tag : List UInt8}

/-- Numbers of 32 bits, a lane at least, and no data: the costs that can be written down. -/
structure Plain (job : Argon2.Job) : Prop where
  memory : job.memory < Nat.pow 2 32
  passes : job.passes < Nat.pow 2 32
  lanes : job.lanes < Nat.pow 2 32
  check : Costs.check ⟨job.memory, job.passes, job.lanes, []⟩ = .ok ()
  data : job.data = []
  salt : 8 ≤ job.salt.length ∧ job.salt.length ≤ 48

theorem costs_phcOf (h : Plain job) :
    Costs.ofParameters (phcOf job tag).parameters = .ok ⟨job.memory, job.passes, job.lanes, []⟩ := by
  have number {n : Nat} (small : n < Nat.pow 2 32) : Phc.decimal (Decimal.digits n) = .ok n :=
    Phc.decimal_eq_ok_iff.mpr ⟨rfl, small⟩
  have folded : (phcOf job tag).parameters.foldlM (fun costs (n, v) => costs.with n v) Costs.unnamed =
      .ok ⟨job.memory, job.passes, job.lanes, []⟩ := by
    simp [phcOf, Costs.with, number h.memory, number h.passes, number h.lanes, Costs.unnamed, pure, Except.pure]
  rw [Costs.ofParameters, folded, ok_bind, h.check]
  rfl

/-- Of the stored form of a job the same job is made, for any password. -/
theorem jobOf_phcOf (h : Plain job) (password : String) :
    jobOf (phcOf job tag) (Base64.encode Base64.standard job.salt) password job.length =
      .ok { job with password := utf8 password } := by
  have variant : variantOf (phcOf job tag).function = .ok job.variant := variantOf_name job.variant
  have version : versionOf (phcOf job tag).version = .ok job.version := versionOf_number job.version
  have salt : saltOf (Base64.encode Base64.standard job.salt) = .ok job.salt := by
    rw [saltOf, Base64.decode_encode]
    exact if_neg (Nat.not_lt.mpr h.salt.1)
  rw [jobOf, costs_phcOf h, ok_bind, variant, ok_bind, version, ok_bind, salt]
  simp only [ok_bind, ← h.data]
  rfl

theorem plain_newJob (password : String) {salt : List UInt8} (h : salt.length = 16) : Plain (newJob password salt) where
  memory := show Costs.standard.memory < Nat.pow 2 32 by decide
  passes := show Costs.standard.passes < Nat.pow 2 32 by decide
  lanes := show Costs.standard.lanes < Nat.pow 2 32 by decide
  check := show Costs.standard.check = .ok () by decide
  data := rfl
  salt := by
    simp only [newJob, h]
    decide

theorem isParameter_of_mem_phcOf (h : Plain job) : ∀ p ∈ (phcOf job tag).parameters, Phc.IsParameter p := by
  intro p hp
  have each : p = (['m'], Decimal.digits job.memory) ∨ p = (['t'], Decimal.digits job.passes) ∨
      p = (['p'], Decimal.digits job.lanes) := by simpa [phcOf] using hp
  rcases each with rfl | rfl | rfl
  · exact ⟨show Phc.isName ['m'] = true by decide, Phc.isValue_digits h.memory⟩
  · exact ⟨show Phc.isName ['t'] = true by decide, Phc.isValue_digits h.passes⟩
  · exact ⟨show Phc.isName ['p'] = true by decide, Phc.isValue_digits h.lanes⟩

/-- What is written down for a new hash: the costs in digits, the salt and the tag. -/
theorem phcOf_newJob (password : String) (salt tag : List UInt8) :
    phcOf (newJob password salt) tag =
      { function := "argon2id".toList
        version := some 19
        parameters := [(['m'], "65536".toList), (['t'], ['3']), (['p'], ['1'])]
        salt := some (Base64.encode Base64.standard salt)
        tag := some tag } := by
  have memory : Decimal.digits 65536 = "65536".toList := by decide +kernel
  have passes : Decimal.digits 3 = ['3'] := by decide +kernel
  have lanes : Decimal.digits 1 = ['1'] := by decide +kernel
  simp only [phcOf, newJob, Costs.standard, memory, passes, lanes]
  rfl

theorem wellFormed_phcOf (password : String) {salt tag : List UInt8} (salted : salt.length = 16)
    (tagged : tag.length = 32) : (phcOf (newJob password salt) tag).WellFormed := by
  have parameters : ∀ p ∈ (phcOf (newJob password salt) tag).parameters, Phc.IsParameter p :=
    isParameter_of_mem_phcOf (plain_newJob password salted)
  rw [phcOf_newJob] at parameters ⊢
  constructor
  case function => exact show Phc.isName "argon2id".toList = true by decide
  case version =>
    rintro v ⟨⟩
    decide
  case parameters => exact parameters
  case octets =>
    have count : octetCount (Phc.parametersText [(['m'], "65536".toList), (['t'], ['3']), (['p'], ['1'])]) ≤ 127 := by
      decide
    exact count
  case unversioned => exact fun unversioned => absurd unversioned (Option.some_ne_none 19)
  case salt =>
    rintro s ⟨⟩
    have octets : octetCount (Base64.encode Base64.standard salt) = 22 := by rw [Phc.octetCount_encode, salted]
    refine ⟨by omega, by omega, fun c hc => Phc.isValueChar_of_mem_encode hc⟩
  case tag =>
    rintro t ⟨⟩
    omega
  case tagged => exact fun _ => rfl

/-! ## Verification -/

section Verify

variable {derive : Derivation} {guess stored : String} {phc : Phc} {salt : List Char} {tag : List UInt8}

theorem verify_of_jobOf {job : Argon2.Job} (read : Phc.read stored.toList = .ok phc) (salted : phc.salt = some salt)
    (tagged : phc.tag = some tag) (same : jobOf phc salt guess tag.length = .ok job) :
    verify derive guess stored = .ok (decide (derive job = tag)) := by
  simp only [verify, read, salted, tagged, same]

theorem verify_of_missing (read : Phc.read stored.toList = .ok phc) (missing : phc.salt = none ∨ phc.tag = none) :
    verify derive guess stored = .ok false := by
  rw [verify, read]
  obtain ⟨function, version, parameters, salt, tag⟩ := phc
  rcases missing with rfl | rfl
  · cases tag <;> rfl
  · cases salt <;> rfl

theorem exists_of_verify (h : verify derive guess stored = .ok true) : ∃ phc salt tag job,
    Phc.read stored.toList = .ok phc ∧ phc.salt = some salt ∧ phc.tag = some tag ∧
      jobOf phc salt guess tag.length = .ok job ∧ derive job = tag := by
  rw [verify] at h
  split at h
  · cases h
  rename_i phc read
  split at h
  · rename_i salt tag salted tagged
    split at h
    · cases h
    · rename_i job same
      exact ⟨phc, salt, tag, job, read, salted, tagged, same, of_decide_eq_true (Except.ok.inj h)⟩
  · cases h

end Verify

/--
A new hash is read back part by part, and verifies exactly the passwords that have its tag under its costs. Whatever is
stored, a password is verified only by a text that holds the tag of the job which this text itself describes; a text
without a salt or without a tag verifies none.
-/
theorem stored_hashes {derive : Derivation} (sized : ∀ job, (derive job).length = job.length) :
    (∀ (password : String) (salt : List UInt8), salt.length = 16 →
      ∃ tag, tag = derive (newJob password salt) ∧ tag.length = 32 ∧
        Phc.read (hash derive password salt).toList = .ok
          { function := "argon2id".toList
            version := some 19
            parameters := [(['m'], "65536".toList), (['t'], ['3']), (['p'], ['1'])]
            salt := some (Base64.encode Base64.standard salt)
            tag := some tag } ∧
        ∀ guess, verify derive guess (hash derive password salt) = .ok (decide (derive (newJob guess salt) = tag))) ∧
      (∀ guess stored, verify derive guess stored = .ok true →
        ∃ phc tag job, Phc.read stored.toList = .ok phc ∧ stored.toList = phc.write ∧ phc.tag = some tag ∧
          phc.Describes job ∧ job.password = utf8 guess ∧ job.length = tag.length ∧ derive job = tag) ∧
      ∀ guess stored phc, Phc.read stored.toList = .ok phc → phc.salt = none ∨ phc.tag = none →
        verify derive guess stored = .ok false := by
  refine ⟨?_, ?_, fun guess stored phc read missing => verify_of_missing read missing⟩
  · intro password salt salted
    have tagged : (derive (newJob password salt)).length = 32 := sized (newJob password salt)
    have text : (hash derive password salt).toList =
        (phcOf (newJob password salt) (derive (newJob password salt))).write := String.toList_ofList
    have read : Phc.read (hash derive password salt).toList =
        .ok (phcOf (newJob password salt) (derive (newJob password salt))) :=
      Phc.read_eq_ok_iff.mpr ⟨wellFormed_phcOf password salted tagged, text⟩
    refine ⟨derive (newJob password salt), rfl, tagged, ?_, ?_⟩
    · rw [read, phcOf_newJob]
    · intro guess
      have same : jobOf (phcOf (newJob password salt) (derive (newJob password salt)))
          (Base64.encode Base64.standard salt) guess 32 = .ok (newJob guess salt) :=
        jobOf_phcOf (plain_newJob password salted) guess
      exact verify_of_jobOf read rfl rfl (tagged.symm ▸ same)
  · intro guess stored verified
    obtain ⟨phc, salt, tag, job, read, salted, tagged, same, derived⟩ := exists_of_verify verified
    obtain ⟨described, password, length⟩ := describes_of_jobOf salted same
    exact ⟨phc, tag, job, read, (Phc.read_eq_ok_iff.mp read).2, tagged, described, password, length, derived⟩

theorem stored_hashes_of_argon2 : (∀ job, (Argon2.tag job).length = job.length) ∧
    (List.replicate 16 (7 : UInt8)).length = 16 ∧
    ∀ guess, verify Argon2.tag guess (hash Argon2.tag "geheim" (List.replicate 16 7)) =
      .ok (decide (Argon2.tag (newJob guess (List.replicate 16 7)) =
        Argon2.tag (newJob "geheim" (List.replicate 16 7)))) := by
  obtain ⟨tag, rfl, -, -, verified⟩ := (stored_hashes Argon2.length_tag).1 "geheim" (List.replicate 16 7) (by decide)
  exact ⟨Argon2.length_tag, by decide, verified⟩

end Gatehouse.Password
