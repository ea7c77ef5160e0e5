import Gatehouse.Proofs.Auth.Lifetimes

/-! # Expiries that have a name

Settings are accepted with any number of days above zero. Whether sessions can live for so many days is found out
later, and twice. Their milliseconds are counted in 64 bits: where that fails there is no policy, and nothing
starts. And the expiry of a session must be an instant of the calendar: where it is not, a login with the right
password gets no answer. Both bounds are exact here, and so is how long a life time may be for the instant of the
login not to matter.
-/

namespace Gatehouse

open Gatehouse.Auth Gatehouse.Store Gatehouse.Time

/-- The years of four digits, told in seconds. -/
theorem Time.Instant.dated_iff {t : Instant} : t.Dated ↔ -62167219200 ≤ t.seconds ∧ t.seconds ≤ 253402300799 := by
  have first : Date.ofDayNumber (-719528) = ⟨0, 1, 1⟩ := by decide
  have last : Date.ofDayNumber 2932896 = ⟨9999, 12, 31⟩ := by decide
  have before : t.date.Before ⟨0, 1, 1⟩ ↔ t.seconds.fdiv day < -719528 := by
    rw [← first]
    exact Date.ofDayNumber_before_iff
  have behind : Date.Before ⟨9999, 12, 31⟩ t.date ↔ 2932896 < t.seconds.fdiv day := by
    rw [← last]
    exact Date.ofDayNumber_before_iff
  obtain ⟨firstMonth, lastMonth, firstDay, -⟩ := Rfc3339.valid_date t
  have lastDay := Rfc3339.day_le t
  have whole := Rfc3339.seconds_eq t
  have within := Rfc3339.secondOfDay_lt t
  simp only [Date.Before] at before behind
  simp only [Dated]
  omega

namespace Auth

/-! ## The two bounds -/

/-- A life time is counted in milliseconds, in 64 bits. -/
theorem SessionPolicy.ofDays?_eq_none_iff {days : Int} (forward : 0 < days) :
    ofDays? days = none ↔ 9223372036854775807 < days * 86400000 := by
  simp only [ofDays?, mostDays, dite_eq_right_iff, reduceCtorEq, imp_false]
  omega

/-- An expiry has a name up to the last second of the calendar. -/
theorem SessionPolicy.expiry?_eq_none_iff {policy : SessionPolicy} (forward : 0 < policy.days) {now : Instant}
    (dated : now.Dated) (short : now.nanos < 2 * Instant.second) :
    policy.expiry? now = none ↔ Instant.lastSecond < now.seconds + policy.seconds := by
  obtain ⟨early, -⟩ := Instant.dated_iff.mp dated
  have representable : ∀ nanos < 2 * Instant.second,
      Instant.Representable ⟨now.seconds + policy.seconds, nanos⟩ ↔
        now.seconds + policy.seconds ≤ Instant.lastSecond := by
    intro nanos small
    simp only [Instant.Representable, Instant.firstSecond, seconds, Instant.day] at small ⊢
    omega
  have moved : policy.expiry? now =
      if Instant.Representable ⟨now.seconds + policy.seconds,
          if now.nanos < Instant.second then now.nanos else now.nanos - Instant.second⟩ then
        some ⟨now.seconds + policy.seconds,
          if now.nanos < Instant.second then now.nanos else now.nanos - Instant.second⟩
      else
        none := by
    have away : policy.days ≠ 0 := by omega
    simp only [expiry?, Instant.addDays?, away, or_false, if_pos forward, seconds]
    split <;> rfl
  rw [moved, ite_eq_right_iff]
  simp only [reduceCtorEq, imp_false]
  rw [representable _ (by split <;> omega), Int.not_le]

/-- A login gets no answer when the password is right and the expiry has no name. -/
theorem Service.signIn_eq_none_iff {service : Service} {now noted : Instant} {token clientIp : String}
    {request : LoginRequest} {db : Database} : service.signIn now noted token request clientIp db = none ↔
      (∃ user, service.credentials request db = .ok user) ∧ service.policy.expiry? now = none := by
  rw [signIn]
  cases service.credentials request db with
  | error e => simp
  | ok user => simp [Draft.issue?]

end Auth

namespace Settings

/-! ## What accepted settings promise -/

/--
Settings that are accepted have a policy unless the milliseconds of the life time exceed 64 bits. With a policy the
seconds of the life time are what they should be, and an expiry has no name where it would be after the end of the
calendar: then logins with the right password, and no others, get no answer. For every login in the years of four
digits to have an expiry the days must be 92093340 at most, and with more than 95745764 none of them has one.
-/
theorem expiry_bounds {settings : Settings} (checked : settings.check = .ok ()) :
    (settings.session.policy? = none ↔ 9223372036854775807 < settings.session.days * 86400000) ∧
    ∀ service : Service, settings.session.policy? = some service.policy →
      service.policy.seconds = settings.session.days * 86400 ∧
      (∀ now : Instant, now.Dated → now.nanos < 2 * Instant.second →
        (service.policy.expiry? now = none ↔
          Instant.lastSecond < now.seconds + settings.session.days * 86400) ∧
        ∀ noted token request clientIp db, service.signIn now noted token request clientIp db = none ↔
          (∃ user, service.credentials request db = .ok user) ∧
            Instant.lastSecond < now.seconds + settings.session.days * 86400) ∧
      ((∀ now : Instant, now.Dated → now.nanos < 2 * Instant.second → service.policy.expiry? now ≠ none) ↔
        settings.session.days ≤ 92093340) ∧
      ((∀ now : Instant, now.Dated → now.nanos < 2 * Instant.second → service.policy.expiry? now = none) ↔
        95745764 < settings.session.days) := by
  have forward := days_pos_of_check checked
  refine ⟨SessionPolicy.ofDays?_eq_none_iff forward, ?_⟩
  intro service policy
  have days : service.policy.days = settings.session.days := SessionPolicy.days_of_ofDays? policy
  have seconds : service.policy.seconds = settings.session.days * 86400 := by
    rw [SessionPolicy.seconds, days]
  have unnamed : ∀ now : Instant, now.Dated → now.nanos < 2 * Instant.second →
      (service.policy.expiry? now = none ↔
        Instant.lastSecond < now.seconds + settings.session.days * 86400) := by
    intro now dated short
    rw [← seconds]
    exact SessionPolicy.expiry?_eq_none_iff (days.symm ▸ forward) dated short
  have end_of_time : Instant.lastSecond = 8210266876799 := rfl
  refine ⟨seconds, ?_, ?_, ?_⟩
  · intro now dated short
    refine ⟨unnamed now dated short, fun noted token request clientIp db => ?_⟩
    rw [Service.signIn_eq_none_iff, unnamed now dated short]
  · constructor
    · -- the last second of the years of four digits is the one that decides
      intro always
      have dated : Instant.Dated ⟨253402300799, 0⟩ := Instant.dated_iff.mpr (by decide)
      have named := always ⟨253402300799, 0⟩ dated (by decide)
      rw [ne_eq, unnamed _ dated (by decide), end_of_time, Int.not_lt] at named
      simp only at named
      omega
    · intro few now dated short
      have late := (Instant.dated_iff.mp dated).2
      rw [ne_eq, unnamed now dated short, end_of_time]
      omega
  · constructor
    · -- and here it is the first
      intro never
      have dated : Instant.Dated ⟨-62167219200, 0⟩ := Instant.dated_iff.mpr (by decide)
      have lost := never ⟨-62167219200, 0⟩ dated (by decide)
      rw [unnamed _ dated (by decide), end_of_time] at lost
      simp only at lost
      omega
    · intro many now dated short
      have early := (Instant.dated_iff.mp dated).1
      rw [unnamed now dated short, end_of_time]
      omega

/-- The longest life time with which every login has an expiry. -/
def longest : Settings :=
  { session := { days := 92093340 } }

/-- At the end of the year 9999, in a leap second, it reaches the end of the calendar. -/
theorem expiry_bounds_longest :
    let service : Service := { Service.plain with policy := ⟨92093340, by decide⟩ }
    longest.check = .ok () ∧ longest.session.policy? = some service.policy ∧
      service.policy.seconds = 7956864576000 ∧
      Instant.Dated ⟨253402300799, 1999999999⟩ ∧ service.policy.expiry? ⟨253402300799, 1999999999⟩ ≠ none := by
  intro service
  have checked : longest.check = .ok () := by rfl
  have policy : longest.session.policy? = some service.policy := by rfl
  have dated : Instant.Dated ⟨253402300799, 1999999999⟩ := Instant.dated_iff.mpr (by decide)
  obtain ⟨_, bounds⟩ := expiry_bounds checked
  obtain ⟨seconds, _, always, _⟩ := bounds service policy
  exact ⟨checked, policy, seconds, dated, always.mpr (by decide) _ dated (by decide)⟩

/-- As many days as 64 bits can hold. -/
def boundless : Settings :=
  { session := { days := 9223372036854775807 } }

/-- A hundred million days. -/
def endless : Settings :=
  { session := { days := 100000000 } }

/-- Both are accepted. The first have no policy; with the others Ada logs in and gets no answer. -/
theorem no_expiry_endless :
    let service : Service := { Service.plain with policy := ⟨100000000, by decide⟩ }
    let db := (Database.empty {}).run Service.adaVerified
    boundless.check = .ok () ∧ boundless.session.policy? = none ∧
      endless.check = .ok () ∧ endless.session.policy? = some service.policy ∧
      Instant.epoch.Dated ∧ service.policy.expiry? .epoch = none ∧
      service.signIn .epoch .epoch "token" ⟨"ada", "engine"⟩ "::1" db = none := by
  intro service db
  have dated : Instant.epoch.Dated := Instant.dated_iff.mpr (by decide)
  have unnamed : service.policy.expiry? .epoch = none :=
    (SessionPolicy.expiry?_eq_none_iff (by decide) dated (by decide)).mpr (by decide)
  have passed : (service.credentials ⟨"ada", "engine"⟩ db).toOption.isSome = true := by decide +kernel
  obtain ⟨user, credentials⟩ := Option.isSome_iff_exists.mp passed
  refine ⟨by rfl, by rfl, by rfl, by rfl, dated, unnamed, ?_⟩
  exact Service.signIn_eq_none_iff.mpr ⟨⟨user, eq_ok_of_toOption credentials⟩, unnamed⟩

end Settings

end Gatehouse
