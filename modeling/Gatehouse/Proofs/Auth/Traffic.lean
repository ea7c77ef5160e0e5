import Gatehouse.Proofs.Auth.Registering

/-! # Requests in flight together

Any number of requests are between their two steps, and the next step may be one of any of them. What the
first step of a request has found may no longer be true when its second one is made: a name may have been
taken, a user deleted. Only what never changes of a user is relied on between the two, and so every step
is still one of the turns of a journal, and no answer is one that the store had to fail for.
-/

namespace Gatehouse.Auth

open Gatehouse.Store Gatehouse.Text Gatehouse.Time

/-- A journal and the requests that are between their steps, in the order in which they came. -/
structure Traffic where
  journal : Journal
  pending : List Pending

namespace Service

/--
One step of one request. Two things are assumed of what is drawn from outside and of nothing else: every
reading of the clock shows a year of four digits (`dated`), and the token drawn for a second step is none
that a session has (`fresh`). Which request goes on is open, and no clock need be behind an earlier one.
-/
inductive Step (service : Service) : Traffic → Traffic → Prop
  /-- A request comes and is answered at once. -/
  | answer (t : Traffic) (request : Request) {now : Instant} {answer : Answer} {db : Database}
      (dated : now.Dated)
      (done : service.begin now request t.journal.db = (.answered answer, db)) :
      Step service t ⟨⟨db, t.journal.log ++ [(request, answer)]⟩, t.pending⟩
  /-- A request comes and is left with its second step to make. -/
  | wait (t : Traffic) (request : Request) {now : Instant} {rest : Pending} {db : Database}
      (dated : now.Dated)
      (goesOn : service.begin now request t.journal.db = (.pending rest, db)) :
      Step service t ⟨⟨db, t.journal.log⟩, t.pending ++ [rest]⟩
  /-- A request makes its second step and is answered. -/
  | finish (t : Traffic) (earlier later : List Pending) {rest : Pending} {draw : Draw}
      {answer : Answer} {db : Database} (waiting : t.pending = earlier ++ rest :: later)
      (dated : draw.Dated) (fresh : ∀ s ∈ t.journal.db.sessions.rows, s.token ≠ draw.token)
      (done : service.finish draw rest t.journal.db = some (answer, db)) :
      Step service t ⟨⟨db, t.journal.log ++ [(rest.request, answer)]⟩, earlier ++ later⟩

/-- What steps lead to from a store without rows. -/
inductive Reaches (service : Service) (names : TableNames) : Traffic → Prop
  | start : Reaches service names ⟨Journal.start names, []⟩
  | step {t t' : Traffic} : Reaches service names t → service.Step t t' → Reaches service names t'

end Service

/-! ## Answers that come from the store -/

section Answers

variable {service : Service} {db : Database}

theorem fault?_of_begin (legible : db.Legible) (h : db.Ready) {now : Instant} {request : Request}
    {answer : Answer} {db' : Database} (done : service.begin now request db = (.answered answer, db')) :
    answer.fault? = none := by
  cases request with
  | register r clientIp =>
      rw [Service.begin] at done
      rcases Service.permit_cases legible h r with ⟨why, _, hp⟩ | ⟨_, _, hp⟩ | ⟨_, _, hp⟩ <;>
        rw [hp] at done <;> cases done <;> rfl
  | signIn login clientIp =>
      rw [Service.begin] at done
      cases hc : service.credentials login db with
      | ok user => rw [hc] at done; cases done
      | error e =>
          have other := Service.credentials_ne_store service legible h login
          rw [hc] at done other
          cases done
          cases e with
          | store cause => exact absurd rfl (other cause)
          | _ => rfl
  | activate id =>
      rw [Service.begin] at done
      cases hf : Service.findAccount id db with
      | ok => rw [hf] at done; cases done
      | error e =>
          have other := Service.findAccount_ne_store legible h id
          rw [hf] at done other
          cases done
          cases e with
          | store cause => exact absurd rfl (other cause)
          | _ => rfl
  | authenticate token =>
      cases done
      have other := Service.authenticate_ne_store legible h now token
      cases ha : Service.authenticate now token db with
      | ok user => rfl
      | error e =>
          rw [ha] at other
          cases e with
          | store cause => exact absurd rfl (other cause)
          | _ => rfl
  | softDelete id =>
      rw [Service.begin, Service.softDelete_commit h] at done
      cases done
      rfl

theorem fault?_of_finish (h : db.Housed) {rest : Pending} (fits : rest.Fits db) {draw : Draw}
    (fresh : ∀ s ∈ db.sessions.rows, s.token ≠ draw.token) {answer : Answer} {db' : Database}
    (done : service.finish draw rest db = some (answer, db')) : answer.fault? = none := by
  cases rest with
  | register r clientIp =>
      rw [Service.finish] at done
      by_cases free : db.IsFree r.storedUsername r.storedEmail
      · rw [Service.enrol_of_free service h free] at done
        cases done
        rfl
      · rw [Service.enrol_of_not_free service h free] at done
        cases done
        rfl
  | signIn login clientIp user =>
      obtain ⟨r, hr, row, _⟩ := fits
      have there : ∃ r ∈ db.users.rows, r.id = user.id.number := ⟨r, hr, by rw [row.id]⟩
      rw [Service.finish] at done
      cases hd : Draft.issue? service.policy draw.now draw.token with
      | none => rw [hd] at done; cases done
      | some draft =>
          -- a draft has the token that was drawn for it
          have drawn : draft.token = draw.token := by
            rw [Draft.issue?] at hd
            obtain ⟨_, _, rfl⟩ := Option.map_eq_some_iff.mp hd
            rfl
          rw [hd, Option.map_some, Service.openSession_of_unused h.sound.ready there (drawn ▸ fresh)] at done
          cases done
          rfl
  | activate id =>
      rw [Service.finish, Service.verifyAccount_eq h.sound.ready] at done
      cases done
      rfl

theorem held_of_begin (legible : db.Legible) (h : db.Ready) {now : Instant} {r : Registration}
    {clientIp : String} {db' : Database}
    (done : service.begin now (.register r clientIp) db =
      (.answered (.registered (.error .taken)), db')) :
    ¬ db.IsFree r.storedUsername r.storedEmail := by
  rw [Service.begin] at done
  rcases Service.permit_cases legible h r with ⟨why, _, hp⟩ | ⟨_, _, hp⟩ | ⟨_, held, _⟩
  · rw [hp] at done
    cases done
  · rw [hp] at done
    cases done
  · exact held

theorem held_of_finish (h : db.Housed) {draw : Draw} {r : Registration} {clientIp : String}
    {db' : Database}
    (done : service.finish draw (.register r clientIp) db =
      some (.registered (.error .taken), db')) :
    ¬ db.IsFree r.storedUsername r.storedEmail := by
  intro free
  rw [Service.finish, Service.enrol_of_free service h free] at done
  cases done

end Answers

/-! ## What holds at every moment -/

theorem Pending.Fits.of_keeps {db db' : Database} {rest : Pending} (fits : rest.Fits db)
    (keeps : db.Keeps db') : rest.Fits db' := by
  cases rest with
  | register r clientIp => trivial
  | activate id => trivial
  | signIn login clientIp user =>
      obtain ⟨r, hr, row, named⟩ := fits
      obtain ⟨r', hr', same⟩ := keeps.users r hr
      refine ⟨r', hr', ⟨?_, ?_, ?_, ?_⟩, named.of_same same⟩
      · rw [row.id, same.id]
      · rw [row.username, same.username]
      · rw [row.email, same.email]
      · rw [row.name, same.name]

/-- What holds between any two steps, whichever requests are in flight. -/
structure Traffic.Coherent (t : Traffic) : Prop where
  housed : t.journal.db.Housed
  legible : t.journal.db.Legible
  recorded : t.journal.Recorded
  /-- Whatever a request in flight relies on is still so. -/
  fits : ∀ rest ∈ t.pending, rest.Fits t.journal.db
  /-- No answer so far is one that the store had to fail for. -/
  faultless : ∀ entry ∈ t.journal.log, entry.2.fault? = none

namespace Traffic

variable {service : Service} {t t' : Traffic}

theorem coherent_start (names : TableNames) : Coherent ⟨Journal.start names, []⟩ where
  housed := Journal.housed_start names
  legible := Database.legible_empty names
  recorded := Journal.recorded_start names
  fits := by
    intro rest hr
    cases hr
  faultless := by
    intro entry he
    cases he

/-- A turn that gives one more answer, and takes up no request, keeps traffic coherent. -/
private theorem Coherent.turn (h : t.Coherent) {now noted : Instant} {db : Database} {request : Request}
    {answer : Answer} {pending : List Pending}
    (turn : service.Turn now noted t.journal ⟨db, t.journal.log ++ [(request, answer)]⟩)
    (dated : now.Dated) (dated' : noted.Dated) (faultless : answer.fault? = none)
    (fewer : ∀ rest ∈ pending, rest ∈ t.pending) :
    Coherent ⟨⟨db, t.journal.log ++ [(request, answer)]⟩, pending⟩ where
  housed := turn.housed h.housed
  legible := turn.legible dated dated' h.legible
  recorded := h.recorded.turn h.housed turn
  fits := by
    intro rest hr
    exact (h.fits rest (fewer rest hr)).of_keeps (turn.keeps h.housed)
  faultless := by
    intro entry he
    rcases List.mem_append.mp he with he | he
    · exact h.faultless entry he
    · rw [List.mem_singleton.mp he]
      exact faultless

theorem Coherent.step (h : t.Coherent) (step : service.Step t t') : t'.Coherent := by
  have ready := h.housed.sound.ready
  cases step with
  | answer request dated done =>
      rename_i now answer db
      rcases Service.begin_cases service ready now now request with ⟨_, _, same, turn⟩ | ⟨_, other, _⟩
      · rw [done] at same
        cases same
        exact h.turn turn dated dated (fault?_of_begin h.legible ready done) fun rest hr => hr
      · rw [done] at other
        cases other
  | wait request dated goesOn =>
      rename_i now rest db
      have ⟨unchanged, fits⟩ : db = t.journal.db ∧ rest.Fits t.journal.db := by
        rcases Service.begin_cases service ready now now request with ⟨_, _, other, _⟩ | ⟨_, same, _, fits⟩
        · rw [goesOn] at other
          cases other
        · rw [goesOn] at same
          cases same
          exact ⟨rfl, fits⟩
      subst unchanged
      refine ⟨h.housed, h.legible, h.recorded, ?_, h.faultless⟩
      intro rest hr
      rcases List.mem_append.mp hr with hr | hr
      · exact h.fits rest hr
      · rw [List.mem_singleton.mp hr]
        exact fits
  | finish earlier later waiting dated fresh done =>
      rename_i rest draw answer db
      have fits : rest.Fits t.journal.db := h.fits rest (by rw [waiting]; simp)
      have fewer : ∀ other ∈ earlier ++ later, other ∈ t.pending := by
        intro other ho
        rw [waiting]
        rcases List.mem_append.mp ho with ho | ho
        · exact List.mem_append_left _ ho
        · exact List.mem_append_right _ (List.mem_cons_of_mem _ ho)
      exact h.turn (Service.turn_finish h.housed fits done) dated.1 dated.2
        (fault?_of_finish h.housed fits fresh done) fewer

theorem Coherent.of_reaches {names : TableNames} (reached : service.Reaches names t) : t.Coherent := by
  induction reached with
  | start => exact coherent_start names
  | step _ step ih => exact ih.step step

/-- Whichever step it is that refuses a registration as taken, an undeleted user is in its way then. -/
theorem Coherent.held (h : t.Coherent) (step : service.Step t t') {r : Registration} {clientIp : String}
    (refused : t'.journal.log =
      t.journal.log ++ [(.register r clientIp, .registered (.error .taken))]) :
    ¬ t.journal.db.IsFree r.storedUsername r.storedEmail := by
  cases step with
  | answer request dated done =>
      have last := List.append_cancel_left refused
      cases last
      exact held_of_begin h.legible h.housed.sound.ready done
  | wait request dated goesOn =>
      have none_more := congrArg List.length refused
      simp only [List.length_append, List.length_singleton] at none_more
      omega
  | finish earlier later waiting dated fresh done =>
      rename_i rest draw answer db
      have last := List.append_cancel_left refused
      simp only [List.cons.injEq, Prod.mk.injEq, and_true] at last
      obtain ⟨asked, rfl⟩ := last
      cases rest with
      | register r' clientIp' =>
          cases asked
          exact held_of_finish h.housed done
      | signIn login clientIp user => cases asked
      | activate id => cases asked

end Traffic

/-! ## Requests made at once, among others in flight -/

namespace Service

variable {service : Service} {names : TableNames} {t t' : Traffic}

/-- A request made at once is a way to go on, whatever is in flight. -/
theorem Reaches.call (reached : service.Reaches names t) {c : Call} (dated : c.draw.Dated)
    (fresh : ∀ s ∈ t.journal.db.sessions.rows, s.token ≠ c.draw.token) :
    service.Reaches names ⟨service.call t.journal c, t.pending⟩ := by
  have ready := (Traffic.Coherent.of_reaches reached).housed.sound.ready
  rw [Service.call]
  rcases begin_cases service ready c.draw.now c.draw.noted c.request with
    ⟨answer, db, answered, _⟩ | ⟨rest, goesOn, asked, _⟩
  · have made : service.perform c.draw c.request t.journal.db = some (answer, db) := by
      rw [perform_eq, answered]
    rw [made]
    exact reached.step (.answer t c.request dated.1 answered)
  · have made : service.perform c.draw c.request t.journal.db = service.finish c.draw rest t.journal.db := by
      rw [perform_eq, goesOn]
    have waiting := reached.step (.wait t c.request dated.1 goesOn)
    rw [made]
    cases done : service.finish c.draw rest t.journal.db with
    | none => exact reached
    | some result =>
        -- it came last, so the others wait as before
        have finished := waiting.step (.finish _ t.pending [] rfl dated fresh done)
        rw [List.append_nil, asked] at finished
        exact finished

/-! ## The moment of an answer -/

theorem Step.log_eq (step : service.Step t t') : t'.journal.log = t.journal.log ∨
    ∃ entry, t'.journal.log = t.journal.log ++ [entry] := by
  cases step with
  | answer request dated done => exact Or.inr ⟨_, rfl⟩
  | wait request dated goesOn => exact Or.inl rfl
  | finish earlier later waiting dated fresh done => exact Or.inr ⟨_, rfl⟩

/-- Every answer was given by one step, after those before it in the log. -/
theorem Reaches.moment (reached : service.Reaches names t) {before after : List (Request × Answer)}
    {entry : Request × Answer} (split : t.journal.log = before ++ entry :: after) :
    ∃ s s', service.Reaches names s ∧ service.Step s s' ∧ s.journal.log = before ∧
      s'.journal.log = before ++ [entry] := by
  induction reached generalizing after with
  | start =>
      have empty : ([] : List (Request × Answer)) = before ++ entry :: after := split
      simp at empty
  | step reached step ih =>
      rename_i s s'
      rcases step.log_eq with same | ⟨last, more⟩
      · exact ih (same.symm.trans split)
      · rw [more] at split
        rcases List.eq_nil_or_concat after with rfl | ⟨others, other, rfl⟩
        · obtain ⟨hlog, hlast⟩ := List.append_inj' split rfl
          cases hlast
          exact ⟨s, s', reached, step, hlog, by rw [more, hlog]⟩
        · rw [List.concat_eq_append, ← List.cons_append, ← List.append_assoc] at split
          exact ih (List.append_inj' split rfl).1

/--
At every moment, whatever requests are in flight and however their steps have been mixed: no two
undeleted users have the same name or the same address; no answer is one that the store had to fail for;
a registration that was refused as taken met an undeleted user with its name or address when the step was
made that refused it; and users and sessions are, one for one, the registrations and logins that were
answered as made. The steps assume of what comes from outside that clocks show years of four digits
(`dated`) and that the token drawn for a login is that of no session (`fresh`).
-/
theorem traffic_outcome (reached : service.Reaches names t) :
    (t.journal.db.users.rows.Pairwise fun u v => u.isDeleted = false → v.isDeleted = false →
      u.username ≠ v.username ∧ u.email ≠ v.email) ∧
    (∀ entry ∈ t.journal.log, entry.2.fault? = none) ∧
    (∀ before after r clientIp,
      t.journal.log = before ++ (.register r clientIp, .registered (.error .taken)) :: after →
      ∃ s s', service.Reaches names s ∧ service.Step s s' ∧ s.journal.log = before ∧
        s'.journal.log = before ++ [(.register r clientIp, .registered (.error .taken))] ∧
        ∃ u ∈ s.journal.db.users.rows, u.isDeleted = false ∧
          (u.username = trim r.username ∨ u.email = trim r.email)) ∧
    List.Forall₂ Enrolment.IsOf t.journal.db.users.rows t.journal.enrolments ∧
    List.Forall₂ (Login.IsOf t.journal.db) t.journal.db.sessions.rows t.journal.logins := by
  have coherent := Traffic.Coherent.of_reaches reached
  have sound := coherent.housed.sound
  refine ⟨?_, coherent.faultless, ?_, coherent.recorded.users, coherent.recorded.sessions⟩
  · refine sound.users_ordered.rising.imp_of_mem ?_
    intro u v hu hv lt hud hvd
    have other : u ≠ v := by
      rintro rfl
      exact Int.lt_irrefl _ lt
    exact ⟨fun he => other (sound.usernames u hu v hv hud hvd he),
      fun he => other (sound.emails u hu v hv hud hvd he)⟩
  · intro before after r clientIp split
    obtain ⟨s, s', hs, step, hbefore, hentry⟩ := reached.moment split
    have held := (Traffic.Coherent.of_reaches hs).held step (hbefore.symm ▸ hentry)
    exact ⟨s, s', hs, step, hbefore, hentry, Database.not_isFree_iff.mp held⟩

/-- Someone who registers twice at the same time. -/
def hasty : Registration :=
  ⟨"ada@example.org", "ada", "Ada", "engine", true⟩

/-- What the second step of one of the two makes of a store. -/
def hastyStep (clientIp : String) (db : Database) : Except Error UserWithNamespace × Database :=
  standard.enrol .epoch [] hasty clientIp db

/-- Both have been found free of conflicts before the first of them was made. -/
def collision : Traffic :=
  let first := hastyStep "::1" (.empty {})
  let second := hastyStep "::2" first.2
  ⟨⟨second.2, [(.register hasty "::1", .registered first.1), (.register hasty "::2", .registered second.1)]⟩,
    []⟩

private theorem dated_epoch : Instant.epoch.Dated := by
  decide +kernel

private theorem reaches_hastyStep {clientIp : String} {db : Database} {log : List (Request × Answer)}
    {others : List Pending}
    (reached : standard.Reaches {} ⟨⟨db, log⟩, .register hasty clientIp :: others⟩)
    (noSessions : db.sessions.rows = []) :
    standard.Reaches {} ⟨⟨(hastyStep clientIp db).2,
      log ++ [(.register hasty clientIp, .registered (hastyStep clientIp db).1)]⟩, others⟩ := by
  have done : standard.finish ⟨.epoch, .epoch, [], ""⟩ (.register hasty clientIp) db =
      some (.registered (hastyStep clientIp db).1, (hastyStep clientIp db).2) := by
    rw [finish, hastyStep]
  have fresh : ∀ s ∈ db.sessions.rows, s.token ≠ "" := by
    rw [noSessions]
    intro s hs
    cases hs
  refine reached.step (.finish ⟨⟨db, log⟩, .register hasty clientIp :: others⟩ [] others rfl ?_ ?_ done)
  · exact ⟨dated_epoch, dated_epoch⟩
  · exact fresh

theorem reaches_collision : standard.Reaches {} collision := by
  have permitted : permit hasty (.empty {}) = .ok () := by decide +kernel
  have goesOn : ∀ clientIp, standard.begin .epoch (.register hasty clientIp) (.empty {}) =
      (.pending (.register hasty clientIp), .empty {}) := by
    intro clientIp
    rw [begin, permitted]
  have one := Reaches.step .start (.wait _ (.register hasty "::1") dated_epoch (goesOn "::1"))
  have both := Reaches.step one (.wait _ (.register hasty "::2") dated_epoch (goesOn "::2"))
  have first := reaches_hastyStep both rfl
  exact reaches_hastyStep first (by decide +kernel)

/-- The later of the two is refused, and the user who is in its way is the earlier one. -/
theorem traffic_outcome_collision : standard.Reaches {} collision ∧
    ∃ s, standard.Reaches {} s ∧ s.journal.log = collision.journal.log.take 1 ∧
      ∃ u ∈ s.journal.db.users.rows, u.isDeleted = false ∧
        (u.username = trim "ada" ∨ u.email = trim "ada@example.org") := by
  have refused : (hastyStep "::2" (hastyStep "::1" (.empty {})).2).1 = .error .taken := by
    decide +kernel
  obtain ⟨_, _, moment, _⟩ := traffic_outcome reaches_collision
  obtain ⟨s, _, hs, _, hbefore, _, held⟩ := moment [_] [] hasty "::2" (by
    rw [← refused]
    rfl)
  exact ⟨reaches_collision, s, hs, hbefore, held⟩

end Service

end Gatehouse.Auth
