import Gatehouse.Proofs.Auth.Journal

/-! # Requests made one after another

A run makes every request at once, on the store that the one before has left. Whatever the run and
however its requests end, users and namespaces agree afterwards, and a path belongs to the user who was
the last to register with it.
-/

namespace Gatehouse.Auth

open Gatehouse.Store Gatehouse.Time

/-- A request with what it gets from outside. -/
structure Call where
  request : Request
  draw : Draw
  deriving Repr, DecidableEq

namespace Service

variable (service : Service)

/-- The journal after one more request. Where no answer comes nothing has been changed. -/
def call (j : Journal) (c : Call) : Journal :=
  match service.perform c.draw c.request j.db with
  | some (answer, db) => ⟨db, j.log ++ [(c.request, answer)]⟩
  | none => j

/-- The journal after some more requests. -/
def after (j : Journal) (calls : List Call) : Journal :=
  calls.foldl service.call j

theorem after_append (j : Journal) (calls more : List Call) :
    service.after j (calls ++ more) = service.after (service.after j calls) more :=
  List.foldl_append

section Invariants

variable {service}

theorem turn_call {j : Journal} (h : j.db.Housed) (c : Call) :
    service.Turn c.draw.now c.draw.noted j (service.call j c) := by
  rw [call]
  cases hp : service.perform c.draw c.request j.db with
  | none =>
      have still : service.Turn c.draw.now c.draw.noted j ⟨j.db, j.log ++ []⟩ := Turn.answered j [] (by simp)
      rwa [List.append_nil] at still
  | some result => exact turn_perform h hp

/-- What every turn keeps holds after a run, with any condition on the clocks that the run keeps to. -/
theorem after_induction {P : Journal → Prop} {C : Instant → Prop}
    (kept : ∀ {now noted j j'}, C now → C noted → j.db.Housed → P j → service.Turn now noted j j' → P j')
    {j : Journal} (calls : List Call) (kept_to : ∀ c ∈ calls, C c.draw.now ∧ C c.draw.noted)
    (h : j.db.Housed) (start : P j) : (service.after j calls).db.Housed ∧ P (service.after j calls) := by
  induction calls generalizing j with
  | nil => exact ⟨h, start⟩
  | cons c calls ih =>
      have turn : service.Turn c.draw.now c.draw.noted j (service.call j c) := turn_call h c
      obtain ⟨now, noted⟩ := kept_to c List.mem_cons_self
      exact ih (fun c hc => kept_to c (List.mem_cons_of_mem _ hc)) (turn.housed h)
        (kept now noted h start turn)

theorem housed_after {j : Journal} (h : j.db.Housed) (calls : List Call) :
    (service.after j calls).db.Housed := by
  refine (after_induction (P := fun _ => True) (C := fun _ => True) ?_ calls ?_ h trivial).1
  · intros
    trivial
  · intro _ _
    exact ⟨trivial, trivial⟩

theorem recorded_after {j : Journal} (h : j.db.Housed) (recorded : j.Recorded) (calls : List Call) :
    (service.after j calls).Recorded := by
  refine (after_induction (C := fun _ => True) ?_ calls ?_ h recorded).2
  · intro _ _ _ _ _ _ h recorded turn
    exact recorded.turn h turn
  · intro _ _
    exact ⟨trivial, trivial⟩

theorem keeps_after {j : Journal} (h : j.db.Housed) (calls : List Call) :
    j.db.Keeps (service.after j calls).db := by
  refine (after_induction (P := fun j' => j.db.Keeps j'.db) (C := fun _ => True) ?_ calls ?_ h
    (Database.Keeps.refl _)).2
  · intro _ _ _ _ _ _ h keeps turn
    exact keeps.trans (turn.keeps h)
  · intro _ _
    exact ⟨trivial, trivial⟩

/-- Users of an earlier store have their numbers still, so what exceeds all of now exceeds all of then. -/
theorem lt_of_earlier {j : Journal} (h : j.db.Housed) {calls earlier : List Call}
    (before : earlier <+: calls) {k : Int} (newer : ∀ u ∈ (service.after j calls).db.users.rows, u.id < k) :
    ∀ u ∈ (service.after j earlier).db.users.rows, u.id < k := by
  obtain ⟨more, rfl⟩ := before
  rw [after_append] at newer
  intro u hu
  obtain ⟨u', hu', same⟩ := (keeps_after (housed_after h earlier) more).users u hu
  rw [← same.id]
  exact newer u' hu'

theorem legible_after {j : Journal} (h : j.db.Housed) (legible : j.db.Legible) {calls : List Call}
    (dated : ∀ c ∈ calls, c.draw.Dated) : (service.after j calls).db.Legible := by
  refine (after_induction (P := fun j => j.db.Legible) ?_ calls dated h legible).2
  intro _ _ _ _ dated dated' _ legible turn
  exact turn.legible dated dated' legible

end Invariants

end Service

/-! ## The last to register with a name -/

namespace Journal

variable {j : Journal}

/-- The registrations with a name that were answered with an account, the oldest first. -/
def enrolmentsOf (j : Journal) (username : String) : List Enrolment :=
  j.enrolments.filter fun e => e.username = username

/-- The user of the last registration with a name is the newest who has or had it. -/
theorem Recorded.newest (recorded : j.Recorded) (ordered : j.db.users.Ordered) {username : String}
    {last : Enrolment} (h : (j.enrolmentsOf username).getLast? = some last) :
    (∃ u ∈ j.db.users.rows, u.id = last.id ∧ u.username = username) ∧
      ∀ u ∈ j.db.users.rows, u.username = username → u.id ≤ last.id := by
  obtain ⟨earlier, he⟩ := List.getLast?_eq_some_iff.mp h
  have named : List.Forall₂ Enrolment.IsOf
      (j.db.users.rows.filter fun u => u.username = username) (j.enrolmentsOf username) := by
    apply List.rel_filter ?_ recorded.users
    intro u e hu
    simp only [decide_eq_true_eq, hu.username]
  rw [he] at named
  -- the rows fall apart as the registrations do, into the last one and those before
  obtain ⟨row, none_left, is_last, hnone, hdrop⟩ :=
    List.forall₂_cons_right_iff.mp (List.forall₂_drop_append _ _ _ named)
  rw [List.forall₂_nil_right_iff.mp hnone] at hdrop
  have apart := List.take_append_drop earlier.length
    (j.db.users.rows.filter fun u => u.username = username)
  rw [hdrop] at apart
  have rising := ordered.rising.filter fun u => decide (u.username = username)
  rw [← apart, List.pairwise_append] at rising
  have there : row ∈ j.db.users.rows.filter fun u => u.username = username := by
    rw [← apart]
    exact List.mem_append_right _ List.mem_cons_self
  obtain ⟨hrow, hname⟩ := List.mem_filter.mp there
  refine ⟨⟨row, hrow, is_last.id, of_decide_eq_true hname⟩, ?_⟩
  intro u hu hun
  have named_u : u ∈ j.db.users.rows.filter fun u => u.username = username :=
    List.mem_filter.mpr ⟨hu, decide_eq_true hun⟩
  rw [← apart, List.mem_append, List.mem_singleton] at named_u
  rw [← is_last.id]
  rcases named_u with before | rfl
  · exact Int.le_of_lt (rising.2.2 u before row List.mem_cons_self)
  · exact Int.le_refl _

/-- A name that was registered has a namespace, and it belongs to the last who registered with it. -/
theorem Recorded.home (recorded : j.Recorded) (h : j.db.Housed) {e : Enrolment} (he : e ∈ j.enrolments) :
    ∃ n ∈ j.db.namespaces.rows, n.path = e.username ∧
      ∃ last, (j.enrolmentsOf e.username).getLast? = some last ∧ n.ownerId = last.id := by
  have among : e ∈ j.enrolmentsOf e.username := List.mem_filter.mpr ⟨he, decide_eq_true rfl⟩
  have last := List.getLast?_eq_some_getLast (List.ne_nil_of_mem among)
  obtain ⟨⟨u, hu, hid, hname⟩, newest⟩ := recorded.newest h.sound.users_ordered last
  obtain ⟨n, hn, hp⟩ := h.path u hu
  obtain ⟨_, v, hv, hvid, hvname⟩ := h.owner n hn
  -- the owner has the name, so neither of the two is older than the other
  have notOlder := h.newest n hn u hu hp.symm
  have notNewer := newest v hv (hvname.trans (hp.trans hname))
  rw [hid] at notOlder
  rw [hvid] at notNewer
  exact ⟨n, hn, hp.trans hname, _, last, Int.le_antisymm notNewer notOlder⟩

end Journal

namespace Service

/--
After any run users and namespaces agree. Each name that was ever registered has one namespace: whatever
follows, it stays under its number, and it belongs to the last who registered with the name.
-/
theorem homes_after (service : Service) (names : TableNames) (calls : List Call) :
    let j := service.after (Journal.start names) calls
    (∀ u ∈ j.db.users.rows, u.isDeleted = false →
      ∃ n ∈ j.db.namespaces.rows, u.namespaceId = some n.id ∧ n.ownerId = u.id ∧
        n.ownerType = OwnerKind.user.code ∧ n.path = u.username) ∧
    (∀ u ∈ j.db.users.rows, ∀ k, u.namespaceId = some k →
      ∃ n ∈ j.db.namespaces.rows, n.id = k ∧ n.ownerId = u.id ∧ n.ownerType = OwnerKind.user.code) ∧
    (∀ u ∈ j.db.users.rows, ∀ v ∈ j.db.users.rows, u.namespaceId ≠ none →
      u.namespaceId = v.namespaceId → u = v) ∧
    (∀ n ∈ j.db.namespaces.rows, n.ownerType = OwnerKind.user.code ∧
      ∃ u ∈ j.db.users.rows, u.id = n.ownerId ∧ u.username = n.path) ∧
    ∀ e ∈ j.enrolments, ∃ n ∈ j.db.namespaces.rows, n.path = e.username ∧
      (∀ m ∈ j.db.namespaces.rows, m.path = e.username → m = n) ∧
      (∃ last, (j.enrolmentsOf e.username).getLast? = some last ∧ n.ownerId = last.id) ∧
      ∀ more, ∃ n' ∈ (service.after j more).db.namespaces.rows,
        n'.path = e.username ∧ n'.id = n.id := by
  intro j
  have h : j.db.Housed := housed_after (Journal.housed_start names) calls
  have recorded : j.Recorded :=
    recorded_after (Journal.housed_start names) (Journal.recorded_start names) calls
  refine ⟨fun u hu hd => h.home hu hd, ?_, ?_, h.owner, ?_⟩
  · intro u hu k hk
    obtain ⟨n, hn, hid, hown⟩ := h.link u hu k hk
    exact ⟨n, hn, hid, hown, (h.owner n hn).1⟩
  · intro u hu v hv hne he
    obtain ⟨k, hk⟩ := Option.ne_none_iff_exists'.mp hne
    obtain ⟨n, hn, hid, hown⟩ := h.link u hu k hk
    obtain ⟨m, hm, hid', hown'⟩ := h.link v hv k (he ▸ hk)
    have same : n = m := h.sound.namespaces_ordered.eq_of_key_eq hn hm (hid.trans hid'.symm)
    exact h.sound.users_ordered.eq_of_key_eq hu hv (by rw [key_userRow, key_userRow, ← hown, ← hown', same])
  · intro e he
    obtain ⟨n, hn, hp, last⟩ := recorded.home h he
    refine ⟨n, hn, hp, ?_, last, ?_⟩
    · intro m hm hq
      exact h.sound.paths m hm n hn trivial trivial (hq.trans hp.symm)
    · intro more
      obtain ⟨n', hn', hid, hp'⟩ := (keeps_after h more).paths n hn
      exact ⟨n', hn', hp'.trans hp, hid⟩

end Service

end Gatehouse.Auth
