import Mathlib.Algebra.Order.Ring.Int
import AuditGateway.Admin.Login

/-!
# Changing the password ends what the old one gave access to

After a change of password, the live sessions of the user are to be the session
that made the change and those of logins that checked the new hash (`Ended`).
The statement that changes the password leaves it so (`changeUserPassword_ended`),
but `login` checks the hash it has read and inserts the session in another statement:
`password_change_ends_access_iff` says that it stays so exactly in the runs in which
no session is inserted for a hash that has been replaced meanwhile. A login that
overlaps with a change breaks it (`overlapping_login_survives`).
-/

namespace AuditGateway.Admin

open AuditGateway.Framework

variable {w : World}

/-- The row may exist next to the last change of its user's password. -/
def SessionRow.Entitled (row : SessionRow) (sessionID : String) (w : World) : Prop :=
  ∀ change, w.lastChange row.userID = some change → row.Live w.clock → sessionID ≠ change.session →
    row.checkedHash = change.newHash

/-- Every live session of a user whose password was changed made the change, or was created by a
login that checked the new hash. -/
def Ended (w : World) : Prop :=
  ∀ sessionID row, w.sessions sessionID = some row → row.Entitled sessionID w

/-- The step does not insert a session that is not entitled. -/
def Timely (checkPassword : String → String → Bool) (s : State) : Step → Prop
  | .exec request ch =>
    match s.nextOp (code checkPassword) request with
    | some (.createSession session checkedHash) =>
      ch.fault ≠ .before → s.world.sessions session.sessionID = none →
        SessionRow.Entitled ⟨session.userID, session.csrfToken, ch.now + sessionLifetime, none, checkedHash⟩
          session.sessionID s.world
    | _ => True
  | _ => True

/-! ## The statements -/

theorem createSession_ended_iff (h : Ended w) (session : Session) (checkedHash : String) (now : Time) :
    Ended (w.createSession session checkedHash now) ↔
      (w.sessions session.sessionID = none →
        SessionRow.Entitled ⟨session.userID, session.csrfToken, now + sessionLifetime, none, checkedHash⟩
          session.sessionID w) := by
  unfold World.createSession
  split
  next row hrow => exact iff_of_true h fun hnone => nomatch hrow.symm.trans hnone
  next hnone =>
    rw [imp_iff_right hnone]
    constructor
    · intro hended
      exact hended session.sessionID _ (Function.update_self ..)
    · intro hentitled sessionID row hrow
      simp only [Function.update_apply] at hrow
      split at hrow
      next heq =>
        obtain rfl := Option.some.inj hrow
        exact heq ▸ hentitled
      next => exact h sessionID row hrow

theorem changeUserPassword_ended (h : Ended w) (userID : Int) (passwordHash keepSessionID : String)
    {now : Time} (hnow : now ≤ w.clock) : Ended (w.changeUserPassword userID passwordHash keepSessionID now) := by
  intro sessionID row hrow change hchange hlive hother
  obtain ⟨old, hold, rfl⟩ := Option.map_eq_some_iff.1 hrow
  -- a session that is live afterwards was not revoked
  have hkept : SessionRow.revokeOther userID keepSessionID now sessionID old = old := by
    unfold SessionRow.revokeOther at hlive ⊢
    split at hlive
    · exact nomatch hlive.1
    · rw [if_neg ‹_›]
  rw [hkept] at hchange hlive ⊢
  have hlast : w.lastChange old.userID = some change := by
    simp only [World.changeUserPassword] at hchange
    split at hchange
    · rw [Function.update_apply] at hchange
      split at hchange
      next huser =>
        -- the session of the user whose password it was would have been revoked
        obtain rfl := Option.some.inj hchange
        have hrevoked : old.userID = userID ∧ sessionID ≠ keepSessionID ∧ old.Live now :=
          ⟨huser, hother, hlive.1, lt_of_le_of_lt hnow hlive.2⟩
        rw [SessionRow.revokeOther, if_pos hrevoked] at hkept
        exact absurd (congrArg SessionRow.revokedAt hkept) (by simp [hlive.1])
      next => exact hchange
    · exact hchange
  exact h sessionID old hold change hlast hlive hother

theorem tick_ended (h : Ended w) (passed : Nat) : Ended { w with clock := w.clock + passed } := by
  intro sessionID row hrow change hchange hlive hother
  have hlive' : row.Live w.clock := ⟨hlive.1, lt_of_le_of_lt (by simp) hlive.2⟩
  exact h sessionID row hrow change hchange hlive' hother

theorem effect_ended_iff (h : Ended w) {now : Time} (hnow : now ≤ w.clock) (o : Op) :
    Ended (o.effect now w) ↔ match o with
      | .createSession session checkedHash => w.sessions session.sessionID = none →
          SessionRow.Entitled ⟨session.userID, session.csrfToken, now + sessionLifetime, none, checkedHash⟩
            session.sessionID w
      | _ => True := by
  cases o with
  | createSession session checkedHash => exact createSession_ended_iff h session checkedHash now
  | changeUserPassword userID passwordHash keepSessionID =>
    exact iff_of_true (changeUserPassword_ended h userID passwordHash keepSessionID hnow) trivial
  | _ => exact iff_of_true h trivial

/-! ## Runs -/

theorem step_ended_iff {checkPassword : String → String → Bool} {s s' : State} {a : Step}
    (h : Ended s.world) (hstep : (system checkPassword).step s a = some s') :
    Ended s'.world ↔ Timely checkPassword s a := by
  cases a with
  | exec request ch =>
    obtain ⟨i, p, o, k, r, w, hthread, hview, hperform, rfl⟩ := Config.exec_eq_some hstep
    have hop : s.nextOp (code checkPassword) request = some o := by
      simp [Config.nextOp, hthread, Thread.next, hview]
    simp only [machine, perform] at hperform
    split at hperform
    · cases hperform
    next hnow =>
      obtain ⟨-, rfl⟩ := Prod.mk.inj (Option.some.inj hperform)
      simp only [Timely, hop]
      by_cases hfault : ch.fault = .before
      · rw [if_pos hfault]
        cases o <;> simp [h, hfault]
      · rw [if_neg hfault, effect_ended_iff h (not_lt.1 hnow)]
        cases o <;> simp [hfault]
  | crash request =>
    obtain ⟨th, hthread, rfl⟩ := Config.crash_eq_some hstep
    exact iff_of_true h trivial
  | env passed =>
    obtain rfl := Option.some.inj hstep
    exact iff_of_true (tick_ended h passed) trivial
  | start request input =>
    obtain ⟨i, w, hthread, hw, rfl⟩ := Config.start_eq_some hstep
    obtain ⟨-, rfl⟩ := Prod.mk.inj (Option.some.inj hw)
    exact iff_of_true h trivial

/-- Whatever the users and sessions at the start: in a run of any number of logins and changes of
password, every live session of a user after a change made it or comes from a login that checked the
new hash, if and only if no step inserts a session for a hash that has been replaced. -/
theorem password_change_ends_access_iff (checkPassword : String → String → Bool) (clock : Time)
    (users : List User) (sessions : String → Option SessionRow) (steps : List Step) :
    (system checkPassword).Always (fun s => Ended s.world) (State.start clock users sessions) steps ↔
      (system checkPassword).AllSteps (Timely checkPassword) (State.start clock users sessions) steps := by
  have hstart : Ended (State.start clock users sessions).world := by
    intro sessionID row _ change hchange
    cases hchange
  exact TransitionSystem.always_iff_allSteps (fun _ _ _ h hstep => step_ended_iff h hstep) hstart steps

def overlappingLogin : List Step :=
  [.start 0 (.login (some ⟨"ann", "old password"⟩)),
   .exec 0 {},
   .start 1 (.password ⟨some "sess_1", some "csrf_1", "csrf_1",
     some ⟨"old password", "new password!", "new password!"⟩⟩),
   .exec 1 {},
   .exec 1 {},
   .exec 1 { token := some "hash of new password!" },
   .exec 1 {},
   .exec 0 { token := some "sess_2" },
   .exec 0 { token := some "csrf_2" },
   .exec 0 {}]

theorem overlapping_login_survives :
    ((system fun hash password => hash == "hash of " ++ password).run
      (State.start 0 [⟨1, "ann", "hash of old password", true, 0⟩] fun sessionID =>
        if sessionID = "sess_1" then some ⟨1, "csrf_1", 100, none, "hash of old password"⟩ else none)
      overlappingLogin).map (fun s =>
        ((s.threads 1).bind fun th => th.state.bind Prog.result,
          s.world.lastChange 1, s.world.sessions "sess_2", s.world.clock)) =
    some (some ⟨204, ""⟩, some ⟨"hash of new password!", "sess_1"⟩,
      some ⟨1, "csrf_2", sessionLifetime, none, "hash of old password"⟩, 0) := by
  decide

end AuditGateway.Admin
