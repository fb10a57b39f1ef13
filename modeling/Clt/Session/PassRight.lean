import Clt.Registry.Operation
import Clt.Session.RowChange

/-!
# What a pass keeps to

A pass is to leave running children and attended reservations alone, to carry a requested stop
out, and never to resume a session that was stopped, or had no control, before somebody reserved
it. It does, unless it gets to an unattended reservation of two kinds: it forgets the process of
one, and takes the other for an interrupted run.
-/

namespace Clt

open Relational Registry

namespace Pass

variable {q : Pass} {db : Registry} {control r : SessionControl} {session : String}

/-! ## What a pass is to keep to -/

/-- The process of the number, or its group, is reported absent. -/
def reportedAbsent (q : Pass) (pid : Nat) : Bool :=
  q.os.running pid == some false || q.os.groupRunning pid == some false

/-- The beginnings of the holders, those of guardians included, that a reservation has when its
session was stopped or had no control before. -/
def pausedHolderPrefixes : List String :=
  ["clt-idle-interactive-", "clt-stopped-interactive-", "clt-shared-interactive-",
    "clt-stopped-shared-interactive-"]

/-- The session was stopped, or had no control, before it was reserved by this holder. -/
def isPausedHolder (holder : String) : Bool := pausedHolderPrefixes.any (startsWith holder)

/-- Somebody stands behind the reservation: its holder has a live lease, or its requester is alive
and has updated it recently. -/
def isAttended (q : Pass) (control : SessionControl) (holder : String) : Bool :=
  q.matchingActiveLease holder || (q.requesterAlive holder && q.recentlyUpdated control)

/-- What a pass is to leave alone, and what it may make of the rest. -/
structure PassRight (q : Pass) (db db' : Registry) : Prop where
  child : ∀ c ∈ db.sessionControls, c.projectId = q.projectId → ∀ pid, c.childPid = some pid →
    q.reportedAbsent pid = false → db'.control? q.projectId c.codexSessionId = some c
  stop : ∀ c ∈ db.sessionControls, c.projectId = q.projectId → c.state = .stopRequested →
    db'.control? q.projectId c.codexSessionId = some c ∨
      ∃ c', db'.control? q.projectId c.codexSessionId = some c' ∧ c'.state = .stopped
  reservation : ∀ c ∈ db.sessionControls, c.projectId = q.projectId →
    c.state = .readyInteractive ∨ c.state = .interactive → ∀ holder,
      c.interactiveHolder = some holder → q.isAttended c holder = true →
        db'.control? q.projectId c.codexSessionId = some c
  paused : ∀ c ∈ db.sessionControls, c.projectId = q.projectId →
    c.state = .readyInteractive ∨ c.state = .interactive ∨ c.state = .stopRequested →
      ∀ holder, c.interactiveHolder = some holder → isPausedHolder holder = true →
        ∀ c', db'.control? q.projectId c.codexSessionId = some c' → c'.state ≠ .resumeRequested

/-- An unattended reservation that the pass takes back as it should not: one of an idle or stopped
session with a process that is not reported absent; or one of a paused session that goes the way of
an interrupted run, since it is a shared reservation or has no guardian that is recognized. -/
def Hazard (q : Pass) (control : SessionControl) : Prop :=
  ∃ holder, control.interactiveHolder = some holder ∧
    (control.state = .readyInteractive ∧ isIdleOrStoppedHolder holder = true ∧
        q.matchingActiveLease holder = false ∧
        (q.os.interactiveLeaseHolderIsProvenDead holder = true ∨
          q.recentlyUpdated control = false) ∧
        (∃ pid, control.childPid = some pid ∧ q.reportedAbsent pid = false) ∨
      isPausedHolder holder = true ∧
        (control.state = .readyInteractive ∧ isIdleOrStoppedHolder holder = false ∨
          control.state = .interactive ∧ guardian control = none ∧
            isFencedWorkerHolder holder = false) ∧
        q.isAttended control holder = false ∧
        control.childPid.all (fun pid => q.os.running pid == some false) = true)

/-! ## One round -/

theorem cancelledReservation_eq_some {holder : String} :
    q.cancelledReservation control = some holder ↔
      control.state = .readyInteractive ∧ control.interactiveHolder = some holder ∧
        isIdleOrStoppedHolder holder = true ∧ q.matchingActiveLease holder = false ∧
        (q.os.interactiveLeaseHolderIsProvenDead holder = true ∨
          q.recentlyUpdated control = false) := by
  unfold cancelledReservation
  by_cases hstate : control.state = .readyInteractive
  · rw [if_pos hstate, Option.filter_eq_some_iff]
    simp [hstate, and_assoc]
  · simp [hstate]

theorem requesterAlive_of_not_dead {holder : String}
    (h : q.os.interactiveLeaseHolderIsProvenDead holder = true) :
    q.requesterAlive holder = false := by
  rw [requesterAlive, h, Bool.not_true, Bool.and_false]

theorem not_matching_of_dead {holder : String}
    (h : q.os.interactiveLeaseHolderIsProvenDead holder = true) :
    q.matchingActiveLease holder = false := by
  unfold matchingActiveLease
  cases q.lease with
  | none => rfl
  | some lease => simp [h]

/-- A requester that the holder of an idle or stopped session names is alive unless it is proven
dead: such a holder is not read as the holder of a lease. -/
theorem requesterAlive_idleOrStopped {holder : String}
    (hholder : isIdleOrStoppedHolder holder = true)
    (h : q.os.interactiveLeaseHolderIsProvenDead holder = false) :
    q.requesterAlive holder = true := by
  have hunknown : q.os.agentLeaseHolderLiveness holder = .unknown := by
    rcases Bool.or_eq_true_iff.mp hholder with hstarts | hstarts
    · exact q.os.agentLeaseHolderLiveness_eq_unknown hstarts (by decide)
    · exact q.os.agentLeaseHolderLiveness_eq_unknown hstarts (by decide)
  rw [requesterAlive, hunknown, h]
  rfl

/-- An unattended hand-off is abandoned, and the other way round. -/
theorem handoffIsAbandoned_eq {holder : String} (h : control.interactiveHolder = some holder) :
    q.handoffIsAbandoned control = !(q.isAttended control holder) := by
  unfold handoffIsAbandoned isAttended
  rw [h, Option.any_some, Option.any_some, Bool.not_or, Bool.not_and]

/-- The reservation of an idle or stopped session that is not cancelled is attended. -/
theorem attended_of_not_cancelled {holder : String} (h : q.cancelledReservation control = none)
    (hstate : control.state = .readyInteractive) (hholder : control.interactiveHolder = some holder)
    (hidle : isIdleOrStoppedHolder holder = true) : q.isAttended control holder = true := by
  have hkept : ¬ (q.matchingActiveLease holder = false ∧
      (q.os.interactiveLeaseHolderIsProvenDead holder = true ∨
        q.recentlyUpdated control = false)) := by
    intro hgone
    cases (cancelledReservation_eq_some.mpr ⟨hstate, hholder, hidle, hgone⟩).symm.trans h
  unfold isAttended
  cases hmatching : q.matchingActiveLease holder with
  | true => rfl
  | false =>
    have hboth := not_or.mp fun hgone => hkept ⟨hmatching, hgone⟩
    rw [requesterAlive_idleOrStopped hidle (Bool.eq_false_iff.mpr hboth.1),
      Bool.eq_true_of_not_eq_false hboth.2]
    rfl

theorem fromGuardianHolder_of_guardian {holder : String}
    {disposition : InteractiveGuardianDisposition}
    (h : guardian control = some (holder, disposition)) :
    InteractiveGuardianDisposition.fromGuardianHolder holder = some disposition := by
  simp only [guardian, Option.bind_eq_bind, Option.bind_eq_some_iff] at h
  obtain ⟨found, -, read, hread, h⟩ := h
  split at h
  · cases h
    exact hread
  · cases h

theorem not_attended_of_guardian {holder : String}
    (h : q.guardianIsAbandoned control holder = true) : q.isAttended control holder = false := by
  unfold isAttended
  rcases Bool.or_eq_true_iff.mp h with hdead | hleft
  · have hproven := q.os.provenDead_of_guardian hdead
    rw [not_matching_of_dead hproven, requesterAlive_of_not_dead hproven]
    rfl
  · simp only [Bool.and_eq_true, Bool.not_eq_true', Bool.or_eq_true] at hleft
    rcases hleft.2 with hdead | hold
    · rw [hleft.1, hdead]
      rfl
    · rw [hleft.1, hold, Bool.and_false]
      rfl

/-- A paused session has no guardian that resumes an interrupted run. -/
theorem disposition_of_paused {holder : String} {disposition : InteractiveGuardianDisposition}
    (hholder : isPausedHolder holder = true)
    (h : InteractiveGuardianDisposition.fromGuardianHolder holder = some disposition) :
    disposition ≠ .resumeExec := by
  rintro rfl
  have hstarts : startsWith holder "clt-interactive-worker" = true := by
    unfold InteractiveGuardianDisposition.fromGuardianHolder at h
    split at h
    · cases h
    · split at h
      · cases h
      · have hfound := List.find?_some h
        exact hfound
  obtain ⟨pre, hpre, hpaused⟩ := List.any_eq_true.mp hholder
  have hprefix := prefix_of_startsWith hpaused hstarts
  have hnone : ∀ pre ∈ pausedHolderPrefixes,
      ¬ (pre.toList <+: "clt-interactive-worker".toList ∨
        "clt-interactive-worker".toList <+: pre.toList) := by decide
  exact hnone pre hpre hprefix

theorem recovery_recoverInteractive (h : q.recovery control = .recoverInteractive) :
    q.cancelledReservation control = none ∧ guardian control = none ∧
      (control.state = .readyInteractive ∨ control.state = .interactive) ∧
      q.resumesInteractive control = true := by
  rcases recovery_cases q control with hleave | ⟨_, -, heq⟩ | ⟨_, _, -, -, -, heq⟩ |
      ⟨-, ⟨_, heq⟩ | ⟨-, heq⟩ | ⟨-, heq⟩⟩ | ⟨hcancel, hguardian, hstate, hresumes, -⟩
  · cases hleave.symm.trans h
  · cases heq.symm.trans h
  · cases heq.symm.trans h
  · cases heq.symm.trans h
  · cases heq.symm.trans h
  · cases heq.symm.trans h
  · exact ⟨hcancel, hguardian, hstate, hresumes⟩

theorem state_settle (target : AgentSessionControlState) (now : String) (r : SessionControl) :
    (r.settle target now).state = target := rfl

theorem reportedAbsent_of_group {pid : Nat} (h : q.os.groupRunning pid = some false) :
    q.reportedAbsent pid = true := by
  rw [reportedAbsent, h]
  exact Bool.or_true _

/-- A round takes a row with a child that is not reported absent only where it cancels the
reservation of its session. -/
theorem RowStep.keeps_child {pid : Nat} {after : Option SessionControl}
    (h : RowStep q control (some r) after) (hchild : r.childPid = some pid)
    (hpresent : q.reportedAbsent pid = false)
    (hown : r.codexSessionId = control.codexSessionId → r = control)
    (hhazard : ¬ Hazard q control) : after = some r := by
  rcases h with hsame | ⟨found, hfound, hchange⟩
  · exact hsame
  obtain rfl := Option.some.inj hfound
  exfalso
  have hpresent' {p : Nat} (hp : r.childPid = some p) : q.reportedAbsent p = false := by
    rwa [Option.some.inj (hp.symm.trans hchild)]
  cases hchange with
  | retired _ _ hnone => cases hnone.symm.trans hchild
  | cancelled hsession hcancel =>
    obtain rfl := hown hsession
    obtain ⟨hstate, hholder, hidle, hmatching, hgone⟩ := cancelledReservation_eq_some.mp hcancel
    exact hhazard ⟨_, hholder, .inl ⟨hstate, hidle, hmatching, hgone, pid, hchild, hpresent⟩⟩
  | guardian _ _ _ habsent _ _ hsame =>
    rw [← hsame, hchild] at habsent
    unfold Processes.interactiveGuardianChildIsProvenAbsent at habsent
    split at habsent
    · rw [reportedAbsent_of_group (beq_iff_eq.mp habsent)] at hpresent
      cases hpresent
    · cases habsent
  | exited hpid hgone => cases (reportedAbsent_of_group hgone).symm.trans (hpresent' hpid)
  | automated hpid hgone => cases (reportedAbsent_of_group hgone).symm.trans (hpresent' hpid)
  | interactive hsession hrecovery =>
    obtain rfl := hown hsession
    obtain ⟨-, -, -, hresumes⟩ := recovery_recoverInteractive hrecovery
    simp only [resumesInteractive, Bool.and_eq_true, hchild, Option.all_some] at hresumes
    rw [reportedAbsent, hresumes.2] at hpresent
    cases hpresent

/-- A requested stop is kept or carried out. -/
theorem RowStep.keeps_stop {after : Option SessionControl} (h : RowStep q control (some r) after)
    (hstate : r.state = .stopRequested) :
    after = some r ∨ ∃ r', after = some r' ∧ r'.state = .stopped := by
  rcases h with hsame | ⟨found, hfound, hchange⟩
  · exact .inl hsame
  obtain rfl := Option.some.inj hfound
  cases hchange with
  | retired _ hother => cases hother.symm.trans hstate
  | cancelled _ _ hother => cases hother.symm.trans hstate
  | guardian =>
    refine .inr ⟨_, rfl, ?_⟩
    rw [endInteractive, state_settle, hstate]
    exact if_neg (by simp)
  | exited _ _ htarget =>
    rw [hstate] at htarget
    exact .inr ⟨_, rfl, (Option.some.inj htarget).symm⟩
  | automated _ _ htarget =>
    rcases htarget with ⟨hother, -⟩ | ⟨-, rfl⟩
    · cases hother.symm.trans hstate
    · exact .inr ⟨_, rfl, rfl⟩
  | interactive _ hrecovery hsame =>
    rcases (recovery_recoverInteractive hrecovery).2.2.1 with hother | hother
    · cases hother.symm.trans (hsame.symm.trans hstate)
    · cases hother.symm.trans (hsame.symm.trans hstate)

/-- Nothing is done with a stopped row. -/
theorem RowStep.keeps_stopped {after : Option SessionControl}
    (h : RowStep q control (some r) after) (hstate : r.state = .stopped) : after = some r := by
  rcases h with hsame | ⟨found, hfound, hchange⟩
  · exact hsame
  obtain rfl := Option.some.inj hfound
  exfalso
  cases hchange with
  | retired _ hother => cases hother.symm.trans hstate
  | cancelled _ _ hother => cases hother.symm.trans hstate
  | guardian _ _ _ _ hother =>
    rcases hother with hother | hother
    · cases hother.symm.trans hstate
    · cases hother.symm.trans hstate
  | exited _ _ htarget => rw [hstate] at htarget; cases htarget
  | automated _ _ htarget =>
    rcases htarget with ⟨hother, -⟩ | ⟨hother, -⟩
    · cases hother.symm.trans hstate
    · cases hother.symm.trans hstate
  | interactive _ hrecovery hsame =>
    rcases (recovery_recoverInteractive hrecovery).2.2.1 with hother | hother
    · cases hother.symm.trans (hsame.symm.trans hstate)
    · cases hother.symm.trans (hsame.symm.trans hstate)

/-- An attended reservation is left alone. -/
theorem RowStep.keeps_attended {holder : String} {after : Option SessionControl}
    (h : RowStep q control (some r) after)
    (hstate : r.state = .readyInteractive ∨ r.state = .interactive)
    (hholder : r.interactiveHolder = some holder) (hattended : q.isAttended r holder = true)
    (hown : r.codexSessionId = control.codexSessionId → r = control) : after = some r := by
  rcases h with hsame | ⟨found, hfound, hchange⟩
  · exact hsame
  obtain rfl := Option.some.inj hfound
  exfalso
  cases hchange with
  | retired _ hother =>
    rw [hother] at hstate
    rcases hstate with hstate | hstate <;> cases hstate
  | cancelled hsession hcancel =>
    obtain rfl := hown hsession
    obtain ⟨-, hsame, -, hmatching, hgone⟩ := cancelledReservation_eq_some.mp hcancel
    obtain rfl := Option.some.inj (hholder.symm.trans hsame)
    rw [isAttended, hmatching, Bool.false_or, Bool.and_eq_true] at hattended
    rcases hgone with hdead | hold
    · rw [requesterAlive_of_not_dead hdead] at hattended
      cases hattended.1
    · rw [hold] at hattended
      cases hattended.2
  | guardian hsession _ habandoned _ _ hsame =>
    obtain rfl := hown hsession
    obtain rfl := Option.some.inj (hholder.symm.trans hsame)
    rw [not_attended_of_guardian habandoned] at hattended
    cases hattended
  | exited _ _ htarget =>
    rcases hstate with hstate | hstate <;> rw [hstate] at htarget <;> cases htarget
  | automated _ _ htarget =>
    rcases htarget with ⟨hother, -⟩ | ⟨hother, -⟩ <;> rw [hother] at hstate <;>
      rcases hstate with hstate | hstate <;> cases hstate
  | interactive hsession hrecovery =>
    obtain rfl := hown hsession
    obtain ⟨-, -, -, hresumes⟩ := recovery_recoverInteractive hrecovery
    rw [resumesInteractive, handoffIsAbandoned_eq hholder, hattended] at hresumes
    cases hresumes

/-- The reservation of a paused session is kept, or ends in a stop or without a control. -/
theorem RowStep.keeps_paused {holder : String} {after : Option SessionControl}
    (h : RowStep q control (some r) after)
    (hstate : r.state = .readyInteractive ∨ r.state = .interactive ∨ r.state = .stopRequested)
    (hholder : r.interactiveHolder = some holder) (hpaused : isPausedHolder holder = true)
    (hown : r.codexSessionId = control.codexSessionId → r = control)
    (hhazard : ¬ Hazard q control) :
    after = some r ∨ ∀ r', after = some r' → r'.state = .stopped := by
  rcases h with hsame | ⟨found, hfound, hchange⟩
  · exact .inl hsame
  obtain rfl := Option.some.inj hfound
  cases hchange with
  | retired _ hother => exact absurd (hother ▸ hstate) (by decide)
  | cancelled _ _ _ _ hresult =>
    right
    rintro r' hr'
    rw [hresult r' hr']
    rfl
  | guardian _ hguardian _ _ _ hsame =>
    obtain rfl := Option.some.inj (hholder.symm.trans hsame)
    right
    rintro r' hr'
    obtain rfl := Option.some.inj hr'
    rw [endInteractive, state_settle]
    refine if_neg ?_
    have hresume := disposition_of_paused hpaused (fromGuardianHolder_of_guardian hguardian)
    simp [hresume]
  | exited _ _ htarget =>
    right
    rintro r' hr'
    obtain rfl := Option.some.inj hr'
    rcases hstate with hstate | hstate | hstate
    · rw [hstate] at htarget; cases htarget
    · rw [hstate] at htarget; cases htarget
    · rw [hstate] at htarget; exact (Option.some.inj htarget).symm
  | automated _ _ htarget =>
    right
    rintro r' hr'
    obtain rfl := Option.some.inj hr'
    rcases htarget with ⟨hother, -⟩ | ⟨-, rfl⟩
    · exact absurd (hother ▸ hstate) (by decide)
    · rfl
  | interactive hsession hrecovery =>
    obtain rfl := hown hsession
    obtain ⟨hcancel, hguardian, hready, hresumes⟩ := recovery_recoverInteractive hrecovery
    simp only [resumesInteractive, Bool.and_eq_true, Bool.not_eq_true',
      handoffIsAbandoned_eq hholder, hholder, Option.any_some] at hresumes
    obtain ⟨⟨hleft, hunfenced⟩, hgone⟩ := hresumes
    refine absurd ?_ hhazard
    rcases hready with hready | hready
    · cases hidle : isIdleOrStoppedHolder holder with
      | false => exact ⟨holder, hholder, .inr ⟨hpaused, .inl ⟨hready, hidle⟩, hleft, hgone⟩⟩
      | true =>
        have hattended := attended_of_not_cancelled hcancel hready hholder hidle
        cases hleft.symm.trans hattended
    · rw [hready] at hunfenced
      exact ⟨holder, hholder, .inr ⟨hpaused, .inr ⟨hready, hguardian, by simpa using hunfenced⟩,
        hleft, hgone⟩⟩

/-- A round for another session leaves a row alone that no automated run is behind. -/
theorem RowStep.keeps_other {after : Option SessionControl} (h : RowStep q control (some r) after)
    (hother : r.codexSessionId ≠ control.codexSessionId) (hstate : stateAfterExit r.state = none) :
    after = some r := by
  rcases h with hsame | ⟨found, hfound, hchange⟩
  · exact hsame
  obtain rfl := Option.some.inj hfound
  exfalso
  cases hchange with
  | retired hsession => exact hother hsession
  | cancelled hsession => exact hother hsession
  | guardian hsession => exact hother hsession
  | exited _ _ htarget => cases hstate.symm.trans htarget
  | automated _ _ htarget =>
    rcases htarget with ⟨hrunning, -⟩ | ⟨hrunning, -⟩
    · rw [hrunning] at hstate; cases hstate
    · rw [hrunning] at hstate; cases hstate
  | interactive hsession => exact hother hsession

theorem RowStep.keeps_none {after : Option SessionControl} (h : RowStep q control none after) :
    after = none := by
  rcases h with hsame | ⟨_, hfound, -⟩
  · exact hsame
  · cases hfound

/-- The round of a control that is not to be resumed is the call that was decided on. -/
theorem reconcileControl_of_not_resuming (q : Pass) (db : Registry) (control : SessionControl)
    (hstate : control.state ≠ .resumeRequested) :
    ∃ db' : Registry, db'.sessionControls = db.sessionControls ∧
      q.reconcileControl db control = q.recover control db' := by
  unfold reconcileControl
  dsimp only
  split
  · contradiction
  · split
    · exact ⟨_, ensureOrphanedSessionSupervision_sessionControls .., rfl⟩
    · exact ⟨db, rfl, rfl⟩

/-- The round of a reservation that the pass cancels: the row is gone, or it is stopped. -/
theorem reconcileControl_cancels {holder : String}
    (hcancel : q.cancelledReservation control = some holder)
    (hrow : db.control? q.projectId control.codexSessionId = some control) :
    (q.reconcileControl db control).control? q.projectId control.codexSessionId = none ∨
      (q.reconcileControl db control).control? q.projectId control.codexSessionId =
        some (control.settle .stopped q.updatedAt) := by
  obtain ⟨hstate, hholder, -⟩ := cancelledReservation_eq_some.mp hcancel
  obtain ⟨db', hcontrols, heq⟩ := reconcileControl_of_not_resuming q db control
    (by rw [hstate]; decide)
  have hrow' : db'.control? q.projectId control.codexSessionId = some control := by
    unfold Registry.control?
    rwa [hcontrols]
  have hrecovery : q.recovery control = .cancelReservation holder := by
    rw [recovery, hcancel]
  have hwhere : (control.is q.projectId control.codexSessionId &&
      decide (control.state = .readyInteractive) &&
        sqlEq control.interactiveHolder (some holder)) = true := by
    simp [Table.of_find? hrow, hstate, hholder, sqlEq_some]
  rw [heq, recover, hrecovery]
  dsimp only
  unfold Registry.cancelIdleSessionInteractive
  dsimp only
  split
  · right
    exact control?_updateControls (fun _ => rfl) hrow' hwhere
  · left
    rw [control?_deleteControls, hrow', Option.filter_some, hwhere]
    rfl

/-- The round of an abandoned hand-off: its session is to be resumed. -/
theorem reconcileControl_resumes (hrecovery : q.recovery control = .recoverInteractive)
    (hrow : db.control? q.projectId control.codexSessionId = some control) :
    (q.reconcileControl db control).control? q.projectId control.codexSessionId =
      some (control.settle .resumeRequested q.updatedAt) := by
  obtain ⟨-, -, hstate, -⟩ := recovery_recoverInteractive hrecovery
  obtain ⟨db', hcontrols, heq⟩ := reconcileControl_of_not_resuming q db control
    (by rcases hstate with h | h <;> rw [h] <;> decide)
  have hrow' : db'.control? q.projectId control.codexSessionId = some control := by
    unfold Registry.control?
    rwa [hcontrols]
  have hwhere : (control.is q.projectId control.codexSessionId &&
      decide (control.state = control.state) &&
        sqlSame control.interactiveHolder control.interactiveHolder) = true := by
    simp [Table.of_find? hrow, sqlSame_iff]
  rw [heq, recover, hrecovery]
  exact control?_updateControls (fun _ => rfl) hrow' hwhere

/-! ## A whole pass -/

/-- What every round keeps of the row of a session, the pass keeps of it. -/
theorem foldl_reconcileControl {P : Option SessionControl → Prop} {controls : List SessionControl}
    (hstep : ∀ control ∈ controls, ∀ before after, P before → RowStep q control before after →
      P after)
    (db : Registry) (h : P (db.control? q.projectId session)) :
    P ((controls.foldl q.reconcileControl db).control? q.projectId session) := by
  induction controls generalizing db with
  | nil => exact h
  | cons control rest ih =>
    rw [List.foldl_cons]
    refine ih (fun c hc => hstep c (List.mem_cons_of_mem _ hc)) _ ?_
    exact hstep control List.mem_cons_self _ _ h (reconcileControl_rowStep ..)

theorem reached_sublist (q : Pass) (count : Nat) (db : Registry) :
    (q.reached count db).Sublist db.sessionControls.rows := by
  unfold reached
  split
  · exact (List.take_sublist ..).trans List.filter_sublist
  · exact List.nil_sublist _

theorem projectId_of_reached {count : Nat} (h : control ∈ q.reached count db) :
    control.projectId = q.projectId := by
  unfold reached at h
  split at h
  · exact beq_iff_eq.mp (List.mem_filter.mp (List.mem_of_mem_take h)).2
  · cases h

/-- The controls of a project are told apart by their sessions. -/
theorem eq_of_codexSessionId {count : Nat} {c : SessionControl} (hc : c ∈ db.sessionControls)
    (hproject : c.projectId = q.projectId) (hcontrol : control ∈ q.reached count db)
    (hsession : c.codexSessionId = control.codexSessionId) : c = control := by
  refine Table.eq_of_conflict hc ((reached_sublist ..).subset hcontrol) ?_
  simp [Keyed.conflict, hsession, hproject, projectId_of_reached hcontrol]

theorem passRight_of_not_hazard {count : Nat}
    (hsafe : ∀ control ∈ q.reached count db, ¬ Hazard q control) :
    PassRight q db (q.reconcileStaleAgentSessionControls count db) := by
  have hread {c : SessionControl} (hc : c ∈ db.sessionControls)
      (hproject : c.projectId = q.projectId) :
      db.control? q.projectId c.codexSessionId = some c := hproject ▸ control?_of_mem hc
  constructor
  case child =>
    intro c hc hproject pid hchild hpresent
    refine foldl_reconcileControl (P := fun row => row = some c) ?_ db (hread hc hproject)
    rintro control hcontrol _ after rfl hstep
    exact hstep.keeps_child hchild hpresent (eq_of_codexSessionId hc hproject hcontrol)
      (hsafe control hcontrol)
  case stop =>
    intro c hc hproject hstate
    refine foldl_reconcileControl
      (P := fun row => row = some c ∨ ∃ c', row = some c' ∧ c'.state = .stopped) ?_ db
      (.inl (hread hc hproject))
    rintro control - _ after (rfl | ⟨c', rfl, hstopped⟩) hstep
    · exact hstep.keeps_stop hstate
    · exact .inr ⟨c', hstep.keeps_stopped hstopped, hstopped⟩
  case reservation =>
    intro c hc hproject hstate holder hholder hattended
    refine foldl_reconcileControl (P := fun row => row = some c) ?_ db (hread hc hproject)
    rintro control hcontrol _ after rfl hstep
    exact hstep.keeps_attended hstate hholder hattended
      (eq_of_codexSessionId hc hproject hcontrol)
  case paused =>
    intro c hc hproject hstate holder hholder hpaused
    have hrow : ∀ row, row = some c ∨ (∀ c', row = some c' → c'.state = .stopped) →
        ∀ c', row = some c' → c'.state ≠ .resumeRequested := by
      rintro _ (rfl | hstopped) c' hc'
      · obtain rfl := Option.some.inj hc'
        rcases hstate with h | h | h <;> rw [h] <;> decide
      · rw [hstopped c' hc']
        decide
    refine hrow _ (foldl_reconcileControl
      (P := fun row => row = some c ∨ ∀ c', row = some c' → c'.state = .stopped) ?_ db
      (.inl (hread hc hproject)))
    rintro control hcontrol before after (rfl | hstopped) hstep
    · exact hstep.keeps_paused hstate hholder hpaused (eq_of_codexSessionId hc hproject hcontrol)
        (hsafe control hcontrol)
    · right
      cases before with
      | none =>
        intro c' hc'
        cases hstep.keeps_none.symm.trans hc'
      | some c' =>
        rw [hstep.keeps_stopped (hstopped c' rfl)]
        exact hstopped

/-- Around the round of one control the pass leaves its row alone: before it the row is as it was
read, and after it as the round has left it. -/
theorem reconcile_of_reached {count : Nat} (hcontrol : control ∈ q.reached count db)
    (hstate : stateAfterExit control.state = none) :
    ∃ db' : Registry, db'.control? q.projectId control.codexSessionId = some control ∧
      ∀ result, (q.reconcileControl db' control).control? q.projectId control.codexSessionId =
        result → (∀ c, result = some c → stateAfterExit c.state = none) →
        (q.reconcileStaleAgentSessionControls count db).control? q.projectId
          control.codexSessionId = result := by
  have hmem := (reached_sublist q count db).subset hcontrol
  have hproject := projectId_of_reached hcontrol
  obtain ⟨before, after, hsplit⟩ := List.append_of_mem hcontrol
  have hunique := db.sessionControls.unique.sublist (reached_sublist q count db)
  have hdistinct : ∀ other ∈ before ++ after,
      control.codexSessionId ≠ other.codexSessionId := by
    intro other hother hsame
    have hreached : other ∈ q.reached count db := by
      rw [hsplit]
      simp only [List.mem_append, List.mem_cons] at hother ⊢
      exact hother.imp_right .inr
    have hconflict : Keyed.conflict control other = true := by
      simp [Keyed.conflict, hsame, hproject, projectId_of_reached hreached]
    rw [hsplit, List.pairwise_append, List.pairwise_cons] at hunique
    rcases List.mem_append.mp hother with hbefore | hafter
    · have := hunique.2.2 other hbefore control List.mem_cons_self
      rw [Keyed.symm, this] at hconflict
      cases hconflict
    · have := hunique.2.1.1 other hafter
      rw [this] at hconflict
      cases hconflict
  have hkeeps {row : Option SessionControl}
      (hrow : ∀ c, row = some c → stateAfterExit c.state = none ∧
        c.codexSessionId = control.codexSessionId)
      {controls : List SessionControl} (hsub : controls ⊆ before ++ after) {start : Registry}
      (h : start.control? q.projectId control.codexSessionId = row) :
      (controls.foldl q.reconcileControl start).control? q.projectId control.codexSessionId =
        row := by
    refine foldl_reconcileControl (P := fun found => found = row) ?_ start h
    intro other hother found found' hfound hstep
    rw [hfound] at hstep
    cases row with
    | none => exact hstep.keeps_none
    | some c =>
      obtain ⟨hquiet, hsame⟩ := hrow c rfl
      exact hstep.keeps_other (hsame ▸ hdistinct other (hsub hother)) hquiet
  have hread : db.control? q.projectId control.codexSessionId = some control :=
    hproject ▸ control?_of_mem hmem
  refine ⟨before.foldl q.reconcileControl db, ?_, ?_⟩
  · exact hkeeps (by rintro c hc; obtain rfl := Option.some.inj hc; exact ⟨hstate, rfl⟩)
      (List.subset_append_left ..) hread
  · intro result hresult hquiet
    unfold reconcileStaleAgentSessionControls
    rw [hsplit, List.foldl_append, List.foldl_cons]
    refine hkeeps ?_ (List.subset_append_right ..) hresult
    intro c hc
    exact ⟨hquiet c hc, (is_of_control? (hresult.trans hc)).2⟩

/-- A paused session whose reservation goes the way of an interrupted run. -/
theorem recoverInteractive_of_hazard {holder : String}
    (hholder : control.interactiveHolder = some holder)
    (hstate : control.state = .readyInteractive ∧ isIdleOrStoppedHolder holder = false ∨
      control.state = .interactive ∧ guardian control = none ∧
        isFencedWorkerHolder holder = false)
    (hleft : q.isAttended control holder = false)
    (hgone : control.childPid.all (fun pid => q.os.running pid == some false) = true) :
    q.recovery control = .recoverInteractive := by
  have habandoned : q.handoffIsAbandoned control = true := by
    rw [handoffIsAbandoned_eq hholder, hleft]
    rfl
  rcases hstate with ⟨hready, hother⟩ | ⟨hinteractive, hguardian, hunfenced⟩
  · have hcancel : q.cancelledReservation control = none := by
      refine Option.eq_none_iff_forall_ne_some.mpr fun found hfound => ?_
      obtain ⟨-, hsame, hidle, -⟩ := cancelledReservation_eq_some.mp hfound
      obtain rfl := Option.some.inj (hholder.symm.trans hsame)
      cases hother.symm.trans hidle
    have hguardian : guardian control = none := by
      simp [guardian, hready]
    simp [recovery, hcancel, hguardian, unguardedRecovery, hready, habandoned, hgone]
  · have hcancel : q.cancelledReservation control = none := by
      rw [cancelledReservation, if_neg (by rw [hinteractive]; decide)]
    simp [recovery, hcancel, hguardian, unguardedRecovery, hinteractive, habandoned, hgone,
      hholder, hunfenced]

theorem not_passRight_of_hazard {count : Nat} (hcontrol : control ∈ q.reached count db)
    (hhazard : Hazard q control) :
    ¬ PassRight q db (q.reconcileStaleAgentSessionControls count db) := by
  intro hright
  have hmem : control ∈ db.sessionControls := (reached_sublist q count db).subset hcontrol
  have hproject := projectId_of_reached hcontrol
  obtain ⟨holder, hholder, ⟨hstate, hidle, hmatching, hgone, pid, hchild, hpresent⟩ |
    ⟨hpaused, hstate, hleft, hgone⟩⟩ := hhazard
  · have hcancel : q.cancelledReservation control = some holder :=
      cancelledReservation_eq_some.mpr ⟨hstate, hholder, hidle, hmatching, hgone⟩
    obtain ⟨db', hrow, hfinal⟩ := reconcile_of_reached hcontrol (by rw [hstate]; rfl)
    have hkept := hright.child control hmem hproject pid hchild hpresent
    rcases reconcileControl_cancels hcancel hrow with hnone | hstopped
    · have hlost := hfinal _ hnone (by rintro c hc; cases hc)
      cases hlost.symm.trans hkept
    · rw [hfinal _ hstopped (by rintro c hc; obtain rfl := Option.some.inj hc; rfl)] at hkept
      have := congrArg SessionControl.state (Option.some.inj hkept)
      cases this.trans hstate
  · have hrecovery := recoverInteractive_of_hazard hholder hstate hleft hgone
    have hquiet : stateAfterExit control.state = none := by
      rcases hstate with ⟨h, -⟩ | ⟨h, -⟩ <;> rw [h] <;> rfl
    obtain ⟨db', hrow, hfinal⟩ := reconcile_of_reached hcontrol hquiet
    have hresumed := hfinal _ (reconcileControl_resumes hrecovery hrow)
      (by rintro c hc; obtain rfl := Option.some.inj hc; rfl)
    refine hright.paused control hmem hproject ?_ holder hholder hpaused _ hresumed rfl
    rcases hstate with ⟨h, -⟩ | ⟨h, -⟩
    · exact .inl h
    · exact .inr (.inl h)

/-- A pass keeps to what it is to keep to exactly when none of the controls that it gets to is an
unattended reservation of the two kinds. -/
theorem passRight_iff (q : Pass) (count : Nat) (db : Registry) :
    PassRight q db (q.reconcileStaleAgentSessionControls count db) ↔
      ∀ control ∈ q.reached count db, ¬ Hazard q control := by
  constructor
  · intro hright control hcontrol hhazard
    exact not_passRight_of_hazard hcontrol hhazard hright
  · exact passRight_of_not_hazard

/-- The reservation of a session without a control, beside an automated run, by a process that is
not there any more. -/
def abandonedShare : Registry :=
  runOps [.reserveSharedSessionInteractive 1 "r" "clt-shared-interactive-9-1-1" none false "10"]
    managedRegistry

/-- A pass that finds process 9 gone and all others running. -/
def latePass : Pass where
  projectId := 1
  lease := none
  reclaimCurrentProcessLeases := false
  now := 100
  os :=
    { unix := true
      currentPid := 1
      running := fun pid => some (pid != 9)
      groupRunning := fun pid => some (pid != 9)
      self_running := by decide }
  taskIsDone := fun _ => false
  attaches := fun _ => true
  updatedAt := "100"
  acquiredAt := "100"
  expiresAt := "200"

/-- The session that had no control is to be resumed. -/
theorem abandoned_share_resumed :
    ¬ PassRight latePass abandonedShare
      (latePass.reconcileStaleAgentSessionControls 2 abandonedShare) := by
  intro hright
  have hreserved : SessionControl.mk 1 "r" .readyInteractive none none
      (some "clt-shared-interactive-9-1-1") none none none "10" ∈
        abandonedShare.sessionControls := by
    decide
  have hresumed : ((latePass.reconcileStaleAgentSessionControls 2 abandonedShare).control? 1
      "r").map SessionControl.state = some .resumeRequested := by
    decide
  obtain ⟨c', hc', hstate⟩ := Option.map_eq_some_iff.mp hresumed
  exact hright.paused _ hreserved rfl (.inl rfl) _ rfl (by decide) c' hc' hstate

end Pass

end Clt
