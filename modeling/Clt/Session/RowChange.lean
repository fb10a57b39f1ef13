import Clt.Session.Reconciliation

/-!
# What a round makes of a row

One round of the pass is about one control, but what it does with the registry can change the row
of another: a run that has ended is found by its process. Here is all that a round can make of the
row of a session.
-/

namespace Clt

open Relational Registry

/-! ## The row of one session -/

section Rows

variable {db : Registry} {projectId : Int} {codexSessionId : String}

/-- The row of a session that is updated. -/
theorem control?_updateControls {where_ : SessionControl → Bool}
    {set : SessionControl → SessionControl} {h : Compatible where_ set} {r : SessionControl}
    (hset : ∀ sc : SessionControl,
      (set sc).is projectId codexSessionId = sc.is projectId codexSessionId)
    (hrow : db.control? projectId codexSessionId = some r) (hwhere : where_ r = true) :
    (db.updateControls where_ set h).db.control? projectId codexSessionId = some (set r) := by
  refine (Table.find?_update h hset).trans ?_
  rw [show db.sessionControls.find? (SessionControl.is projectId codexSessionId) = some r from hrow,
    Option.map_some, Table.rewrite, if_pos hwhere]

theorem conflict_of_is {a b : SessionControl} (ha : a.is projectId codexSessionId = true)
    (hb : b.is projectId codexSessionId = true) : Keyed.conflict a b = true := by
  simp only [SessionControl.is, Bool.and_eq_true, beq_iff_eq] at ha hb
  simp [Keyed.conflict, ha, hb]

theorem control?_deleteControls {where_ : SessionControl → Bool} :
    (db.deleteControls where_).db.control? projectId codexSessionId =
      (db.control? projectId codexSessionId).filter fun sc => !where_ sc :=
  Table.find?_delete fun _ _ => conflict_of_is

theorem is_of_control? {r : SessionControl} (h : db.control? projectId codexSessionId = some r) :
    r.projectId = projectId ∧ r.codexSessionId = codexSessionId := by
  have hr := Table.of_find? h
  simpa only [SessionControl.is, Bool.and_eq_true, beq_iff_eq] using hr

theorem control?_of_mem {r : SessionControl} (h : r ∈ db.sessionControls) :
    db.control? r.projectId r.codexSessionId = some r :=
  Table.find?_eq_some (fun _ _ => conflict_of_is) h (by simp [SessionControl.is])

/-- What a rewrite makes of a row: the row that met the condition is changed. -/
theorem rewrite_cases (where_ : SessionControl → Bool) (set : SessionControl → SessionControl)
    (r : SessionControl) : Table.rewrite where_ set r = r ∨
      where_ r = true ∧ Table.rewrite where_ set r = set r := by
  unfold Table.rewrite
  by_cases h : where_ r = true
  · exact .inr ⟨h, if_pos h⟩
  · exact .inl (if_neg h)

end Rows

namespace Pass

variable {q : Pass} {db : Registry} {control r : SessionControl} {session : String}

/-- What one round of the loop can make of a stored row: `control` is the row that was read for
the round. -/
inductive RowChange (q : Pass) (control r : SessionControl) : Option SessionControl → Prop
  | retired {now : String} (hsession : r.codexSessionId = control.codexSessionId)
      (hstate : r.state = .resumeRequested) (hchild : r.childPid = none) :
      RowChange q control r (some { r with state := .stopped, updatedAt := now })
  | cancelled {holder : String} {result : Option SessionControl}
      (hsession : r.codexSessionId = control.codexSessionId)
      (hcancel : q.cancelledReservation control = some holder)
      (hstate : r.state = .readyInteractive) (hholder : r.interactiveHolder = some holder)
      (hresult : ∀ r' ∈ result, r' = r.settle .stopped q.updatedAt) : RowChange q control r result
  | guardian {holder : String} {disposition : InteractiveGuardianDisposition}
      (hsession : r.codexSessionId = control.codexSessionId)
      (hguardian : Pass.guardian control = some (holder, disposition))
      (habandoned : q.guardianIsAbandoned control holder = true)
      (habsent : q.os.interactiveGuardianChildIsProvenAbsent control.childPid = true)
      (hstate : r.state = .interactive ∨ r.state = .stopRequested)
      (hholder : r.interactiveHolder = some holder) (hchild : r.childPid = control.childPid) :
      RowChange q control r (some (endInteractive disposition q.updatedAt r))
  | exited {pid : Nat} {target : AgentSessionControlState} {holder : Option String}
      {now : String} (hchild : r.childPid = some pid) (hgone : q.os.groupRunning pid = some false)
      (htarget : stateAfterExit r.state = some target) :
      RowChange q control r (some { r with
        state := target, childPid := none, interactiveHolder := holder, updatedAt := now })
  | automated {pid : Nat} {target : AgentSessionControlState} (hchild : r.childPid = some pid)
      (hgone : q.os.groupRunning pid = some false)
      (htarget : r.state = .running ∧ target = .resumeRequested ∨
        r.state = .stopRequested ∧ target = .stopped) :
      RowChange q control r (some (r.settle target q.updatedAt))
  | interactive (hsession : r.codexSessionId = control.codexSessionId)
      (hrecovery : q.recovery control = .recoverInteractive) (hstate : r.state = control.state)
      (hholder : r.interactiveHolder = control.interactiveHolder) :
      RowChange q control r (some (r.settle .resumeRequested q.updatedAt))

/-- A round keeps the row of a session or changes it in one of these ways. -/
def RowStep (q : Pass) (control : SessionControl) (before after : Option SessionControl) : Prop :=
  after = before ∨ ∃ r, before = some r ∧ RowChange q control r after

theorem ensureOrphanedSessionSupervision_sessionControls (session : String) (db : Registry) :
    (q.ensureOrphanedSessionSupervision session db).sessionControls = db.sessionControls := by
  unfold ensureOrphanedSessionSupervision
  split
  · rfl
  · dsimp only
    split
    · rfl
    · split
      · rfl
      · unfold tryReclaimInactiveAgentLease
        dsimp only
        split
        · rfl
        · split <;> rfl

theorem update_rowStep {t : Table SessionControl} {where_ : SessionControl → Bool}
    {set : SessionControl → SessionControl} (hset : Compatible where_ set)
    (hkey : ∀ sc : SessionControl, (set sc).is q.projectId session = sc.is q.projectId session)
    (h : ∀ r, where_ r = true → RowChange q control r (some (set r))) :
    RowStep q control (t.find? (SessionControl.is q.projectId session))
      ((t.update where_ set hset).find? (SessionControl.is q.projectId session)) := by
  rw [Table.find?_update hset hkey]
  cases t.find? (SessionControl.is q.projectId session) with
  | none => exact .inl rfl
  | some r =>
    rw [Option.map_some]
    rcases rewrite_cases where_ set r with hsame | ⟨hwhere, hsame⟩
    · exact .inl (congrArg some hsame)
    · rw [hsame]
      exact .inr ⟨r, rfl, h r hwhere⟩

theorem retire_rowStep (q : Pass) (control : SessionControl) (session : String) (db : Registry) :
    RowStep q control (db.control? q.projectId session)
      ((q.retireCompletedResumeRequest control.codexSessionId db).db.control? q.projectId
        session) := by
  unfold retireCompletedResumeRequest
  cases hread : db.control? q.projectId control.codexSessionId with
  | none => exact .inl rfl
  | some found =>
    dsimp only
    split
    · exact .inl rfl
    · refine Registry.transaction_db (P := fun db' =>
        RowStep q control (db.control? q.projectId session) (db'.control? q.projectId session))
        (.inl rfl) ?_
      intro a db' hbody
      obtain ⟨-, hbody⟩ := require_bind_eq_ok.mp hbody
      obtain ⟨rfl, rfl⟩ := Prod.mk.inj (Except.ok.inj hbody)
      refine update_rowStep (by exact fun _ _ _ h => h) (fun _ => rfl) fun r hwhere => ?_
      simp only [Bool.and_eq_true, decide_eq_true_eq, SessionControl.isIdle,
        Option.isNone_iff_eq_none, SessionControl.is, beq_iff_eq] at hwhere
      obtain ⟨⟨⟨⟨⟨⟨⟨⟨⟨⟨-, hsession⟩, hstate⟩, ⟨⟨hchild, -⟩, -⟩⟩, -⟩, -⟩, -⟩, -⟩, -⟩, -⟩, -⟩ :=
        hwhere
      exact .retired (hsession.trans (is_of_control? hread).2) hstate hchild

theorem finalizeReaped_rowStep {pid : Nat}
    (hgone : q.os.groupRunning pid = some false)
    (runToken holder acquiredAt expiresAt now : String) :
    RowStep q control (db.control? q.projectId session)
      ((db.finalizeReapedAutomatedSession q.projectId pid runToken holder acquiredAt expiresAt
        now).db.control? q.projectId session) := by
  refine Registry.transaction_db (P := fun db' =>
    RowStep q control (db.control? q.projectId session) (db'.control? q.projectId session))
    (.inl rfl) ?_
  intro a db' hbody
  simp only [require_bind_eq_ok, fetch_bind_eq_ok] at hbody
  obtain ⟨-, found, -, target, htarget, hbody⟩ := hbody
  have hchanged {leases : Table Lease} (holderOf : SessionControl → Option String) :
      RowStep q control (db.control? q.projectId session) (Registry.control? { db with
        leases := leases
        sessionControls := db.sessionControls.update
          (fun sc => sc.is q.projectId found.codexSessionId && sc.state = found.state &&
            sqlEq sc.childPid (some pid) && sqlEq sc.runToken (some runToken))
          fun sc => { sc with
            state := target, childPid := none, interactiveHolder := holderOf sc
            updatedAt := now } } q.projectId session) := by
    refine update_rowStep (by exact fun _ _ _ h => h) (fun _ => rfl) fun r hwhere => ?_
    simp only [Bool.and_eq_true, decide_eq_true_eq, sqlEq_some] at hwhere
    exact .exited hwhere.1.2 hgone (hwhere.1.1.2 ▸ htarget)
  split at hbody
  · obtain ⟨_, -, hbody⟩ := fetch_bind_eq_ok.mp hbody
    obtain ⟨_, -, hbody⟩ := step_bind_eq_ok.mp hbody
    obtain ⟨-, hbody⟩ := require_bind_eq_ok.mp hbody
    obtain ⟨rfl, rfl⟩ := Prod.mk.inj (Except.ok.inj hbody)
    exact hchanged SessionControl.interactiveHolder
  · obtain ⟨-, hbody⟩ := require_bind_eq_ok.mp hbody
    obtain ⟨rfl, rfl⟩ := Prod.mk.inj (Except.ok.inj hbody)
    exact hchanged fun _ => none

theorem cancel_rowStep {holder : String}
    (hcancel : q.cancelledReservation control = some holder) :
    RowStep q control (db.control? q.projectId session)
      ((db.cancelIdleSessionInteractive q.projectId control.codexSessionId holder
        q.updatedAt).db.control? q.projectId session) := by
  have hchange {r : SessionControl} {result : Option SessionControl}
      (hresult : ∀ r' ∈ result, r' = r.settle .stopped q.updatedAt)
      (hwhere : (r.is q.projectId control.codexSessionId &&
        decide (r.state = .readyInteractive) && sqlEq r.interactiveHolder (some holder)) = true) :
      RowChange q control r result := by
    simp only [Bool.and_eq_true, decide_eq_true_eq, sqlEq_some, SessionControl.is,
      beq_iff_eq] at hwhere
    exact .cancelled hwhere.1.1.2 hcancel hwhere.1.2 hwhere.2 hresult
  unfold Registry.cancelIdleSessionInteractive
  dsimp only
  split
  · refine update_rowStep (by exact fun _ _ _ h => h) (fun _ => rfl) fun r hwhere => ?_
    exact hchange (fun r' hr' => (Option.mem_some.mp hr').symm) hwhere
  · rw [control?_deleteControls]
    cases db.control? q.projectId session with
    | none => exact .inl rfl
    | some r =>
      rw [Option.filter_some]
      split
      · exact .inl rfl
      · rename_i hwhere
        rw [Bool.not_eq_true, Bool.not_eq_false'] at hwhere
        exact .inr ⟨r, rfl, hchange (by rintro _ hnone; cases hnone) hwhere⟩

theorem guardian_rowStep {holder : String}
    {disposition : InteractiveGuardianDisposition}
    (hguardian : guardian control = some (holder, disposition))
    (habandoned : q.guardianIsAbandoned control holder = true)
    (habsent : q.os.interactiveGuardianChildIsProvenAbsent control.childPid = true) :
    RowStep q control (db.control? q.projectId session)
      ((db.recoverStaleInteractiveGuardian q.projectId control.codexSessionId holder
        control.childPid disposition q.updatedAt).db.control? q.projectId session) := by
  refine Registry.transaction_db (P := fun db' =>
    RowStep q control (db.control? q.projectId session) (db'.control? q.projectId session))
    (.inl rfl) ?_
  intro a db' hbody
  obtain ⟨-, hbody⟩ := require_bind_eq_ok.mp hbody
  obtain ⟨rfl, rfl⟩ := Prod.mk.inj (Except.ok.inj hbody)
  refine update_rowStep (by exact fun _ _ _ h => h) (fun _ => rfl) fun r hwhere => ?_
  simp only [Bool.and_eq_true, guardedControl, Bool.or_eq_true, decide_eq_true_eq, sqlEq_some,
    sqlSame_iff, SessionControl.is, beq_iff_eq] at hwhere
  exact .guardian hwhere.1.1.1.1.2 hguardian habandoned habsent hwhere.1.1.1.2 hwhere.1.1.2 hwhere.2

/-- The hand-off of a control has been abandoned, nothing fences it and its process is gone. -/
def resumesInteractive (q : Pass) (control : SessionControl) : Bool :=
  q.handoffIsAbandoned control &&
    !(control.state = .interactive && control.interactiveHolder.any isFencedWorkerHolder) &&
    control.childPid.all (fun pid => q.os.running pid == some false)

theorem unguardedRecovery_cases (q : Pass) (control : SessionControl) :
    q.unguardedRecovery control = .leave ∨
    (q.recordedChildIsGone control = true ∧
      ((∃ runToken, q.unguardedRecovery control = .finalizeReaped runToken) ∨
        control.state = .running ∧
          q.unguardedRecovery control = .recoverAutomated .resumeRequested ∨
        control.state = .stopRequested ∧
          q.unguardedRecovery control = .recoverAutomated .stopped)) ∨
    (control.state = .readyInteractive ∨ control.state = .interactive) ∧
      q.resumesInteractive control = true ∧ q.unguardedRecovery control = .recoverInteractive := by
  unfold unguardedRecovery
  dsimp only
  cases hstate : control.state with
  | stopped => exact .inl rfl
  | resumeRequested => exact .inl rfl
  | running =>
    cases hgone : !q.leaseIsActive && q.recordedChildIsGone control with
    | false => exact .inl rfl
    | true => exact .inr (.inl ⟨(Bool.and_eq_true _ _ ▸ hgone).2, .inr (.inl ⟨rfl, rfl⟩)⟩)
  | stopRequested =>
    cases hgone : !q.leaseIsActive && q.recordedChildIsGone control with
    | false => exact .inl rfl
    | true => exact .inr (.inl ⟨(Bool.and_eq_true _ _ ▸ hgone).2, .inr (.inr ⟨rfl, rfl⟩)⟩)
  | interruptRequested =>
    cases hgone : !q.leaseIsActive && q.recordedChildIsGone control with
    | false => exact .inl rfl
    | true =>
      cases control.runToken with
      | none => exact .inl rfl
      | some token => exact .inr (.inl ⟨(Bool.and_eq_true _ _ ▸ hgone).2, .inl ⟨token, rfl⟩⟩)
  | readyInteractive =>
    cases hresumes : q.resumesInteractive control with
    | false =>
      unfold resumesInteractive at hresumes
      rw [hstate] at hresumes
      exact .inl (by rw [hresumes]; rfl)
    | true =>
      have hcondition := hresumes
      unfold resumesInteractive at hcondition
      rw [hstate] at hcondition
      exact .inr (.inr ⟨.inl rfl, rfl, by rw [hcondition]; rfl⟩)
  | interactive =>
    cases hresumes : q.resumesInteractive control with
    | false =>
      unfold resumesInteractive at hresumes
      rw [hstate] at hresumes
      exact .inl (by rw [hresumes]; rfl)
    | true =>
      have hcondition := hresumes
      unfold resumesInteractive at hcondition
      rw [hstate] at hcondition
      exact .inr (.inr ⟨.inr rfl, rfl, by rw [hcondition]; rfl⟩)

/-- What the decision for a control says of it. -/
theorem recovery_cases (q : Pass) (control : SessionControl) :
    q.recovery control = .leave ∨
    (∃ holder, q.cancelledReservation control = some holder ∧
      q.recovery control = .cancelReservation holder) ∨
    (∃ holder disposition, guardian control = some (holder, disposition) ∧
      q.guardianIsAbandoned control holder = true ∧
      q.os.interactiveGuardianChildIsProvenAbsent control.childPid = true ∧
      q.recovery control = .recoverGuardian holder disposition) ∨
    (q.recordedChildIsGone control = true ∧
      ((∃ runToken, q.recovery control = .finalizeReaped runToken) ∨
        control.state = .running ∧ q.recovery control = .recoverAutomated .resumeRequested ∨
        control.state = .stopRequested ∧ q.recovery control = .recoverAutomated .stopped)) ∨
    q.cancelledReservation control = none ∧ guardian control = none ∧
      (control.state = .readyInteractive ∨ control.state = .interactive) ∧
      q.resumesInteractive control = true ∧ q.recovery control = .recoverInteractive := by
  unfold recovery
  split
  · rename_i holder hcancel
    exact .inr (.inl ⟨holder, hcancel, rfl⟩)
  · rename_i hcancel
    split
    · rename_i holder disposition hguardian
      split
      · rename_i h
        rw [Bool.and_eq_true] at h
        exact .inr (.inr (.inl ⟨holder, disposition, hguardian, h.1, h.2, rfl⟩))
      · exact .inl rfl
    · rename_i hguardian
      rcases unguardedRecovery_cases q control with hleave | hgone | ⟨hstate, hresumes, heq⟩
      · exact .inl hleave
      · exact .inr (.inr (.inr (.inl hgone)))
      · exact .inr (.inr (.inr (.inr ⟨hcancel, hguardian, hstate, hresumes, heq⟩)))

/-- The call that was decided on, for the row of a session. -/
theorem recover_rowStep (q : Pass) (control : SessionControl) (session : String) (db : Registry) :
    RowStep q control (db.control? q.projectId session)
      ((q.recover control db).control? q.projectId session) := by
  unfold recover
  dsimp only
  rcases recovery_cases q control with hleave | ⟨holder, hcancel, heq⟩ |
      ⟨holder, disposition, hguardian, habandoned, habsent, heq⟩ | ⟨hgone, hautomated⟩ |
      ⟨-, -, -, -, heq⟩
  · rw [hleave]
    exact .inl rfl
  · rw [heq]
    exact cancel_rowStep hcancel
  · rw [heq]
    exact guardian_rowStep hguardian habandoned habsent
  · unfold recordedChildIsGone at hgone
    cases hpid : control.childPid with
    | none => rw [hpid] at hgone; cases hgone
    | some pid =>
      rw [hpid] at hgone
      have hgone : q.os.groupRunning pid = some false := beq_iff_eq.mp hgone
      rcases hautomated with ⟨runToken, heq⟩ | ⟨hstate, heq⟩ | ⟨hstate, heq⟩
      · rw [heq]
        exact finalizeReaped_rowStep hgone ..
      · rw [heq]
        refine update_rowStep (by exact fun _ _ _ h => h) (fun _ => rfl) fun r hwhere => ?_
        simp only [Bool.and_eq_true, decide_eq_true_eq, sqlEq_some, hstate] at hwhere
        exact .automated hwhere.1.2 hgone (.inl ⟨hwhere.1.1.2, rfl⟩)
      · rw [heq]
        refine update_rowStep (by exact fun _ _ _ h => h) (fun _ => rfl) fun r hwhere => ?_
        simp only [Bool.and_eq_true, decide_eq_true_eq, sqlEq_some, hstate] at hwhere
        exact .automated hwhere.1.2 hgone (.inr ⟨hwhere.1.1.2, rfl⟩)
  · rw [heq]
    refine update_rowStep (by exact fun _ _ _ h => h) (fun _ => rfl) fun r hwhere => ?_
    simp only [Bool.and_eq_true, decide_eq_true_eq, sqlSame_iff, SessionControl.is,
      beq_iff_eq] at hwhere
    exact .interactive hwhere.1.1.2 heq hwhere.1.2 hwhere.2

theorem reconcileControl_rowStep (q : Pass) (control : SessionControl) (session : String)
    (db : Registry) :
    RowStep q control (db.control? q.projectId session)
      ((q.reconcileControl db control).control? q.projectId session) := by
  unfold reconcileControl
  dsimp only
  split
  · exact retire_rowStep ..
  · have hsame : (if q.seeksSupervision control then
        q.ensureOrphanedSessionSupervision control.codexSessionId db else db).control?
          q.projectId session = db.control? q.projectId session := by
      split
      · unfold Registry.control?
        rw [ensureOrphanedSessionSupervision_sessionControls]
      · rfl
    rw [← hsame]
    exact recover_rowStep ..

end Pass

end Clt
