import Clt.Registry.StaleGeneration
import Clt.Session.HolderForms
import Clt.Session.RowChange

/-!
# Cancelling an interactive reservation

A reservation takes a parked session, or a session without a control, for interactive use; what
the session was is kept only in the prefix of the holder. Cancelling stops a session that the
holder was generated stopped for, and deletes the control of any other. That gives the control
back but for a queued resume, which is stopped.
-/

namespace Clt

open Relational Registry

/-! ## Statements over one control -/

namespace Registry

section Key

variable {db : Registry} {projectId projectId' : Int} {codexSessionId codexSessionId' : String}
  {where_ : SessionControl → Bool} {set : SessionControl → SessionControl}
  {hc : Compatible where_ set} {sc : SessionControl}

/-- An update of one session's control succeeds where the control meets its condition. -/
theorem updateControls_result (hkey : ∀ sc, where_ sc = true →
    sc.is projectId codexSessionId = true) :
    (db.updateControls where_ set hc).result = .ok true ↔
      ∃ sc, db.control? projectId codexSessionId = some sc ∧ where_ sc = true := by
  show Except.ok (decide (0 < db.sessionControls.count where_)) = .ok true ↔ _
  rw [Except.ok.injEq, decide_eq_true_eq, Table.count_pos_iff]
  constructor
  · rintro ⟨sc, hmem, hwhere⟩
    have hfound : db.control? projectId codexSessionId = some sc :=
      Table.find?_eq_some (fun _ _ => conflict_of_is) hmem (hkey sc hwhere)
    exact ⟨sc, hfound, hwhere⟩
  · rintro ⟨sc, hfound, hwhere⟩
    exact ⟨sc, Table.mem_of_find? hfound, hwhere⟩

theorem deleteControls_result (hkey : ∀ sc, where_ sc = true →
    sc.is projectId codexSessionId = true) :
    (db.deleteControls where_).result = .ok true ↔
      ∃ sc, db.control? projectId codexSessionId = some sc ∧ where_ sc = true := by
  show Except.ok (decide (0 < db.sessionControls.count where_)) = .ok true ↔ _
  rw [Except.ok.injEq, decide_eq_true_eq, Table.count_pos_iff]
  constructor
  · rintro ⟨sc, hmem, hwhere⟩
    have hfound : db.control? projectId codexSessionId = some sc :=
      Table.find?_eq_some (fun _ _ => conflict_of_is) hmem (hkey sc hwhere)
    exact ⟨sc, hfound, hwhere⟩
  · rintro ⟨sc, hfound, hwhere⟩
    exact ⟨sc, Table.mem_of_find? hfound, hwhere⟩

theorem control?_rewritten (hset : ∀ sc, (set sc).projectId = sc.projectId ∧
    (set sc).codexSessionId = sc.codexSessionId) :
    (db.updateControls where_ set hc).db.control? projectId codexSessionId =
      (db.control? projectId codexSessionId).map (Table.rewrite where_ set) := by
  refine Table.find?_update hc fun sc => ?_
  rw [SessionControl.is, (hset sc).1, (hset sc).2, SessionControl.is]

/-- What meets the condition has the other session's key, and no other. -/
theorem where_eq_false (hkey : ∀ sc, where_ sc = true → sc.is projectId codexSessionId = true)
    (hother : (projectId', codexSessionId') ≠ (projectId, codexSessionId))
    (hfound : db.control? projectId' codexSessionId' = some sc) : where_ sc = false := by
  by_contra hwhere
  have his := hkey sc (Bool.not_eq_false _ ▸ hwhere)
  have his' := Table.of_find? hfound
  simp only [SessionControl.is, Bool.and_eq_true, beq_iff_eq] at his his'
  exact hother (by rw [← his'.1, ← his'.2, his.1, his.2])

theorem control?_updateControls_other (hkey : ∀ sc, where_ sc = true →
      sc.is projectId codexSessionId = true)
    (hset : ∀ sc, (set sc).projectId = sc.projectId ∧
      (set sc).codexSessionId = sc.codexSessionId)
    (hother : (projectId', codexSessionId') ≠ (projectId, codexSessionId)) :
    (db.updateControls where_ set hc).db.control? projectId' codexSessionId' =
      db.control? projectId' codexSessionId' := by
  rw [control?_rewritten hset]
  cases hfound : db.control? projectId' codexSessionId' with
  | none => rfl
  | some sc => rw [Option.map_some, Table.rewrite, where_eq_false hkey hother hfound]; rfl

theorem control?_deleteControls_other (hkey : ∀ sc, where_ sc = true →
      sc.is projectId codexSessionId = true)
    (hother : (projectId', codexSessionId') ≠ (projectId, codexSessionId)) :
    (db.deleteControls where_).db.control? projectId' codexSessionId' =
      db.control? projectId' codexSessionId' := by
  rw [control?_deleteControls]
  cases hfound : db.control? projectId' codexSessionId' with
  | none => rfl
  | some sc => rw [Option.filter_some, where_eq_false hkey hother hfound]; rfl

/-- What an insertion that succeeds leaves, under every key. -/
theorem control?_insertControl {condition : Bool} {context : String}
    (h : (db.insertControl condition sc context).result = .ok true) :
    condition = true ∧ ∀ projectId codexSessionId,
      (db.insertControl condition sc context).db.control? projectId codexSessionId =
        (db.control? projectId codexSessionId).or
          (if sc.is projectId codexSessionId then some sc else none) := by
  unfold insertControl at h ⊢
  cases condition with
  | false => cases h
  | true =>
    refine ⟨rfl, fun projectId codexSessionId => ?_⟩
    cases hins : db.insertOrIgnoreInto sc.projectId db.sessionControls sc with
    | none =>
      rw [hins] at h
      cases h
    | some res =>
      rw [hins] at h
      have hres := insertOrIgnoreInto_eq_some hins
      rcases Table.insertOrIgnore_cases db.sessionControls sc with ⟨-, heq⟩ | ⟨hfresh, heq⟩
      · rw [hres, heq] at h
        cases h
      · rw [hres, heq]
        exact Table.find?_append (h := hfresh) _

end Key

end Registry

/-! ## Reservations -/

/-- A reservation and the holder that is generated for it: of a project of its own
(`try_acquire_idle`), or of one that is shared (`holder_for_shared_session`). -/
inductive InteractiveReservation where
  | idle (stopped : Bool) (expectedState : Option AgentSessionControlState)
  | shared (restoreStopped hasManualOwner : Bool)
  deriving DecidableEq, Repr

namespace InteractiveReservation

def form : InteractiveReservation → InteractiveHolderForm
  | idle stopped _ => if stopped then .stopped else .idle
  | shared restoreStopped _ => .shared restoreStopped

/-- The session was stopped, or queued, before the reservation. -/
def restoresStopped : InteractiveReservation → Bool
  | idle stopped _ => stopped
  | shared restoreStopped _ => restoreStopped

/-- `reserve_idle_session_interactive_for_state` and `reserve_shared_session_interactive`. -/
def reserve (reservation : InteractiveReservation) (projectId : Int)
    (codexSessionId interactiveHolder : String) (expectedStoppedRunToken : Option String)
    (now : String) (db : Registry) : Outcome Bool :=
  match reservation with
  | idle _ expectedState =>
    db.reserveIdleSessionInteractiveForState projectId codexSessionId interactiveHolder
      expectedStoppedRunToken expectedState now
  | shared _ hasManualOwner =>
    db.reserveSharedSessionInteractive projectId codexSessionId interactiveHolder
      expectedStoppedRunToken hasManualOwner now

end InteractiveReservation

/-- The control up to `updated_at`. -/
def SessionControl.undated (sc : SessionControl) : SessionControl := { sc with updatedAt := "" }

section Holders

variable {reservation : InteractiveReservation} {pid generation sequence : Nat}

theorem startsWith_stopped (reservation : InteractiveReservation) (pid generation sequence : Nat) :
    startsWith (reservation.form.holder pid generation sequence) "clt-stopped-interactive-" =
      decide (reservation.form = .stopped) := by
  rw [InteractiveHolderForm.holder,
    startsWith_holderForProcess reservation.form.spelling (.lit _) (by decide)]
  rcases reservation.form with _ | _ | _ | _ | _ <;> decide

theorem isStoppedShared_holder (reservation : InteractiveReservation)
    (pid generation sequence : Nat) :
    isStoppedSharedInteractiveHolder (reservation.form.holder pid generation sequence) =
      decide (reservation.form = .shared true) := by
  rw [isStoppedSharedInteractiveHolder, InteractiveHolderForm.holder,
    startsWith_holderForProcess reservation.form.spelling (.lit _) (by decide),
    startsWith_holderForProcess reservation.form.spelling (.lit _) (by decide)]
  rcases reservation.form with _ | _ | _ | _ | _ <;> decide

/-- The holder remembers whether the session was stopped. -/
theorem restores_of_holder (reservation : InteractiveReservation)
    (pid generation sequence : Nat) :
    (startsWith (reservation.form.holder pid generation sequence) "clt-stopped-interactive-" ||
        isStoppedSharedInteractiveHolder (reservation.form.holder pid generation sequence)) =
      reservation.restoresStopped := by
  rw [startsWith_stopped, isStoppedShared_holder]
  rcases reservation with ⟨_ | _, _⟩ | ⟨_ | _, _⟩ <;> rfl

end Holders

/-! ## What a reservation makes of the control -/

/-- A reservation that succeeds finds no control, or one that is parked. -/
inductive ReservedControl (projectId : Int) (codexSessionId holder now : String) :
    Bool → Option SessionControl → SessionControl → Prop
  | fresh : ReservedControl projectId codexSessionId holder now false none
      (reserveInteractive holder now
        (SessionControl.fresh projectId codexSessionId .readyInteractive now))
  | parked {sc : SessionControl} (hparked : sc.isParked = true) :
      ReservedControl projectId codexSessionId holder now true (some sc)
        (reserveInteractive holder now sc)

/-- The control that is reserved waits for the guardian to adopt it. -/
theorem ReservedControl.ready {projectId : Int} {codexSessionId holder now : String}
    {restoresStopped : Bool} {before : Option SessionControl} {sc : SessionControl}
    (h : ReservedControl projectId codexSessionId holder now restoresStopped before sc) :
    sc.state = .readyInteractive ∧ sc.interactiveHolder = some holder := by
  cases h with
  | fresh => exact ⟨rfl, rfl⟩
  | parked => exact ⟨rfl, rfl⟩

theorem is_fresh (projectId : Int) (codexSessionId holder now : String)
    (state : AgentSessionControlState) (projectId' : Int) (codexSessionId' : String) :
    (reserveInteractive holder now (SessionControl.fresh projectId codexSessionId state now)).is
        projectId' codexSessionId' =
      decide ((projectId', codexSessionId') = (projectId, codexSessionId)) := by
  rw [SessionControl.is, Bool.eq_iff_iff]
  simp only [reserveInteractive, SessionControl.fresh, Bool.and_eq_true, beq_iff_eq,
    decide_eq_true_eq, Prod.mk.injEq]
  exact and_congr eq_comm eq_comm

section Reserve

variable {db : Registry} {projectId : Int} {codexSessionId holder now context : String}

/-- What is reserved, and that nothing else is. -/
structure Reserved (db reserved : Registry) (projectId : Int) (codexSessionId holder now : String)
    (restoresStopped : Bool) : Prop where
  control : ∃ sc, reserved.control? projectId codexSessionId = some sc ∧
    ReservedControl projectId codexSessionId holder now restoresStopped
      (db.control? projectId codexSessionId) sc
  others : ∀ projectId' codexSessionId',
    (projectId', codexSessionId') ≠ (projectId, codexSessionId) →
    reserved.control? projectId' codexSessionId' = db.control? projectId' codexSessionId'

theorem reserved_of_update {where_ : SessionControl → Bool}
    {hc : Compatible where_ (reserveInteractive holder now)}
    (hkey : ∀ sc, where_ sc = true → sc.is projectId codexSessionId = true)
    (hparked : ∀ sc, where_ sc = true → sc.isParked = true)
    (h : (db.updateControls where_ (reserveInteractive holder now) hc).result = .ok true) :
    Reserved db (db.updateControls where_ (reserveInteractive holder now) hc).db projectId
      codexSessionId holder now true := by
  have hset (sc : SessionControl) : (reserveInteractive holder now sc).projectId = sc.projectId ∧
      (reserveInteractive holder now sc).codexSessionId = sc.codexSessionId := ⟨rfl, rfl⟩
  obtain ⟨sc, hfound, hwhere⟩ := (updateControls_result hkey).mp h
  constructor
  · refine ⟨reserveInteractive holder now sc, ?_, ?_⟩
    · rw [control?_rewritten hset, hfound, Option.map_some, Table.rewrite, if_pos hwhere]
    · rw [hfound]
      exact .parked (hparked sc hwhere)
  · exact fun _ _ hother => control?_updateControls_other hkey hset hother

theorem reserved_of_insert {condition : Bool}
    (habsent : condition = true → db.control? projectId codexSessionId = none)
    (h : (db.insertControl condition (reserveInteractive holder now
      (SessionControl.fresh projectId codexSessionId .readyInteractive now)) context).result =
        .ok true) :
    Reserved db (db.insertControl condition (reserveInteractive holder now
      (SessionControl.fresh projectId codexSessionId .readyInteractive now)) context).db projectId
      codexSessionId holder now false := by
  obtain ⟨hcondition, hcontrols⟩ := control?_insertControl h
  have hnone := habsent hcondition
  constructor
  · refine ⟨reserveInteractive holder now
      (SessionControl.fresh projectId codexSessionId .readyInteractive now), ?_, ?_⟩
    · rw [hcontrols, hnone, Option.none_or, is_fresh, if_pos (decide_eq_true rfl)]
    · rw [hnone]
      exact .fresh
  · intro projectId' codexSessionId' hother
    rw [hcontrols, is_fresh, if_neg (by simpa using hother), Option.or_none]

theorem absent_of_any
    (h : db.sessionControls.any (SessionControl.is projectId codexSessionId) = false) :
    db.control? projectId codexSessionId = none :=
  Table.find?_eq_none_iff.mpr (Table.any_eq_false_iff.mp h)

end Reserve

theorem InteractiveReservation.reserved (reservation : InteractiveReservation) {db : Registry}
    {projectId : Int} {codexSessionId now : String} {token : Option String}
    {pid generation sequence : Nat}
    (h : (reservation.reserve projectId codexSessionId
      (reservation.form.holder pid generation sequence) token now db).result = .ok true) :
    Reserved db (reservation.reserve projectId codexSessionId
        (reservation.form.holder pid generation sequence) token now db).db projectId codexSessionId
      (reservation.form.holder pid generation sequence) now reservation.restoresStopped := by
  have hstopped := startsWith_stopped reservation pid generation sequence
  have hshared := isStoppedShared_holder reservation pid generation sequence
  -- Idle or shared, and from nothing or from what was stopped: an insert or an update.
  rcases reservation with ⟨_ | _, expectedState⟩ | ⟨_ | _, hasManualOwner⟩
  · unfold reserve reserveIdleSessionInteractiveForState at h ⊢
    dsimp only at h ⊢
    rw [if_neg (by rw [hstopped]; exact Bool.false_ne_true)] at h ⊢
    refine reserved_of_insert (fun hcondition => absent_of_any ?_) h
    simp only [Bool.and_eq_true, Bool.not_eq_true'] at hcondition
    exact hcondition.1
  · unfold reserve reserveIdleSessionInteractiveForState at h ⊢
    dsimp only at h ⊢
    rw [if_pos (by rw [hstopped]; rfl)] at h ⊢
    refine reserved_of_update (fun sc hwhere => ?_) (fun sc hwhere => ?_) h
    · simp only [Bool.and_eq_true] at hwhere
      exact hwhere.1.1.1.1.1.1.1
    · simp only [Bool.and_eq_true] at hwhere
      exact hwhere.1.1.1.1.1.1.2
  · unfold reserve reserveSharedSessionInteractive at h ⊢
    dsimp only at h ⊢
    rw [if_neg (by rw [hshared]; exact Bool.false_ne_true)] at h ⊢
    refine reserved_of_insert (fun hcondition => absent_of_any ?_) h
    simp only [Bool.and_eq_true, Bool.not_eq_true'] at hcondition
    exact hcondition.1
  · unfold reserve reserveSharedSessionInteractive at h ⊢
    dsimp only at h ⊢
    rw [if_pos (by rw [hshared]; rfl)] at h ⊢
    refine reserved_of_update (fun sc hwhere => ?_) (fun sc hwhere => ?_) h
    · simp only [Bool.and_eq_true] at hwhere
      exact hwhere.1.1.1
    · simp only [Bool.and_eq_true, Bool.or_eq_true, decide_eq_true_eq] at hwhere
      rw [SessionControl.isParked, Bool.or_eq_true, decide_eq_true_eq, decide_eq_true_eq]
      exact hwhere.1.1.2.imp id fun hqueued => hqueued.1.1.1

/-! ## What cancelling makes of it -/

section Cancel

variable {db : Registry} {projectId : Int} {codexSessionId holder now : String}

/-- What the cancellation writes over or deletes. -/
def isReservedFor (projectId : Int) (codexSessionId holder : String) (sc : SessionControl) : Bool :=
  sc.is projectId codexSessionId && sc.state = .readyInteractive &&
    sqlEq sc.interactiveHolder (some holder)

theorem is_of_isReservedFor (sc : SessionControl)
    (h : isReservedFor projectId codexSessionId holder sc = true) :
    sc.is projectId codexSessionId = true := by
  simp only [isReservedFor, Bool.and_eq_true] at h
  exact h.1.1

theorem cancel_eq (reservation : InteractiveReservation) (pid generation sequence : Nat) :
    let holder := reservation.form.holder pid generation sequence
    db.cancelIdleSessionInteractive projectId codexSessionId holder now =
      if reservation.restoresStopped then
        db.updateControls (isReservedFor projectId codexSessionId holder)
          (SessionControl.settle .stopped now)
      else db.deleteControls (isReservedFor projectId codexSessionId holder) := by
  rw [← restores_of_holder reservation pid generation sequence]
  rfl

/-- A cancellation that does not succeed changes nothing. -/
theorem cancel_refused (h : (db.cancelIdleSessionInteractive projectId codexSessionId holder
      now).result ≠ .ok true) :
    (db.cancelIdleSessionInteractive projectId codexSessionId holder now).db = db := by
  have hcount {where_ : SessionControl → Bool}
      (hwhere : (Except.ok (decide (0 < db.sessionControls.count where_)) : Except String Bool) ≠
        .ok true) : db.sessionControls.count where_ = 0 := by
    by_contra hne
    exact hwhere (congrArg Except.ok (decide_eq_true (Nat.pos_of_ne_zero hne)))
  unfold cancelIdleSessionInteractive at h ⊢
  dsimp only at h ⊢
  split
  · rename_i hrestores
    rw [if_pos hrestores] at h
    exact updateControls_eq_self (hcount h)
  · rename_i hrestores
    rw [if_neg hrestores] at h
    exact congrArg (fun controls => { db with sessionControls := controls })
      (Table.delete_eq_self (hcount h))

/-- The control that is cancelled is parked and without an owner, or gone. -/
def cancelledControl (restoresStopped : Bool) (now : String) (sc : SessionControl) :
    Option SessionControl :=
  if restoresStopped then some (sc.settle .stopped now) else none

theorem control?_cancel (reservation : InteractiveReservation) {pid generation sequence : Nat}
    {sc : SessionControl} (hfound : db.control? projectId codexSessionId = some sc)
    (hstate : sc.state = .readyInteractive)
    (hholder : sc.interactiveHolder = some (reservation.form.holder pid generation sequence)) :
    let cancelled := db.cancelIdleSessionInteractive projectId codexSessionId
      (reservation.form.holder pid generation sequence) now
    cancelled.result = .ok true ∧
      cancelled.db.control? projectId codexSessionId =
        cancelledControl reservation.restoresStopped now sc ∧
      ∀ projectId' codexSessionId', (projectId', codexSessionId') ≠ (projectId, codexSessionId) →
        cancelled.db.control? projectId' codexSessionId' =
          db.control? projectId' codexSessionId' := by
  have hreserved : isReservedFor projectId codexSessionId
      (reservation.form.holder pid generation sequence) sc = true := by
    rw [isReservedFor, Table.of_find? hfound, hstate, hholder]
    simp [sqlEq]
  have hset (sc : SessionControl) : (sc.settle .stopped now).projectId = sc.projectId ∧
      (sc.settle .stopped now).codexSessionId = sc.codexSessionId := ⟨rfl, rfl⟩
  dsimp only
  rw [cancel_eq]
  -- A control that was stopped is stopped again; any other is removed.
  cases reservation.restoresStopped with
  | true =>
    rw [if_pos rfl]
    refine ⟨(updateControls_result is_of_isReservedFor).mpr ⟨sc, hfound, hreserved⟩, ?_,
      fun _ _ hother => control?_updateControls_other is_of_isReservedFor hset hother⟩
    refine (control?_rewritten hset).trans ?_
    rw [hfound, Option.map_some, Table.rewrite, if_pos hreserved]
    rfl
  | false =>
    rw [if_neg Bool.false_ne_true]
    refine ⟨(deleteControls_result is_of_isReservedFor).mpr ⟨sc, hfound, hreserved⟩, ?_,
      fun _ _ hother => control?_deleteControls_other is_of_isReservedFor hother⟩
    rw [control?_deleteControls, hfound, Option.filter_some, hreserved]
    rfl

end Cancel

/-! ## Reservation and cancellation -/

/-- A reservation that does not succeed changes nothing. -/
theorem InteractiveReservation.refused (reservation : InteractiveReservation) {db : Registry}
    {projectId : Int} {codexSessionId holder now : String} {token : Option String}
    (h : (reservation.reserve projectId codexSessionId holder token now db).result ≠ .ok true) :
    (reservation.reserve projectId codexSessionId holder token now db).db = db := by
  have hupdate {where_ : SessionControl → Bool} {set : SessionControl → SessionControl}
      {hc : Compatible where_ set} (h : (db.updateControls where_ set hc).result ≠ .ok true) :
      (db.updateControls where_ set hc).db = db := by
    refine updateControls_eq_self ?_
    by_contra hne
    exact h (congrArg Except.ok (decide_eq_true (Nat.pos_of_ne_zero hne)))
  have hinsert {condition : Bool} {sc : SessionControl} {context : String}
      (h : (db.insertControl condition sc context).result ≠ .ok true) :
      (db.insertControl condition sc context).db = db := by
    unfold insertControl at h ⊢
    cases condition with
    | false => rfl
    | true =>
      cases hins : db.insertOrIgnoreInto sc.projectId db.sessionControls sc with
      | none => rfl
      | some res =>
        rw [hins] at h
        rcases Table.insertOrIgnore_cases db.sessionControls sc with ⟨-, heq⟩ | ⟨hfresh, heq⟩
        · rw [insertOrIgnoreInto_eq_some hins, heq]
          rfl
        · rw [insertOrIgnoreInto_eq_some hins, heq] at h
          exact absurd rfl h
  -- Either statement is the only one that the reservation runs.
  cases reservation with
  | idle stopped expectedState =>
    unfold reserve reserveIdleSessionInteractiveForState at h ⊢
    dsimp only at h ⊢
    split
    · rename_i hholder
      rw [if_pos hholder] at h
      exact hupdate h
    · rename_i hholder
      rw [if_neg hholder] at h
      exact hinsert h
  | shared restoreStopped hasManualOwner =>
    unfold reserve reserveSharedSessionInteractive at h ⊢
    dsimp only at h ⊢
    split
    · rename_i hholder
      rw [if_pos hholder] at h
      exact hupdate h
    · rename_i hholder
      rw [if_neg hholder] at h
      exact hinsert h

/-- What is left of a reserved control is what it was exactly where that was stopped without an
owner, or nothing. -/
theorem undated_cancelledControl {projectId : Int} {codexSessionId holder now now' : String}
    {restoresStopped : Bool} {before : Option SessionControl} {sc : SessionControl}
    (h : ReservedControl projectId codexSessionId holder now restoresStopped before sc) :
    (cancelledControl restoresStopped now' sc).map SessionControl.undated =
        before.map SessionControl.undated ↔
      ∀ old, before = some old → old.state = .stopped ∧ old.isIdle = true := by
  cases h with
  | fresh =>
    constructor
    · intro _ old hold
      cases hold
    · intro _
      rfl
  | parked hparked =>
    rename_i old
    obtain ⟨projectId', codexSessionId', state, holder', child, token, paths, runToken, log,
      updated⟩ := old
    simp only [cancelledControl, if_true, Option.map_some, Option.some.injEq, forall_eq',
      SessionControl.undated, SessionControl.settle, reserveInteractive, SessionControl.isIdle,
      Bool.and_eq_true, Option.isNone_iff_eq_none, SessionControl.mk.injEq, true_and, and_true]
    -- Cancelling clears the owner, the child and the token whether or not they were there.
    constructor
    · rintro ⟨hstate, hchild, hholder, htoken⟩
      exact ⟨hstate.symm, ⟨hchild.symm, hholder.symm⟩, htoken.symm⟩
    · rintro ⟨hstate, ⟨hchild, hholder⟩, htoken⟩
      exact ⟨hstate.symm, hchild.symm, hholder.symm, htoken.symm⟩

/-- What cancelling a reservation gives: nothing changes where the reservation or its cancellation
is refused; else only the session's control, which is what it was where it was stopped, without an
owner, or absent. Other calls may run in between, as long as the reserved control stays. -/
theorem reservationCancelled (db : Registry) (reservation : InteractiveReservation)
    (projectId : Int) (codexSessionId : String) (token : Option String) (now now' : String)
    (pid generation sequence : Nat) :
    let holder := reservation.form.holder pid generation sequence
    let reserved := reservation.reserve projectId codexSessionId holder token now db
    let cancel := cancelIdleSessionInteractive projectId codexSessionId holder now'
    (reserved.result ≠ .ok true → reserved.db = db) ∧
    (∀ later, (cancel later).result ≠ .ok true → (cancel later).db = later) ∧
    (reserved.result = .ok true →
      (∀ projectId' codexSessionId', (projectId', codexSessionId') ≠ (projectId, codexSessionId) →
        reserved.db.control? projectId' codexSessionId' =
          db.control? projectId' codexSessionId') ∧
      ∀ later, later.control? projectId codexSessionId =
          reserved.db.control? projectId codexSessionId →
        (cancel later).result = .ok true ∧
        (∀ projectId' codexSessionId',
          (projectId', codexSessionId') ≠ (projectId, codexSessionId) →
          (cancel later).db.control? projectId' codexSessionId' =
            later.control? projectId' codexSessionId') ∧
        (((cancel later).db.control? projectId codexSessionId).map SessionControl.undated =
            (db.control? projectId codexSessionId).map SessionControl.undated ↔
          ∀ sc, db.control? projectId codexSessionId = some sc →
            sc.state = .stopped ∧ sc.isIdle = true)) := by
  refine ⟨reservation.refused, fun _ => cancel_refused, fun hreserved => ?_⟩
  have hdone := reservation.reserved hreserved
  obtain ⟨sc, hfound, hcontrol⟩ := hdone.control
  refine ⟨hdone.others, fun later hlater => ?_⟩
  -- The reserved control has stayed, so it is the one that is cancelled.
  rw [hfound] at hlater
  have hready := hcontrol.ready
  obtain ⟨hresult, hcancelled, hothers⟩ := control?_cancel reservation hlater hready.1 hready.2
  refine ⟨hresult, hothers, ?_⟩
  rw [hcancelled]
  exact undated_cancelledControl hcontrol

/-- A project whose session is queued for resumption; the visitor has the project's lease. -/
def queuedRegistry : Registry :=
  { managedRegistry with
    sessionControls := ⟨[SessionControl.fresh 1 "s" .resumeRequested "0"], by decide⟩
    leases := ⟨[{ projectId := 1, holder := InteractiveHolderForm.stopped.holder 7 5 0,
                  acquiredAt := "1", expiresAt := "9" }], by decide⟩ }

/-- The queued session is stopped after a visit that was called off. -/
theorem queued_cancelled :
    let reservation := InteractiveReservation.idle true (some .resumeRequested)
    let holder := reservation.form.holder 7 5 0
    let reserved := reservation.reserve 1 "s" holder none "2" queuedRegistry
    let cancelled := reserved.db.cancelIdleSessionInteractive 1 "s" holder "3"
    reserved.result = .ok true ∧ cancelled.result = .ok true ∧
      (queuedRegistry.control? 1 "s").map SessionControl.state = some .resumeRequested ∧
      (cancelled.db.control? 1 "s").map SessionControl.state = some .stopped := by
  decide

end Clt
