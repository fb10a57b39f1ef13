import Clt.Registry.ControlEffect

/-!
# Ending a journal that has no live owner

Five calls end an unfinished journal on someone else's behalf, and each restates in
its own SQL that nobody is working on it. `NoLiveOwner` states it once: the session's
control is parked and idle, no active worker runs it or could be running it, and any
unexpired lease of the project is the caller's or belongs to other work. Each call is
`Guarded`: it succeeds only then, and otherwise changes nothing.
-/

namespace Clt

open Relational Registry

/-! ## Guarded calls -/

/-- The call succeeds only under `facts`, and otherwise leaves a registry that is
`unchanged`. -/
structure Outcome.Guarded {α : Type} (o : Outcome α) (done : α) (facts : Prop)
    (unchanged : Registry → Prop) : Prop where
  succeeded : o.result = .ok done → facts
  refused : o.result ≠ .ok done → unchanged o.db

theorem transaction_guarded {α : Type} {db : Registry} {body : Step α (α × Registry)} {done : α}
    {facts : Prop} {unchanged : Registry → Prop} (hleaves : Leaves (· ≠ .ok done) body)
    (hdb : unchanged db)
    (h : ∀ a db', body = .ok (a, db') → facts ∧ a = done ∨ unchanged db' ∧ a ≠ done) :
    (db.transaction body).Guarded done facts unchanged := by
  cases body with
  | error r => exact ⟨fun hr => absurd hr (hleaves r rfl), fun _ => hdb⟩
  | ok p =>
    rcases h p.1 p.2 rfl with ⟨hfacts, hdone⟩ | ⟨hsame, hne⟩
    · exact ⟨fun _ => hfacts, fun hr => absurd (congrArg Except.ok hdone) hr⟩
    · exact ⟨fun hr => absurd (Except.ok.inj hr) hne, fun _ => hsame⟩

/-! ## Journals and their owners -/

/-- `g` is the session's journal, uncommitted, in one of the given states, at the given
generation and identity. -/
structure Registry.HasUncommitted (db : Registry) (projectId : Int) (codexSessionId : String)
    (states : List GitFinalizationState) (generation : Int) (taskIdentity : Option String)
    (g : GitFinalization) : Prop where
  stored : g ∈ db.gitFinalizations
  key : g.is projectId codexSessionId = true
  state : g.state ∈ states
  generation : g.generation = generation
  taskIdentity : g.taskIdentity = taskIdentity
  commitOid : g.commitOid = none

/-- The lease belongs to other work of the project: an interactive session other than
this one, or an active worker that resumes another session, runs another session, or
is a read-only supervisor review. -/
def Registry.HeldElsewhere (db : Registry) (projectId : Int) (codexSessionId : String)
    (l : Lease) : Prop :=
  (∃ other ∈ db.sessionControls, other.projectId = projectId ∧
    other.codexSessionId ≠ codexSessionId ∧ other.interactiveHolder = some l.holder) ∨
  ∃ w ∈ db.agentWorkers, w.activeIn projectId = true ∧ w.leaseHolder = l.holder ∧
    ((∃ session, w.resumeSessionId = some session ∧ session ≠ codexSessionId) ∨
      w.taskSelection = "supervisor_review" ∨
      ∃ other ∈ db.sessionControls, other.projectId = projectId ∧
        other.codexSessionId ≠ codexSessionId ∧ other.runToken = some w.workerToken)

/-- Nobody is working on the session at `now`, the caller apart. -/
structure Registry.NoLiveOwner (db : Registry) (projectId : Int) (codexSessionId : String)
    (ownerRunToken : Option String) (now : String) (caller : Option String) : Prop where
  control : ∀ sc ∈ db.sessionControls, sc.is projectId codexSessionId = true →
    sc.isParked = true ∧ sc.isIdle = true
  worker : ∀ w ∈ db.agentWorkers, w.activeIn projectId = true →
    db.mayRunSession projectId codexSessionId ownerRunToken w = false
  lease : ∀ l ∈ db.leases, l.projectId = projectId →
    castInteger now < castInteger l.expiresAt →
    caller = some l.holder ∨ db.HeldElsewhere projectId codexSessionId l

namespace Registry

variable {db : Registry} {projectId : Int} {codexSessionId : String}

/-- A project without active workers and foreign leases. -/
theorem NoLiveOwner.of_idle {ownerRunToken caller : Option String} {now : String}
    (hworker : db.hasActiveWorker projectId = false)
    (hcontrol : ∀ sc ∈ db.sessionControls, sc.is projectId codexSessionId = true →
      sc.isParked = true ∧ sc.isIdle = true)
    (hlease : ∀ l ∈ db.leases, l.projectId = projectId →
      castInteger now < castInteger l.expiresAt → caller = some l.holder) :
    db.NoLiveOwner projectId codexSessionId ownerRunToken now caller := by
  refine ⟨hcontrol, fun w hw hactive => ?_, fun l hl hp hnow => .inl (hlease l hl hp hnow)⟩
  rw [Table.any_eq_false_iff.mp hworker w hw] at hactive
  cases hactive

theorem parked_of_not_hasBusyControl (h : db.hasBusyControl projectId = false)
    {sc : SessionControl} (hsc : sc ∈ db.sessionControls)
    (hkey : sc.is projectId codexSessionId = true) : sc.isParked = true ∧ sc.isIdle = true := by
  have hidle := Table.any_eq_false_iff.mp h sc hsc
  simp only [SessionControl.is, Bool.and_eq_true] at hkey
  simpa only [hkey.1, Bool.true_and, Bool.or_eq_false_iff, Bool.not_eq_false'] using hidle

theorem not_unexpired_of_not_hasUnexpiredLease {now : String}
    (h : db.hasUnexpiredLease projectId now = false) {l : Lease} (hl : l ∈ db.leases)
    (hp : l.projectId = projectId) : ¬ castInteger now < castInteger l.expiresAt := by
  have := Table.any_eq_false_iff.mp h l hl
  simpa [hp] using this

/-- What `can_delete_idle_task` found. -/
theorem of_canDeleteIdleTask {generation : Int} {taskIdentity : Option String} {now : String}
    (h : db.canDeleteIdleTask projectId codexSessionId generation taskIdentity now = true) :
    ∃ g, db.HasUncommitted projectId codexSessionId [.working] generation taskIdentity g ∧
      db.NoLiveOwner projectId codexSessionId g.ownerRunToken now none := by
  obtain ⟨g, hg, hp⟩ := Table.exists_of_count_eq_one (of_decide_eq_true h)
  simp only [Bool.and_eq_true, decide_eq_true_eq, beq_iff_eq, Option.isNone_iff_eq_none,
    Bool.not_eq_true'] at hp
  obtain ⟨⟨⟨⟨⟨⟨⟨⟨hkey, hstate⟩, hgen⟩, hidentity⟩, hoid⟩, hcontrol⟩, hworker⟩, -⟩, hlease⟩ := hp
  have hfree : ∀ w ∈ db.agentWorkers, w.activeIn projectId = true →
      db.mayRunSession projectId codexSessionId g.ownerRunToken w = false := by
    intro w hw hactive
    have := Table.any_eq_false_iff.mp hworker w hw
    rwa [hactive, Bool.true_and] at this
  refine ⟨g, ⟨hg, hkey, by simp [hstate], hgen, hidentity, hoid⟩, ⟨fun sc hsc hk => ?_, hfree,
    fun l hl hproject hnow => .inr ?_⟩⟩
  · have := Table.any_eq_false_iff.mp hcontrol sc hsc
    simpa only [hk, Bool.true_and, Bool.or_eq_false_iff, Bool.not_eq_false'] using this
  · have := Table.any_eq_false_iff.mp hlease l hl
    simp only [hproject, beq_self_eq_true, hnow, decide_true, Bool.true_and,
      Bool.and_eq_false_iff, Bool.not_eq_false', Table.any_iff, Bool.and_eq_true, beq_iff_eq,
      bne_iff_ne, sqlEq_some] at this
    rcases this with ⟨w, hw, hactive, hholder⟩ | ⟨other, hother, ⟨hp', hs'⟩, hholder⟩
    · -- An active worker holds the lease, and it is not one that may run the session.
      refine .inr ⟨w, hw, hactive, hholder, ?_⟩
      have hnot := hfree w hw hactive
      simp only [mayRunSession, Bool.or_eq_false_iff] at hnot
      obtain ⟨⟨⟨-, hresume⟩, -⟩, hother⟩ := hnot
      cases hr : w.resumeSessionId with
      | some session =>
        refine .inl ⟨session, rfl, ?_⟩
        rw [hr] at hresume
        simpa using hresume
      | none =>
        refine .inr ?_
        simp only [hr, Option.isNone_none, Bool.true_and, Bool.and_eq_false_iff,
          bne_eq_false_iff_eq, Bool.not_eq_false', Table.any_iff, Bool.and_eq_true, beq_iff_eq,
          bne_iff_ne, sqlEq_some] at hother
        rcases hother with hreview | ⟨other, ho, ⟨hp', hs'⟩, htoken⟩
        · exact .inl hreview
        · exact .inr ⟨other, ho, hp', hs', htoken⟩
    · exact .inl ⟨other, hother, hp', hs', hholder⟩

/-! ## One lemma per call -/

/-- The lease of the finalizer that cancels an orphan is the project's only one. -/
theorem cancelOrphanedWorkingGitFinalization_guarded (expected : GitFinalization)
    (finalizerHolder reason updatedAt now : String) :
    (db.cancelOrphanedWorkingGitFinalization expected finalizerHolder reason updatedAt
      now).Guarded true
      (∃ g, db.HasUncommitted expected.projectId expected.codexSessionId [.working]
          expected.generation expected.taskIdentity g ∧
        db.NoLiveOwner expected.projectId expected.codexSessionId g.ownerRunToken now
          (some finalizerHolder)) (· = db) := by
  refine transaction_guarded ?_ rfl fun a db' h => ?_
  · refine leaves_bind (leaves_fetch nofun) fun _ => ?_
    refine leaves_bind (leaves_attempt nofun) fun _ => ?_
    refine leaves_bind (leaves_require nofun) fun _ => ?_
    refine leaves_bind (leaves_require nofun) fun _ => ?_
    refine leaves_bind (leaves_require nofun) fun _ => ?_
    exact leaves_bind (leaves_require nofun) fun _ => leaves_ok _
  · simp only [require_bind_eq_ok, fetch_bind_eq_ok, attempt_bind_eq_ok] at h
    obtain ⟨row, hrow, current, hcurrent, hexpected, howns, -, -, ⟨⟩⟩ := h
    obtain ⟨-, rfl⟩ := GitFinalization.recordFromRow_eq_ok.mp hcurrent
    simp only [Bool.and_eq_true, beq_iff_eq, decide_eq_true_eq,
      Option.isNone_iff_eq_none] at hexpected
    obtain ⟨⟨⟨⟨⟨⟨⟨rfl, hstate⟩, -⟩, hoid⟩, -⟩, -⟩, -⟩, -⟩ := hexpected
    obtain ⟨l, hl, hp⟩ := Table.exists_of_count_eq_one (of_decide_eq_true howns)
    simp only [Bool.and_eq_true, beq_iff_eq, Bool.not_eq_true'] at hp
    obtain ⟨⟨⟨⟨⟨hproject, hholder⟩, -⟩, hworker⟩, hcontrols⟩, -⟩ := hp
    refine .inl ⟨⟨row, ⟨Table.mem_of_find? hrow, Table.of_find? hrow, by simp [hstate], rfl, rfl,
      hoid⟩, .of_idle hworker (fun sc hsc hkey => ?_) fun l' hl' hp' _ => ?_⟩, rfl⟩
    · have := Table.any_eq_false_iff.mp hcontrols sc hsc
      simp only [SessionControl.is, Bool.and_eq_true] at hkey
      simp only [hkey.1, Bool.true_and, Bool.not_eq_false', parkedBehindJournal,
        Bool.and_eq_true, Bool.or_eq_true, decide_eq_true_eq] at this
      refine ⟨?_, this.1⟩
      simp only [SessionControl.isParked, Bool.or_eq_true, decide_eq_true_eq]
      exact this.2.imp_right And.left
    · have hsame : l' = l := Table.eq_of_conflict hl' hl (by simp [Keyed.conflict, hp', hproject])
      rw [hsame, hholder]

theorem retireAbandonedUnboundGitFinalization_guarded (projectId : Int)
    (codexSessionId : String) (expectedGeneration : Int) (completedTask : Bool)
    (reason updatedAt : String) :
    (db.retireAbandonedUnboundGitFinalization projectId codexSessionId expectedGeneration
      completedTask reason updatedAt).Guarded true
      (∃ g, db.HasUncommitted projectId codexSessionId [.working] expectedGeneration none g ∧
        db.NoLiveOwner projectId codexSessionId g.ownerRunToken updatedAt none) (· = db) := by
  refine transaction_guarded (leaves_bind (leaves_require nofun) fun _ => leaves_ok _) rfl
    fun a db' h => ?_
  obtain ⟨hcount, ⟨⟩⟩ := require_bind_eq_ok.mp h
  obtain ⟨g, hg, hp⟩ := Table.exists_of_count_eq_one (of_decide_eq_true hcount)
  simp only [abandonedJournal, Bool.and_eq_true, decide_eq_true_eq, beq_iff_eq,
    Option.isNone_iff_eq_none, Bool.not_eq_true'] at hp
  obtain ⟨⟨⟨⟨⟨⟨⟨⟨⟨⟨⟨⟨hkey, hstate⟩, hgen⟩, hidentity⟩, hoid⟩, -⟩, -⟩, -⟩, hworker⟩, -⟩, -⟩,
    hlease⟩, hcontrols⟩ := hp
  refine .inl ⟨⟨g, ⟨hg, hkey, by simp [hstate], hgen, hidentity, hoid⟩, .of_idle hworker
    (fun sc hsc hk => ?_)
    fun l hl hp hnow => absurd hnow (not_unexpired_of_not_hasUnexpiredLease hlease hl hp)⟩, rfl⟩
  have := Table.any_eq_false_iff.mp hcontrols sc hsc
  simp only [SessionControl.is, Bool.and_eq_true] at hk
  simp only [hk.1, Bool.true_and, Bool.or_eq_false_iff, Bool.not_eq_false'] at this
  exact ⟨this.1.2, this.1.1⟩

theorem retireSupersededWorkingGitFinalization_guarded (expected completed : GitFinalization)
    (updatedAt : String) :
    (db.retireSupersededWorkingGitFinalization expected completed updatedAt).Guarded true
      (∃ g, db.HasUncommitted expected.projectId expected.codexSessionId [.working]
          expected.generation expected.taskIdentity g ∧
        db.NoLiveOwner expected.projectId expected.codexSessionId g.ownerRunToken updatedAt
          none) (· = db) := by
  refine transaction_guarded ?_ rfl fun a db' h => ?_
  · refine leaves_bind (leaves_require nofun) fun _ => ?_
    refine leaves_bind (leaves_attempt nofun) fun _ => ?_
    refine leaves_bind (leaves_require nofun) fun _ => ?_
    refine leaves_bind (leaves_attempt nofun) fun _ => ?_
    refine leaves_bind (leaves_require nofun) fun _ => ?_
    exact leaves_bind (leaves_require nofun) fun _ => leaves_ok _
  · simp only [require_bind_eq_ok, attempt_bind_eq_ok, beq_iff_eq, Bool.not_eq_true'] at h
    obtain ⟨hsup, _, hread, rfl, _, -, -, hbusy, ⟨⟩⟩ := h
    have hfound := of_readJournal hread
    simp only [supersedes, Bool.and_eq_true, decide_eq_true_eq,
      Option.isNone_iff_eq_none] at hsup
    obtain ⟨⟨⟨⟨⟨⟨⟨⟨⟨hstate, hoid⟩, -⟩, -⟩, -⟩, -⟩, -⟩, -⟩, -⟩, -⟩ := hsup
    simp only [projectBusy, Bool.or_eq_false_iff] at hbusy
    obtain ⟨⟨⟨hworker, -⟩, hlease⟩, hcontrols⟩ := hbusy
    exact .inl ⟨⟨expected, ⟨Table.mem_of_find? hfound, Table.of_find? hfound, by simp [hstate],
      rfl, rfl, hoid⟩, .of_idle hworker
        (fun sc hsc hk => parked_of_not_hasBusyControl hcontrols hsc hk)
        fun l hl hp hnow =>
          absurd hnow (not_unexpired_of_not_hasUnexpiredLease hlease hl hp)⟩, rfl⟩

namespace MissingGitRecovery

/-! The checks of an explicit recovery leave only with an error. -/

variable (q : MissingGitRecovery) (db : Registry)

theorem checkJournal_leaves : Leaves (· ≠ .ok ()) (q.checkJournal db) := by
  unfold checkJournal
  cases q.expectedJournal with
  | none => exact leaves_ok _
  | some expected => exact leaves_bind (leaves_attempt nofun) fun _ => leaves_require nofun

theorem checkWriterConflict_leaves : Leaves (· ≠ .ok ()) (q.checkWriterConflict db) := by
  unfold checkWriterConflict
  cases q.writerConflict with
  | none => exact leaves_ok _
  | some conflict => exact leaves_bind (leaves_require nofun) fun _ => leaves_require nofun

theorem checkStaleStart_leaves : Leaves (· ≠ .ok ()) (q.checkStaleStart db) := by
  unfold checkStaleStart
  split
  · refine leaves_bind (leaves_fetch nofun) fun _ => ?_
    exact leaves_bind (leaves_require nofun) fun _ => leaves_require nofun
  · exact leaves_ok _

theorem checkActivation_leaves : Leaves (· ≠ .ok ()) (q.checkActivation db) := by
  unfold checkActivation
  split
  · refine leaves_bind (leaves_fetch nofun) fun _ => ?_
    exact leaves_bind (leaves_require nofun) fun _ => leaves_require nofun
  · exact leaves_ok _

variable {q db}

/-- The journal that a recovery names is the stored one, and it may be retired. -/
theorem of_checkJournal (h : q.checkJournal db = .ok ()) {expected : GitFinalization}
    (he : q.expectedJournal = some expected) :
    ∃ g, db.HasUncommitted q.projectId q.sessionId
      [.working, .tracking, .commitPending, .cancelled] expected.generation
      expected.taskIdentity g := by
  simp only [checkJournal, he, attempt_bind_eq_ok, require_eq_ok, Bool.and_eq_true,
    beq_iff_eq] at h
  obtain ⟨_, hread, rfl, hretirable⟩ := h
  have hfound := of_readJournal hread
  simp only [journalRetirable, Bool.and_eq_true, Option.isNone_iff_eq_none] at hretirable
  refine ⟨expected, Table.mem_of_find? hfound, Table.of_find? hfound, ?_, rfl, rfl,
    hretirable.1⟩
  have hstate := hretirable.2
  cases hs : expected.state <;> simp [hs] at hstate ⊢

theorem noLiveOwner_of_not_busy (h : q.projectBusy db = false) :
    db.NoLiveOwner q.projectId q.sessionId q.ownerRunToken q.acquiredAt none := by
  have hbusy := h
  simp only [projectBusy, Bool.or_eq_false_iff] at h
  obtain ⟨⟨⟨-, hworker⟩, hlease⟩, -⟩ := h
  refine .of_idle hworker (fun sc hsc hkey => parked_of_not_projectBusy hbusy hsc hkey)
    fun l hl hp _ => ?_
  have := Table.any_eq_false_iff.mp hlease l hl
  simp [Lease.of, hp] at this

end MissingGitRecovery

/-- A recovery names no journal, or the stored one that may be retired. -/
theorem beginMissingGitRecovery_guarded (q : MissingGitRecovery) :
    (db.beginMissingGitRecovery q).Guarded ()
      ((∀ expected, q.expectedJournal = some expected → ∃ g,
          db.HasUncommitted q.projectId q.sessionId
            [.working, .tracking, .commitPending, .cancelled] expected.generation
            expected.taskIdentity g) ∧
        db.NoLiveOwner q.projectId q.sessionId q.ownerRunToken q.acquiredAt none) (· = db) := by
  refine transaction_guarded ?_ rfl fun a db' h => ?_
  · refine leaves_bind (leaves_require nofun) fun _ => ?_
    refine leaves_bind (q.checkJournal_leaves db) fun _ => ?_
    refine leaves_bind (leaves_require nofun) fun _ => ?_
    refine leaves_bind (q.checkWriterConflict_leaves db) fun _ => ?_
    refine leaves_bind (q.checkStaleStart_leaves db) fun _ => ?_
    refine leaves_bind (q.checkActivation_leaves db) fun _ => ?_
    refine leaves_bind (leaves_require nofun) fun _ => ?_
    exact leaves_bind (leaves_fetch nofun) fun _ => leaves_ok _
  · obtain ⟨-, h⟩ := require_bind_eq_ok.mp h
    obtain ⟨_, hjournal, h⟩ := step_bind_eq_ok.mp h
    obtain ⟨hbusy, -⟩ := require_bind_eq_ok.mp h
    rw [Bool.not_eq_true'] at hbusy
    exact .inl ⟨⟨fun _ he => MissingGitRecovery.of_checkJournal hjournal he,
      MissingGitRecovery.noLiveOwner_of_not_busy hbusy⟩, rfl⟩

/-- The part of a cancellation that writes needs the named journal. -/
theorem of_cancelJournal {generation : Int} {taskIdentity : Option String} {acquiredAt : String}
    {cancellation : GitTaskCancellation} {leases : Table Lease} {a : Bool} {db' : Registry}
    (h : db.cancelJournal projectId codexSessionId generation taskIdentity acquiredAt cancellation
      leases = .ok (a, db')) : a = true := by
  obtain ⟨-, h⟩ := require_bind_eq_ok.mp h
  cases cancellation <;> (cases h; rfl)

theorem cancelJournal_leaves {generation : Int} {taskIdentity : Option String}
    {acquiredAt : String} {cancellation : GitTaskCancellation} {leases : Table Lease} :
    Leaves (· ≠ .ok true) (db.cancelJournal projectId codexSessionId generation taskIdentity
      acquiredAt cancellation leases) := by
  refine leaves_bind (leaves_require nofun) fun _ => ?_
  cases cancellation <;> exact leaves_ok _

/-- A project without a lease is fenced when the named journal is there and uncommitted. -/
theorem of_fenceCancellation {generation : Int} {taskIdentity : Option String}
    {leaseHolder acquiredAt expiresAt action : String} {leases fenced : Table Lease}
    {inserted : Nat} (hfree : leases.any (Lease.of projectId) = false)
    (h : db.fenceCancellation projectId codexSessionId generation taskIdentity leaseHolder
      acquiredAt expiresAt action leases = .ok (fenced, inserted)) :
    inserted = 1 ∧
      (∃ g, db.HasUncommitted projectId codexSessionId [.working] generation taskIdentity g) ∨
    inserted = 0 ∧ fenced = leases := by
  unfold fenceCancellation at h
  split at h
  · rename_i hjournal
    obtain ⟨g, hg, hp⟩ := Table.any_iff.mp hjournal
    simp only [cancellable, Bool.and_eq_true, beq_iff_eq, decide_eq_true_eq,
      Option.isNone_iff_eq_none] at hp
    obtain ⟨⟨⟨⟨hkey, hstate⟩, hgen⟩, hidentity⟩, hoid⟩ := hp
    refine .inl ⟨?_, g, hg, hkey, by simp [hstate], hgen, hidentity, hoid⟩
    have hinsert := insertOrIgnoreInto_eq_some (fetch_eq_ok.mp h)
    cases hinsert.trans (Table.insertOrIgnore_of_fresh hfree)
    rfl
  · cases h
    exact .inr ⟨rfl, rfl⟩

theorem fenceCancellation_leaves {generation : Int} {taskIdentity : Option String}
    {leaseHolder acquiredAt expiresAt action : String} {leases : Table Lease} :
    Leaves (· ≠ .ok true) (db.fenceCancellation projectId codexSessionId generation taskIdentity
      leaseHolder acquiredAt expiresAt action leases) := by
  unfold fenceCancellation
  split
  · exact leaves_fetch nofun
  · exact leaves_ok _

/-- The registry as a refused cancellation leaves it: the expired lease of the project
may have gone. -/
def SameButExpiredLease (projectId : Int) (now : String) (db db' : Registry) : Prop :=
  db' = db ∨ db' = { db with leases := db.leases.delete (expiredLease projectId now) }

theorem cancelIdleWorkingGitFinalization_guarded (generation : Int)
    (taskIdentity : Option String) (leaseHolder acquiredAt expiresAt : String)
    (cancellation : GitTaskCancellation) :
    (db.cancelIdleWorkingGitFinalization projectId codexSessionId generation taskIdentity
      leaseHolder acquiredAt expiresAt cancellation).Guarded true
      (∃ g, db.HasUncommitted projectId codexSessionId [.working] generation taskIdentity g ∧
        db.NoLiveOwner projectId codexSessionId g.ownerRunToken acquiredAt none)
      (db.SameButExpiredLease projectId acquiredAt) := by
  unfold cancelIdleWorkingGitFinalization
  dsimp only
  split
  · -- The task alone is idle; other work of the project may go on.
    rename_i hidle
    simp only [Bool.and_eq_true] at hidle
    exact transaction_guarded cancelJournal_leaves (.inl rfl) fun a db' h =>
      .inl ⟨of_canDeleteIdleTask hidle.2, of_cancelJournal h⟩
  · -- The whole project is idle, and is fenced while the journal is cancelled.
    refine transaction_guarded ?_ (.inl rfl) fun a db' h => ?_
    · refine leaves_bind (leaves_require (by rintro ⟨⟩)) fun _ => ?_
      refine leaves_bind (leaves_require (by rintro ⟨⟩)) fun _ => ?_
      refine leaves_bind (leaves_require (by rintro ⟨⟩)) fun _ => ?_
      refine leaves_bind (leaves_require (by rintro ⟨⟩)) fun _ => ?_
      refine leaves_bind fenceCancellation_leaves fun _ => ?_
      split
      · exact cancelJournal_leaves
      · exact leaves_ok _
    · simp only [require_bind_eq_ok, Bool.not_eq_true'] at h
      obtain ⟨hworker, hcontrols, -, hleases, h⟩ := h
      obtain ⟨⟨fenced, inserted⟩, hfence, h⟩ := step_bind_eq_ok.mp h
      dsimp only at h
      rcases of_fenceCancellation hleases hfence with ⟨rfl, g, hg⟩ | ⟨rfl, rfl⟩
      · refine .inl ⟨⟨g, hg, .of_idle hworker
          (fun sc hsc hkey => parked_of_not_hasBusyControl hcontrols hsc hkey)
          fun l hl hp hnow => ?_⟩, of_cancelJournal h⟩
        -- The lease has not expired, so it was not removed, and none was left.
        have hkept : l ∈ db.leases.delete (expiredLease projectId acquiredAt) :=
          Table.mem_delete.mpr ⟨hl, by simp [expiredLease, hp, hnow]⟩
        have := Table.any_eq_false_iff.mp hleases l hkept
        simp [Lease.of, hp] at this
      · cases h
        exact .inr ⟨.inr rfl, (by rintro ⟨⟩)⟩

end Registry

/-- Every call that ends an unfinished journal for somebody else succeeds only when the
journal is the uncommitted one that was named and its session has no live owner, and
otherwise leaves every row as it was, an expired lease apart. -/
theorem retirement_guards (db : Registry) :
    (∀ expected finalizerHolder reason updatedAt now,
      (db.cancelOrphanedWorkingGitFinalization expected finalizerHolder reason updatedAt
        now).Guarded true
        (∃ g, db.HasUncommitted expected.projectId expected.codexSessionId [.working]
            expected.generation expected.taskIdentity g ∧
          db.NoLiveOwner expected.projectId expected.codexSessionId g.ownerRunToken now
            (some finalizerHolder)) (· = db)) ∧
    (∀ projectId codexSessionId expectedGeneration completedTask reason updatedAt,
      (db.retireAbandonedUnboundGitFinalization projectId codexSessionId expectedGeneration
        completedTask reason updatedAt).Guarded true
        (∃ g, db.HasUncommitted projectId codexSessionId [.working] expectedGeneration none g ∧
          db.NoLiveOwner projectId codexSessionId g.ownerRunToken updatedAt none) (· = db)) ∧
    (∀ expected completed updatedAt,
      (db.retireSupersededWorkingGitFinalization expected completed updatedAt).Guarded true
        (∃ g, db.HasUncommitted expected.projectId expected.codexSessionId [.working]
            expected.generation expected.taskIdentity g ∧
          db.NoLiveOwner expected.projectId expected.codexSessionId g.ownerRunToken updatedAt
            none) (· = db)) ∧
    (∀ projectId codexSessionId expectedGeneration taskIdentity leaseHolder acquiredAt expiresAt
        cancellation,
      (db.cancelIdleWorkingGitFinalization projectId codexSessionId expectedGeneration
        taskIdentity leaseHolder acquiredAt expiresAt cancellation).Guarded true
        (∃ g, db.HasUncommitted projectId codexSessionId [.working] expectedGeneration
            taskIdentity g ∧
          db.NoLiveOwner projectId codexSessionId g.ownerRunToken acquiredAt none)
        (db.SameButExpiredLease projectId acquiredAt)) ∧
    ∀ q : MissingGitRecovery, (db.beginMissingGitRecovery q).Guarded ()
      ((∀ expected, q.expectedJournal = some expected → ∃ g,
          db.HasUncommitted q.projectId q.sessionId
            [.working, .tracking, .commitPending, .cancelled] expected.generation
            expected.taskIdentity g) ∧
        db.NoLiveOwner q.projectId q.sessionId q.ownerRunToken q.acquiredAt none) (· = db) :=
  ⟨db.cancelOrphanedWorkingGitFinalization_guarded,
    db.retireAbandonedUnboundGitFinalization_guarded,
    db.retireSupersededWorkingGitFinalization_guarded,
    fun _ _ => db.cancelIdleWorkingGitFinalization_guarded, db.beginMissingGitRecovery_guarded⟩

/-- A stopped session with an unfinished journal, beside a read-only supervisor review
whose lease runs until 30. -/
def supervisedRegistry : Registry :=
  { managedRegistry with
    sessionControls := ⟨[SessionControl.fresh 1 "s" .stopped "1"], by decide⟩
    gitFinalizations := ⟨[
      { projectId := 1, codexSessionId := "s", state := .working, gitMode := .commit,
        startingHead := none, branchRef := none, upstreamRef := none, worktreeBaseline := "b",
        taskIdentity := some "task", ownerRunToken := some "t", commitOid := none,
        generation := 0, lastError := none, createdAt := "1", updatedAt := "1",
        completedAt := none, acknowledgedAt := none, acknowledgedRunId := none }], by decide⟩
    leases := ⟨[
      { projectId := 1, holder := "reviewer", acquiredAt := "10", expiresAt := "30" }],
      by decide⟩
    agentWorkers := ⟨[
      { workerToken := "v", projectId := 1, state := .running, protocolVersion := 1,
        leaseHolder := "reviewer", serviceLabel := "", binaryPath := "",
        commandArguments := "", pathEnv := "", codexPath := none,
        taskSelection := "supervisor_review", resumeSessionId := none, workerPid := some 8,
        createdAt := "10", startedAt := some "10", heartbeatAt := some "10",
        finishedAt := none, runId := none, error := none, serviceCleanedAt := none }],
      by decide⟩ }

/-- The deletion of the stopped task goes through, although the project's lease is
unexpired and no other session is there to own it. -/
theorem deletion_beside_supervisorReview :
    (supervisedRegistry.cancelIdleWorkingGitFinalization 1 "s" 0 (some "task") "deleter" "20"
      "40" .deletion).result = .ok true ∧
    (∃ l ∈ supervisedRegistry.leases, l.projectId = 1 ∧ l.holder ≠ "deleter" ∧
      castInteger "20" < castInteger l.expiresAt) ∧
    (∀ sc ∈ supervisedRegistry.sessionControls, sc.codexSessionId = "s") ∧
    ∀ w ∈ supervisedRegistry.agentWorkers, w.resumeSessionId = none := by
  refine ⟨by decide, ?_, by decide, by decide⟩
  exact ⟨⟨1, "reviewer", "10", "30"⟩, by decide⟩

end Clt
