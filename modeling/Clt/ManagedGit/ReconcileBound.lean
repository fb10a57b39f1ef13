import Clt.ManagedGit.ReconcileEvidence

/-!
# The bound on the rounds

A reconciliation that nobody disturbs never runs out of rounds: each round ends the call or
moves the journal on, and a board repair makes the next search find the commit that it
published (`solo_repairBoardOrder`).
-/

namespace Clt

open Interleave Interleave.Program Relational

/-! ## What a write leaves in the registry -/

namespace Registry

variable {db : Registry} {f g : GitFinalization}

theorem readJournal_eq_some {projectId : Int} {codexSessionId : String} :
    db.readJournal projectId codexSessionId = .ok (some g) ↔
      db.journal? projectId codexSessionId = some g ∧ g.generation ≤ maxInteger := by
  unfold readJournal
  cases hrow : db.journal? projectId codexSessionId with
  | none => simp
  | some row =>
    show row.recordFromRow.map some = .ok (some g) ↔ some row = some g ∧ _
    unfold GitFinalization.recordFromRow
    split
    · rename_i hle
      constructor
      · intro h
        cases h
        exact ⟨rfl, hle⟩
      · rintro ⟨h, -⟩
        cases h
        rfl
    · rename_i hlarge
      constructor
      · intro h
        cases h
      · rintro ⟨h, hle⟩
        cases h
        contradiction

theorem leaves_checkTransition {next : GitFinalizationState} {taskIdentity commitOid : Option String}
    {b : Bool} : Leaves (· ≠ .ok b) (checkTransition f next taskIdentity commitOid) := by
  have hreq : ∀ (c : Bool) (text : String), Leaves (· ≠ .ok b) (require c (.error text)) :=
    fun c text => leaves_require nofun
  unfold checkTransition
  refine leaves_bind (hreq _ _) fun _ => leaves_bind (hreq _ _) fun _ => ?_
  refine leaves_bind (hreq _ _) fun _ => leaves_bind (hreq _ _) fun _ => ?_
  exact leaves_bind (hreq _ _) fun _ => leaves_bind (hreq _ _) fun _ => hreq _ _

/-- A compare-and-set of the generation that is there returns only after it has moved the
journal on. -/
theorem journal_of_compareAndSet {next : GitFinalizationState}
    {taskIdentity owner commitOid lastError : Option String} {now : String} {changed : Bool}
    (hrow : db.readJournal f.projectId f.codexSessionId = .ok (some f))
    (h : (db.compareAndSetGitFinalization f.projectId f.codexSessionId f.generation next
      taskIdentity none false owner commitOid lastError now).result = .ok changed) :
    ∃ g, (db.compareAndSetGitFinalization f.projectId f.codexSessionId f.generation next
      taskIdentity none false owner commitOid lastError now).db.journal?
        f.projectId f.codexSessionId = some g ∧ g.state = next := by
  obtain ⟨hfound, hle⟩ := readJournal_eq_some.mp hrow
  refine transaction_of_result (P := fun d => ∃ g, d.journal? f.projectId f.codexSessionId =
    some g ∧ g.state = next) h ?_ fun db' hbody => ?_
  · rw [hfound]
    have hrecord : attempt (α := Bool) f.recordFromRow = .ok f := by
      rw [GitFinalization.recordFromRow_eq_ok.mpr ⟨hle, rfl⟩]
      rfl
    show Leaves _ (attempt f.recordFromRow >>= _)
    rw [hrecord]
    show Leaves _ (require (f.generation == f.generation) _ >>= _)
    rw [beq_self_eq_true]
    have herror : ∀ text : String, (Except.error text : Except String Bool) ≠ .ok changed := nofun
    refine leaves_bind (leaves_ok ()) fun _ => leaves_bind (leaves_ok ()) fun _ => ?_
    refine leaves_bind leaves_checkTransition fun _ => ?_
    refine leaves_bind (leaves_fetch (herror _)) fun _ => ?_
    exact leaves_bind (leaves_require (herror _)) fun _ => leaves_ok _
  · simp only [fetch_bind_eq_ok, attempt_bind_eq_ok, require_bind_eq_ok] at hbody
    obtain ⟨row, -, current, -, -, hbody⟩ := hbody
    obtain ⟨-, -, hbody⟩ := step_bind_eq_ok.mp hbody
    obtain ⟨-, -, hbody⟩ := step_bind_eq_ok.mp hbody
    simp only [fetch_bind_eq_ok, require_bind_eq_ok] at hbody
    obtain ⟨journals, hupdate, -, ⟨⟩⟩ := hbody
    refine ⟨GitFinalization.advance next taskIdentity none owner commitOid lastError now f, ?_, rfl⟩
    show journals.find? _ = _
    rw [Table.find?_update? hupdate fun r => rfl]
    show (db.journal? _ _).map _ = _
    rw [hfound, Option.map_some, Table.rewrite, if_pos]
    have hkey := Table.of_find? hfound
    rw [hkey, Bool.true_and, beq_self_eq_true]

/-- An orphan check that declines changes nothing. -/
theorem db_of_cancelOrphan {holder reason updatedAt now : String}
    (h : (db.cancelOrphanedWorkingGitFinalization f holder reason updatedAt now).result =
      .ok false) :
    (db.cancelOrphanedWorkingGitFinalization f holder reason updatedAt now).db = db := by
  rcases transaction_cases db _ with hsame | ⟨a, db', hbody, heq⟩
  · exact hsame
  · rw [cancelOrphanedWorkingGitFinalization, heq] at h
    simp only [fetch_bind_eq_ok, attempt_bind_eq_ok, require_bind_eq_ok] at hbody
    obtain ⟨row, -, current, -, -, -, -, -, ⟨⟩⟩ := hbody
    cases h

end Registry

/-! ## One round alone -/

namespace Reconcile

variable {α β : Type} {objects : GitObjects} {around : Surroundings} {f g : GitFinalization}

/-- The record that the program holds is the journal's. -/
def Held (f : GitFinalization) (w : World) : Prop :=
  w.registry.readJournal f.projectId f.codexSessionId = .ok (some f)

/-- The task commit that a search finds now matches its manifest. -/
def Settled (objects : GitObjects) (around : Surroundings) (f : GitFinalization) (w : World) :
    Prop :=
  ∀ startingHead taskIdentity baseline tip commit, f.startingHead = some startingHead →
    f.taskIdentity = some taskIdentity →
    around.baselineFromJson f.worktreeBaseline = .ok baseline →
    w.checkout.resolve (f.branchRef.getD "HEAD") = .ok tip →
    objects.sealedCommit (proofStart baseline startingHead) tip f.codexSessionId taskIdentity
      (baseline.version == 1) = .ok (some commit) →
    objects.commitMatchesStagedManifest commit f.codexSessionId taskIdentity baseline true =
      .ok true

/-- The rounds that a journal needs from a state, with a board repair on the way. -/
def roundsNeeded : GitFinalizationState → Nat
  | .working => 6
  | .tracking => 5
  | .commitPending => 4
  | .pushPending => 2
  | .completed | .cancelled => 1

/-- `n` rounds are enough from here: a settled journal needs no repair any more. -/
def Within (objects : GitObjects) (around : Surroundings) (n : Nat) (f : GitFinalization)
    (w : World) : Prop :=
  roundsNeeded f.state ≤ n ∨ (f.state = .commitPending ∧ Settled objects around f w ∧ 3 ≤ n)

/-- How a round ends when `n` rounds are left after it. -/
def Next (objects : GitObjects) (around : Surroundings) (n : Nat) : RoundEnd → World → Prop
  | .done _, _ => True
  | .again g, w => Held g w ∧ Within objects around n g w

theorem solo_ends_fail {e : String} {pre : World → Prop} {Q : α → World → Prop} :
    (fail (.message e) : Reconcile α).Solo pre (Ends Q) := solo_fail fun _ _ => trivial

/-- A part that only reads keeps what held of the world. -/
theorem Passive.bind {p : Reconcile α} {k : α → Reconcile β} {pre : World → Prop}
    {Q : β → World → Prop} (hp : Passive p) (hk : ∀ a, (k a).Solo pre (Ends Q)) :
    (p >>= k).Solo pre (Ends Q) :=
  hp.still.bind fun a => (hk a).of_pre fun _ h => h.1

/-- Parts one after the other; a message ends them. -/
theorem solo_bind {p : Reconcile α} {k : α → Reconcile β} {pre : World → Prop}
    {P : α → World → Prop} {Q : β → World → Prop} (hp : p.Solo pre (Ends P))
    (hk : ∀ a, (k a).Solo (P a) (Ends Q)) : (p >>= k).Solo pre (Ends Q) := by
  refine Solo.bind hp hk fun e w h => ?_
  cases e with
  | message text => trivial
  | changedTooManyTimes sessionId => exact h

/-- A part goes on with the value of a computation, and with how it was computed. -/
theorem solo_lift {x : Except String α} {k : α → Reconcile β} {pre : World → Prop}
    {Q : β → World → Prop} (hk : ∀ a, x = .ok a → (k a).Solo pre (Ends Q)) :
    (lift x >>= k).Solo pre (Ends Q) :=
  (still_lift x).bind fun a r hr => hk a hr.2 r hr.1

theorem Passive.solo {p : Reconcile α} {pre : World → Prop} (hp : Passive p) :
    p.Solo pre (Ends fun _ => pre) :=
  fun r hr => (hp.still r.world r rfl).mono fun _ h => h.1.symm ▸ hr

theorem solo_unless {c : Bool} {p q : Reconcile α} {pre : World → Prop} {Q : α → World → Prop}
    (hp : p.Solo pre (Ends Q)) (hq : c = false → q.Solo pre (Ends Q)) :
    (if c = true then p else q).Solo pre (Ends Q) := by
  cases c with
  | true => exact hp
  | false => exact hq rfl

theorem solo_done {n : Nat} {pre : World → Prop} :
    (pure (.done g) : Reconcile RoundEnd).Solo pre (Ends (Next objects around n)) :=
  solo_pure fun _ _ => trivial

theorem still_reread (missing : String) : Still (reread f missing) fun g w =>
    w.registry.readJournal f.projectId f.codexSessionId = .ok (some g) := by
  refine still_bind (still_read _) fun journal w hread => ?_
  cases journal with
  | none => exact solo_ends_fail
  | some g =>
    refine solo_pure fun w' hw => ⟨hw, ?_⟩
    exact hread

/-- A write from the record that is there moves the journal on, and the next round reads what
the write left. -/
theorem solo_write {w : JournalWrite} {next : GitFinalizationState} {missing : String} {n : Nat}
    (hn : roundsNeeded next ≤ n)
    (hw : ∀ (db : Registry) (now : String) (changed : Bool),
      db.readJournal f.projectId f.codexSessionId = .ok (some f) →
      (w.run f now db).result = .ok changed →
      ∃ g, (w.run f now db).db.journal? f.projectId f.codexSessionId = some g ∧ g.state = next) :
    Solo (do
      let _ ← write around f w
      return .again (← reread f missing) : Reconcile RoundEnd) (Held f)
      (Ends (Next objects around n)) := by
  have hwrite : (write around f w).Solo (Held f) (Ends fun _ world =>
      ∃ g, world.registry.journal? f.projectId f.codexSessionId = some g ∧ g.state = next) := by
    refine solo_step fun world hheld => ?_
    show Ends _ (((w.run f (around.timestamp world) world.registry).result).mapError .message) _
    cases hresult : (w.run f (around.timestamp world) world.registry).result with
    | ok changed => exact hw _ _ changed hheld hresult
    | error text => trivial
  refine solo_bind hwrite fun changed => ?_
  refine (still_reread missing).bind fun g => solo_pure fun world hworld => ?_
  obtain ⟨⟨g', hg', hstate⟩, hread⟩ := hworld
  obtain ⟨hfound, hle⟩ := Registry.readJournal_eq_some.mp hread
  rw [hg'] at hfound
  cases hfound
  have hkey := Table.of_find? hg'
  simp only [GitFinalization.is, Bool.and_eq_true, beq_iff_eq] at hkey
  refine ⟨?_, .inl (hstate ▸ hn)⟩
  show world.registry.readJournal g.projectId g.codexSessionId = _
  rw [hkey.1, hkey.2]
  exact hread

theorem solo_recoverIntent {n : Nat} (hn : 5 ≤ n) (lease : Option AgentGitFinalizationLease)
    (owner : Option String) : (recoverIntent objects around lease owner f).Solo (Held f)
      (Ends (Next objects around n)) := by
  unfold recoverIntent
  split
  · exact solo_done
  rename_i taskIdentity hidentity
  refine (passive_lift _).bind fun baseline => solo_unless solo_done fun _ => ?_
  refine (passive_worktreeContainsCompletedDoneTask _).bind fun _ => solo_unless solo_done fun _ => ?_
  refine (passive_manifestParentIsCurrent f).bind fun _ => solo_unless solo_done fun _ => ?_
  refine (passive_fence lease).bind fun _ => ?_
  exact solo_write (show roundsNeeded .tracking ≤ n from hn) fun db now changed hrow h =>
    Registry.journal_of_compareAndSet hrow h

theorem solo_cancelOrphaned (lease : AgentGitFinalizationLease) :
    (cancelOrphaned around f lease).Solo (Held f)
      (Ends fun cancelled w => cancelled = false → Held f w) := by
  have hstop : (pure false : Reconcile Bool).Solo (Held f)
      (Ends fun cancelled w => cancelled = false → Held f w) := solo_pure fun _ h _ => h
  unfold cancelOrphaned
  refine solo_unless hstop fun _ => solo_unless hstop fun _ => ?_
  refine (passive_lift _).bind fun absent => solo_unless hstop fun _ => ?_
  refine (passive_check _ _).bind fun _ => (passive_read _).bind fun _ => ?_
  refine (passive_read _).bind fun _ => (passive_read _).bind fun _ => ?_
  refine (passive_read _).bind fun marked => solo_unless hstop fun _ => ?_
  refine (passive_read _).bind fun _ => (passive_read _).bind fun updatedAt => ?_
  refine solo_step fun world hheld => ?_
  show Ends _ (((JournalWrite.cancelOrphan lease.holder updatedAt).run f (around.timestamp world)
    world.registry).result.mapError .message) _
  cases hresult : ((JournalWrite.cancelOrphan lease.holder updatedAt).run f
      (around.timestamp world) world.registry).result with
  | error text => trivial
  | ok cancelled =>
    rintro rfl
    have hsame : ((JournalWrite.cancelOrphan lease.holder updatedAt).run f
        (around.timestamp world) world.registry).db = world.registry :=
      Registry.db_of_cancelOrphan hresult
    show ((JournalWrite.cancelOrphan lease.holder updatedAt).run f (around.timestamp world)
      world.registry).db.readJournal _ _ = _
    rw [hsame]
    exact hheld

theorem solo_reconcileWorking {n : Nat} (hn : 5 ≤ n) (lease : Option AgentGitFinalizationLease)
    (owner : Option String) : (reconcileWorking objects around lease owner f).Solo (Held f)
      (Ends (Next objects around n)) := by
  cases lease with
  | none => exact solo_recoverIntent hn none owner
  | some held =>
    refine solo_bind (solo_cancelOrphaned held) fun cancelled => ?_
    cases cancelled with
    | true => exact (passive_reread f _).bind fun g => solo_done
    | false => exact (solo_recoverIntent hn _ owner).of_pre fun w h => h rfl

theorem solo_reconcileTracking {n : Nat} (hn : 4 ≤ n) (lease : Option AgentGitFinalizationLease)
    (owner : Option String) : (reconcileTracking objects around lease owner f).Solo (Held f)
      (Ends (Next objects around n)) := by
  have hrepair : ∀ identity, (repairTrackingBoard around f.codexSessionId identity).Solo (Held f)
      (Ends fun _ => Held f) := by
    intro identity
    refine solo_step fun w hheld => ?_
    show Ends _ ((around.repairTracking w f.codexSessionId identity).1.mapError .message) _
    cases (around.repairTracking w f.codexSessionId identity).1 with
    | ok repaired => exact hheld
    | error text => trivial
  unfold reconcileTracking
  split
  · exact solo_done
  refine (passive_manifestParentIsCurrent f).bind fun _ => solo_unless solo_done fun _ => ?_
  refine (passive_fence lease).bind fun _ => ?_
  refine solo_bind (hrepair _) fun repaired => ?_
  refine solo_unless solo_done fun _ => (passive_fence lease).bind fun _ => ?_
  refine (passive_worktreeContainsCompletedDoneTask _).bind fun _ => ?_
  refine solo_unless solo_done fun _ => (passive_fence lease).bind fun _ => ?_
  exact solo_write (show roundsNeeded .commitPending ≤ n from hn) fun db now changed hrow h =>
    Registry.journal_of_compareAndSet hrow h

/-! ## The board repair -/

/-- The branch names the repaired commit after the update. -/
theorem solo_updateRef {branch repaired commit : String} :
    (updateRef branch repaired commit).Solo (Held f)
      (Ends fun _ w => Held f w ∧ w.checkout.resolve branch = .ok repaired) := by
  refine solo_step fun w hheld => ?_
  split
  · split
    · refine ⟨hheld, ?_⟩
      show (if branch = branch ∨ _ then _ else _) = _
      rw [if_pos (.inl rfl)]
    · trivial
  · trivial

/-- A commit that passed the checks of a repair is the one that the next search finds. -/
theorem settled_of_repair {startingHead taskIdentity tip commit branch repaired : String}
    {baseline : AgentGitWorktreeBaseline} {w : World} (hgit : objects.OnParent)
    (hversion : 2 ≤ baseline.version) (hstart : f.startingHead = some startingHead)
    (hidentity : f.taskIdentity = some taskIdentity) (hbranch : f.branchRef = some branch)
    (hbaseline : around.baselineFromJson f.worktreeBaseline = .ok baseline)
    (hfound : objects.sealedCommit (proofStart baseline startingHead) tip f.codexSessionId
      taskIdentity (baseline.version == 1) = .ok (some commit))
    (hrepair : isSealedRepair objects f baseline taskIdentity repaired = .ok true)
    (hresolve : w.checkout.resolve branch = .ok repaired) : Settled objects around f w := by
  obtain ⟨matches', hmatches, hrest⟩ := bind_eq_ok.mp hrepair
  have hmatched : matches' = true := by
    cases matches' with
    | true => rfl
    | false => cases hrest
  subst hmatched
  obtain ⟨agent, hagent, hrest⟩ := bind_eq_ok.mp hrest
  have hisAgent : agent = true := by
    cases agent with
    | true => rfl
    | false => cases hrest
  subst hisAgent
  obtain ⟨trailers, htrailers, hrest⟩ := bind_eq_ok.mp hrest
  have hclaims : trailers = [taskTrailer f.codexSessionId] := by
    simpa using Except.ok.inj hrest
  subst hclaims
  obtain ⟨parent, hmanifest, hparent, hcompletes⟩ :=
    GitObjects.of_commitMatchesStagedManifest (by omega) hmatches
  have hfrom : proofStart baseline startingHead = parent := by
    rw [proofStart, if_pos hversion, hmanifest, Option.getD_some]
  have hlegacy : (baseline.version == 1) = false := by
    rw [beq_eq_false_iff_ne]
    omega
  rw [hfrom, hlegacy] at hfound
  obtain ⟨⟨count, hcount⟩, hintroduces⟩ := GitObjects.ends_of_sealedCommit hfound
  have hsearch := GitObjects.sealedCommit_onParent hgit hcount hintroduces hparent htrailers
    hagent hcompletes
  intro startingHead' taskIdentity' baseline' tip' commit' hs hi hb ht hc
  cases hstart.symm.trans hs
  cases hidentity.symm.trans hi
  cases hbaseline.symm.trans hb
  rw [hbranch, Option.getD_some, hresolve] at ht
  cases ht
  rw [hfrom, hlegacy, hsearch] at hc
  cases hc
  exact hmatches

/-- A repair that succeeds leaves the journal as it is, and settled. -/
theorem solo_repairBoardOrder {startingHead taskIdentity tip commit : String}
    {baseline : AgentGitWorktreeBaseline} (lease : Option AgentGitFinalizationLease)
    (hgit : objects.OnParent) (hstart : f.startingHead = some startingHead)
    (hidentity : f.taskIdentity = some taskIdentity)
    (hbaseline : around.baselineFromJson f.worktreeBaseline = .ok baseline)
    (hfound : objects.sealedCommit (proofStart baseline startingHead) tip f.codexSessionId
      taskIdentity (baseline.version == 1) = .ok (some commit)) :
    (repairBoardOrder objects around lease f commit).Solo (Held f)
      (Ends fun repaired w => repaired = true → Held f w ∧ Settled objects around f w) := by
  have hstop : (pure false : Reconcile Bool).Solo (Held f)
      (Ends fun repaired w => repaired = true → Held f w ∧ Settled objects around f w) :=
    solo_pure fun _ _ => nofun
  cases lease with
  | none => exact hstop
  | some held =>
    refine (passive_lift _).bind fun _ => solo_lift fun baseline' hbaseline' => ?_
    cases hbaseline.symm.trans hbaseline'
    split
    · rename_i tree branch taskIdentity' _ hbranch hidentity'
      cases hidentity.symm.trans hidentity'
      refine solo_unless hstop fun hguards => ?_
      have hversion : 2 ≤ baseline.version := by
        simp only [Bool.or_eq_false_iff, decide_eq_false_iff_not] at hguards
        omega
      refine solo_lift fun onlyOrder _ => solo_unless hstop fun _ => ?_
      refine (passive_read _).bind fun _ => (passive_recheck _ _ _ _ _).bind fun _ => ?_
      refine (passive_read _).bind fun _ => (passive_recheck _ _ _ _ _).bind fun _ => ?_
      refine (passive_read _).bind fun repaired => solo_lift fun isSealed hrepair => ?_
      cases isSealed with
      | false => exact fun _ _ => trivial
      | true =>
        refine (passive_check _ _).bind fun _ => (passive_recheck _ _ _ _ _).bind fun _ => ?_
        refine (passive_read _).bind fun _ => ?_
        refine solo_bind solo_updateRef fun _ => ?_
        refine (passive_read _).bind fun _ => solo_pure fun w hw _ => ⟨hw.1, ?_⟩
        exact settled_of_repair hgit hversion hstart hidentity hbranch hbaseline hfound hrepair hw.2
    · exact hstop

/-! ## The rounds alone -/

/-- The search reads the tip of the branch, and finds what is sealed there. -/
theorem still_findTaskCommit (startingHead : String) (branchRef : Option String)
    (sessionId taskIdentity : String) (legacy : Bool) :
    Still (findTaskCommit objects startingHead branchRef sessionId taskIdentity legacy)
      fun found w => ∀ commit, found = some commit → ∃ tip,
        w.checkout.resolve (branchRef.getD "HEAD") = .ok tip ∧
        objects.sealedCommit startingHead tip sessionId taskIdentity legacy =
          .ok (some commit) := by
  refine still_bind (still_observe _ _) fun tip w htip => ?_
  refine solo_lift fun candidate hcandidate => ?_
  cases candidate with
  | none => exact solo_pure fun _ hw => ⟨hw, nofun⟩
  | some candidate =>
    refine (passive_observe _ fun _ => rfl).bind fun tip' => solo_pure fun _ hw => ⟨hw, ?_⟩
    intro commit hcommit
    refine ⟨tip, htip, ?_⟩
    split at hcommit
    · cases hcommit
      exact hcandidate
    · cases hcommit

theorem solo_recordTaskCommit {startingHead taskIdentity tip commit : String} {n : Nat}
    {baseline : AgentGitWorktreeBaseline} (lease : Option AgentGitFinalizationLease)
    (owner : Option String) (hgit : objects.OnParent) (hstate : f.state = .commitPending)
    (hstart : f.startingHead = some startingHead) (hidentity : f.taskIdentity = some taskIdentity)
    (hbaseline : around.baselineFromJson f.worktreeBaseline = .ok baseline)
    (hfound : objects.sealedCommit (proofStart baseline startingHead) tip f.codexSessionId
      taskIdentity (baseline.version == 1) = .ok (some commit)) :
    (recordTaskCommit objects around lease owner f baseline taskIdentity commit).Solo
      (fun w => (Held f w ∧ Within objects around (n + 1) f w) ∧
        w.checkout.resolve (f.branchRef.getD "HEAD") = .ok tip)
      (Ends (Next objects around n)) := by
  refine solo_lift fun sealedAs hmatches => ?_
  cases sealedAs with
  | false =>
    -- A mismatch is not settled, so a round for the repair is still there.
    have hrounds : ∀ w, Within objects around (n + 1) f w →
        w.checkout.resolve (f.branchRef.getD "HEAD") = .ok tip → 3 ≤ n := by
      intro w hwithin htip
      rcases hwithin with hneeded | ⟨-, hsettled, -⟩
      · rw [hstate] at hneeded
        exact Nat.le_of_succ_le_succ hneeded
      · have hmatch := hsettled _ _ _ _ _ hstart hidentity hbaseline htip hfound
        rw [hmatches] at hmatch
        cases hmatch
    intro r hr
    have hn := hrounds _ hr.1.2 hr.2
    refine solo_bind (solo_repairBoardOrder lease hgit hstart hidentity hbaseline hfound)
      (fun repaired => ?_) r hr.1.1
    cases repaired with
    | true => exact solo_pure fun w h => ⟨(h rfl).1, .inr ⟨hstate, (h rfl).2, hn⟩⟩
    | false => exact (passive_read _).bind fun _ => solo_ends_fail
  | true =>
    refine (passive_commitIsRetained _ _ _ _).bind fun retained => ?_
    cases retained with
    | false => exact (passive_read _).bind fun _ => solo_ends_fail
    | true =>
      refine (passive_fence lease).bind fun _ r hr => ?_
      have hn : 2 ≤ n := by
        rcases hr.1.2 with hneeded | ⟨-, -, hthree⟩
        · rw [hstate] at hneeded
          exact Nat.le_of_succ_le_succ (Nat.le_of_succ_le hneeded)
        · exact Nat.le_of_succ_le_succ hthree
      have hcas : ∀ next, roundsNeeded next ≤ n → (do
          let _ ← write around f (.advance next owner (some commit))
          return .again (← reread f
            "Git finalization disappeared during commit reconciliation") : Reconcile RoundEnd).Solo
          (Held f) (Ends (Next objects around n)) := fun next hnext =>
        solo_write hnext fun db now changed hrow h => Registry.journal_of_compareAndSet hrow h
      unfold afterCommit
      cases f.gitMode with
      | off => exact trivial
      | commit => exact hcas .completed (Nat.le_of_succ_le hn) r hr.1.1
      | commitAndPush => exact hcas .pushPending hn r hr.1.1

theorem solo_reconcileCommitPending {n : Nat} (lease : Option AgentGitFinalizationLease)
    (owner : Option String) (hgit : objects.OnParent) (hstate : f.state = .commitPending) :
    (reconcileCommitPending objects around lease owner f).Solo
      (fun w => Held f w ∧ Within objects around (n + 1) f w) (Ends (Next objects around n)) := by
  unfold reconcileCommitPending
  split
  · rename_i startingHead taskIdentity hstart hidentity
    refine solo_lift fun baseline hbaseline => ?_
    refine (still_findTaskCommit _ _ _ _ _).bind fun found => ?_
    cases found with
    | none => exact solo_done
    | some commit =>
      intro r hr
      obtain ⟨tip, htip, hfound⟩ := hr.2 commit rfl
      exact solo_recordTaskCommit lease owner hgit hstate hstart hidentity hbaseline hfound r
        ⟨hr.1, htip⟩
  · exact solo_done

theorem solo_publishedTip {baseline : AgentGitWorktreeBaseline} {taskIdentity commit : String} :
    (publishedTip objects around f baseline taskIdentity commit).Solo (Held f)
      (Ends fun _ => Held f) := by
  have hfetch : Passive (fetchUpstreamTip around f baseline) := passive_observe _ fun _ => rfl
  have hpush : (pushCommit around f baseline commit).Solo (Held f) (Ends fun _ => Held f) := by
    refine solo_step fun w hheld => ?_
    show Ends _ ((around.push w f baseline commit).1.mapError .message) _
    cases (around.push w f baseline commit).1 with
    | ok u => exact hheld
    | error text => trivial
  have hrest : ∀ (tip : Option String) (published : Bool), Program.Solo
      (if published = true then pure tip else do
        pushCommit around f baseline commit
        fetchUpstreamTip around f baseline) (Held f) (Ends fun _ => Held f) := by
    intro tip published
    refine solo_unless (solo_pure fun _ h => h) fun _ => solo_bind hpush fun _ => ?_
    exact hfetch.solo
  refine hfetch.bind fun tip => ?_
  cases tip with
  | none => exact hrest none false
  | some tip => exact solo_lift fun published _ => hrest (some tip) published

theorem solo_reconcilePushPending {n : Nat} (hn : 1 ≤ n)
    (lease : Option AgentGitFinalizationLease) (owner : Option String) :
    (reconcilePushPending objects around lease owner f).Solo (Held f)
      (Ends (Next objects around n)) := by
  unfold reconcilePushPending
  split
  · exact solo_done
  refine (passive_lift _).bind fun baseline => ?_
  split
  · exact solo_done
  refine (passive_lift _).bind fun sealedAs => solo_unless solo_done fun _ => ?_
  refine (passive_commitIsRetained _ _ _ _).bind fun _ => solo_unless solo_done fun _ => ?_
  refine solo_bind solo_publishedTip fun tip => ?_
  cases tip with
  | none => exact solo_done
  | some tip =>
    refine (passive_lift _).bind fun proved => solo_unless solo_done fun _ => ?_
    refine (passive_commitIsRetained _ _ _ _).bind fun _ => solo_unless solo_done fun _ => ?_
    refine (passive_fence lease).bind fun _ => ?_
    exact solo_write (show roundsNeeded .completed ≤ n from hn) fun db now changed hrow h =>
      Registry.journal_of_compareAndSet hrow h

/-- A round alone ends the call, or leaves a journal that the rounds after it are enough for. -/
theorem solo_reconcileRound {n : Nat} (lease : Option AgentGitFinalizationLease)
    (ownerRunToken : Option String) (hgit : objects.OnParent) (f : GitFinalization) :
    (reconcileRound objects around lease ownerRunToken f).Solo
      (fun w => Held f w ∧ Within objects around (n + 1) f w) (Ends (Next objects around n)) := by
  have hneeded : ∀ (m : Nat) (p : Reconcile RoundEnd), f.state ≠ .commitPending →
      roundsNeeded f.state = m + 1 → (m ≤ n → p.Solo (Held f) (Ends (Next objects around n))) →
      p.Solo (fun w => Held f w ∧ Within objects around (n + 1) f w)
        (Ends (Next objects around n)) := by
    intro m p hstate hm hp r hr
    rcases hr.2 with hle | ⟨hcommit, -⟩
    · exact hp (by omega) r hr.1
    · exact absurd hcommit hstate
  unfold reconcileRound
  split
  · rename_i hstate
    exact hneeded 5 _ (by rw [hstate]; nofun) (by rw [hstate]; rfl) fun hn =>
      solo_reconcileWorking hn _ _
  · rename_i hstate
    exact hneeded 4 _ (by rw [hstate]; nofun) (by rw [hstate]; rfl) fun hn =>
      solo_reconcileTracking hn _ _
  · rename_i hstate
    exact solo_reconcileCommitPending _ _ hgit hstate
  · rename_i hstate
    exact hneeded 1 _ (by rw [hstate]; nofun) (by rw [hstate]; rfl) fun hn =>
      solo_reconcilePushPending hn _ _
  all_goals exact solo_done

/-- Rounds that are enough do not run out: by induction on the rounds that are left. -/
theorem solo_reconcileRounds (lease : Option AgentGitFinalizationLease)
    (ownerRunToken : Option String) (hgit : objects.OnParent) (n : Nat) :
    ∀ (guarded : Bool) (f : GitFinalization),
      (reconcileRounds objects around lease ownerRunToken n guarded f).Solo
        (fun w => Held f w ∧ Within objects around n f w) (Ends fun _ _ => True) := by
  induction n with
  | zero =>
    rintro guarded f r ⟨-, hneeded | ⟨-, -, hthree⟩⟩
    · have hpos : 0 < roundsNeeded f.state := by cases f.state <;> decide
      omega
    · omega
  | succ n ih =>
    intro guarded f
    refine (passive_acquireGuard guarded f).bind fun guarded => (passive_fence lease).bind fun _ => ?_
    refine solo_bind (solo_reconcileRound lease ownerRunToken hgit f) fun roundEnd => ?_
    cases roundEnd with
    | done g => exact solo_pure fun _ _ => trivial
    | again g => exact ih guarded g

/-! ## The reconciliation -/

/-- A reconciliation, whatever the other processes do between its steps: it completes a journal
from `commit_pending` only once it has found the one sealed task commit, matched it with the
manifest and seen it retained, and from `push_pending` only once the commit that the journal
names matches, is retained and is proved to be on the upstream; it moves a journal to
`push_pending` on the first kind of evidence as well. A write from a generation that has passed
changes nothing. Alone, with the record that is there, it does not run out of rounds. -/
theorem reconcile_proves_completion (objects : GitObjects) (around : Surroundings)
    (lease : Option AgentGitFinalizationLease) (ownerRunToken : Option String)
    (f : GitFinalization) :
    (∀ others (r : Interleave.Run World ReconcileEvent), ∃ events,
      (reconcileAgentGitFinalization objects around lease ownerRunToken f others r).2.log =
        r.log ++ events ∧
      ∀ pre held w before after changed post,
        events = pre ++ .wrote held w before after changed :: post →
        (∀ g ∈ after.gitFinalizations, g.state = .completed → g ∉ before.gitFinalizations →
          ∃ commit, (held.state = .commitPending ∧ held.gitMode = .commit ∧
              CommitProof objects around held commit pre) ∨
            (held.state = .pushPending ∧ PublicationProof objects around held commit pre)) ∧
        (∀ owner commitOid, w = .advance .pushPending owner commitOid →
          ∃ commit, commitOid = some commit ∧ held.gitMode = .commitAndPush ∧
            CommitProof objects around held commit pre) ∧
        ((∀ row, before.journal? held.projectId held.codexSessionId = some row →
          row.generation ≠ held.generation) → after = before)) ∧
    (objects.OnParent → ∀ r : Interleave.Run World ReconcileEvent, Held f r.world → ∀ sessionId,
      (reconcileAgentGitFinalization objects around lease ownerRunToken f alone r).1 ≠
        .error (.changedTooManyTimes sessionId)) := by
  constructor
  · intro others r
    obtain ⟨events, hlog, hall⟩ :=
      logs_reconcileRounds lease ownerRunToken 6 false f others r
    refine ⟨events, hlog, fun pre held w before after changed post heq => ?_⟩
    obtain ⟨hproved, now, rfl, -⟩ := hall pre _ post heq
    refine ⟨fun g hg hstate hnew => ?_, ?_, JournalWrite.run_of_stale w⟩
    · obtain ⟨owner, commitOid, rfl⟩ := JournalWrite.completes_of_run hg hstate hnew
      obtain ⟨commit, -, hproof⟩ := hproved
      exact ⟨commit, hproof⟩
    · rintro owner commitOid rfl
      obtain ⟨commit, hcommit, -, hmode, hproof⟩ := hproved
      exact ⟨commit, hcommit, hmode, hproof⟩
  · intro hgit r hheld sessionId hend
    have hneeded : roundsNeeded f.state ≤ 6 := by cases f.state <;> decide
    have hends : Ends (fun _ _ => True)
        (reconcileRounds objects around lease ownerRunToken 6 false f alone r).1 _ :=
      solo_reconcileRounds lease ownerRunToken hgit 6 false f r ⟨hheld, .inl hneeded⟩
    rw [reconcileAgentGitFinalization] at hend
    rw [hend] at hends
    exact hends

/-! A branch on which two commits claim the session: one is the journal's, on top of the parent
`p` of its manifest, and the other came later. -/

/-- The two commits, with the same board and the same trailer. -/
def twiceClaimed : GitObjects where
  parents commit := .ok (if commit = "c1" then ["p"] else if commit = "c2" then ["c1"] else [])
  tree _ := .ok "t"
  trailers _ := .ok ["codex:s"]
  usesAgentIdentity _ := .ok true
  completedIdentity commit _ := .ok (if commit = "p" then none else some "i")
  activeIdentityCount _ _ := .ok 0
  isAncestor _ _ := .ok true
  isFirstParentAncestor _ _ := .ok true
  firstParentRange start tip :=
    .ok (if start = "p" ∧ tip = "c2" then ["c1", "c2"] else [tip])
  isOnlySelectedOrder _ _ _ := .ok false

/-- Nothing fails, and the manifest of every journal was sealed on top of `p`. -/
def quietSurroundings : Surroundings where
  baselineFromJson _ := .ok {
    version := 2, stagedNonTaskPatchIds := some [], stagedIndexTree := some "t",
    manifestParentHead := some "p" }
  sealedFieldsAbsent _ := .ok false
  acquireFinalization _ _ := .ok ()
  ensureOwned _ _ := .ok ()
  checkRegisteredRoot _ _ := .ok ()
  acquireBoardLock _ := .ok ()
  repairTracking w _ _ := (.ok true, w.checkout)
  fetchUpstream w _ _ := .ok w.upstreamTip
  push w _ _ _ := (.ok (), w.upstreamTip)
  checkEnvironment := .ok ()
  requireUnpublished _ _ _ _ := .ok ()
  amend _ _ _ _ := .error "commit"
  publishIndex _ := .ok ()
  diagnostic _ _ := .ok "stalled"
  timestamp _ := "2"

/-- The journal of the session, waiting for its push. -/
def pushedJournal : GitFinalization where
  projectId := 1
  codexSessionId := "s"
  state := .pushPending
  gitMode := .commitAndPush
  startingHead := some "p"
  branchRef := some "b"
  upstreamRef := some "u"
  worktreeBaseline := "{}"
  taskIdentity := some "i"
  ownerRunToken := none
  commitOid := some "c1"
  generation := 3
  lastError := none
  createdAt := "1"
  updatedAt := "1"
  completedAt := none
  acknowledgedAt := none
  acknowledgedRunId := none

/-- The branch and its upstream are at `c2`. -/
def pushedWorld : World where
  registry := { Registry.empty with gitFinalizations := ⟨[pushedJournal], by decide⟩ }
  checkout := {
    symbolicHead := .ok (some "b")
    resolve := fun _ => .ok "c2"
    terminalTask := fun _ =>
      .ok (some { status := .done, hasCompletedNote := true, durableIdentity := some "i" })
    containsSessionMarker := fun _ => .ok true
    linkedTasks := fun _ => .ok [(.done, false)] }
  upstreamTip := some "c2"

/-- The reconciliation of the journal, alone. -/
def pushedRun : Except ReconcileError GitFinalization × Interleave.Run World ReconcileEvent :=
  reconcileAgentGitFinalization twiceClaimed quietSurroundings none none pushedJournal alone
    ⟨0, pushedWorld, []⟩

/-- The event read the branch at another commit than `c2`. -/
def readElsewhere : ReconcileEvent → Bool
  | .resolved _ (.ok tip) => tip != "c2"
  | _ => false

/-- The journal is completed, and nothing in the log shows that exactly one commit claims the
session: the search that would refuse the branch is not made again. -/
theorem completed_without_search :
    pushedRun.1.toOption.map GitFinalization.state = some .completed ∧
      ∀ commit events, events ⊆ pushedRun.2.log →
        ¬ CommitProof twiceClaimed quietSurroundings pushedJournal commit events := by
  refine ⟨by decide +kernel, fun commit events hsub hproof => ?_⟩
  obtain ⟨startingHead, taskIdentity, baseline, tip, hstart, -, hbaseline, htip, hsealed, -⟩ :=
    hproof.found
  have hall : pushedRun.2.log.all (fun e => !readElsewhere e) = true := by decide +kernel
  have hread := List.all_eq_true.mp hall _ (hsub htip)
  have hc2 : tip = "c2" := by simpa [readElsewhere] using hread
  cases hstart
  cases hbaseline
  subst hc2
  obtain ⟨revisions, hrange, -, hcount⟩ := hsealed.unique
  cases hrange
  revert hcount
  decide

/-- One commit on top of its parent. -/
def singleCommit : GitObjects :=
  { twiceClaimed with
    parents := fun commit => .ok (if commit = "c1" then ["p"] else [])
    firstParentRange := fun _ tip => .ok [tip] }

theorem reconcile_proves_completion_single :
    Held pushedJournal pushedWorld ∧
      (reconcileAgentGitFinalization singleCommit quietSurroundings none none pushedJournal alone
        ⟨0, pushedWorld, []⟩).1 ≠ .error (.changedTooManyTimes "s") := by
  have hgit : singleCommit.OnParent := ⟨fun _ _ _ => rfl, fun _ _ _ => rfl⟩
  have hheld : Held pushedJournal pushedWorld := rfl
  exact ⟨hheld, (reconcile_proves_completion singleCommit quietSurroundings none none
    pushedJournal).2 hgit ⟨0, pushedWorld, []⟩ hheld "s"⟩

end Reconcile

end Clt
