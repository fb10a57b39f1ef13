import Clt.ManagedGit.ReconcileParts
import Clt.Registry.JournalLifecycle

/-!
# What a reconciliation proves before it writes

A run logs what it read and wrote. Every write that it makes to the journal comes after the
reads that justify it, whatever the other processes do in between (`logs_reconcile`), and a
write from a generation that has passed changes nothing (`run_of_stale`).
-/

namespace Clt

open Interleave Interleave.Program Relational

/-! ## What one write does -/

namespace JournalWrite

variable {held : GitFinalization} {now : String} {db : Registry}

theorem compareAndSet_of_stale {next : GitFinalizationState}
    {taskIdentity owner commitOid lastError : Option String}
    (h : ∀ row, db.journal? held.projectId held.codexSessionId = some row →
      row.generation ≠ held.generation) :
    (db.compareAndSetGitFinalization held.projectId held.codexSessionId held.generation next
      taskIdentity none false owner commitOid lastError now).db = db := by
  refine Registry.transaction_db (P := fun d => d = db) rfl fun a db' hbody => ?_
  simp only [fetch_bind_eq_ok, attempt_bind_eq_ok, require_bind_eq_ok] at hbody
  obtain ⟨row, hrow, current, hcurrent, hgeneration, -⟩ := hbody
  obtain ⟨-, rfl⟩ := GitFinalization.recordFromRow_eq_ok.mp hcurrent
  exact absurd (beq_iff_eq.mp hgeneration) (h row hrow)

/-- A write from a generation that has passed changes nothing. -/
theorem run_of_stale (write : JournalWrite)
    (h : ∀ row, db.journal? held.projectId held.codexSessionId = some row →
      row.generation ≠ held.generation) : (write.run held now db).db = db := by
  cases write with
  | recoverIntent taskIdentity owner => exact compareAndSet_of_stale h
  | advance next owner commitOid => exact compareAndSet_of_stale h
  | cancelOrphan holder updatedAt =>
    refine Registry.transaction_db (P := fun d => d = db) rfl fun a db' hbody => ?_
    simp only [fetch_bind_eq_ok, attempt_bind_eq_ok, require_bind_eq_ok] at hbody
    obtain ⟨row, hrow, current, hcurrent, hexpected, -⟩ := hbody
    obtain ⟨-, rfl⟩ := GitFinalization.recordFromRow_eq_ok.mp hcurrent
    have hsame : row = held := by simp_all
    exact absurd (congrArg GitFinalization.generation hsame) (h row hrow)

theorem state_of_compareAndSet {next : GitFinalizationState}
    {taskIdentity owner commitOid lastError : Option String} {g : GitFinalization}
    (hg : g ∈ (db.compareAndSetGitFinalization held.projectId held.codexSessionId held.generation
      next taskIdentity none false owner commitOid lastError now).db.gitFinalizations) :
    g ∈ db.gitFinalizations ∨ g.state = next := by
  refine Registry.transaction_db
    (P := fun d => g ∈ d.gitFinalizations → g ∈ db.gitFinalizations ∨ g.state = next)
    .inl (fun a db' hbody hmem => ?_) hg
  simp only [fetch_bind_eq_ok, attempt_bind_eq_ok, require_bind_eq_ok] at hbody
  obtain ⟨row, -, current, -, -, hbody⟩ := hbody
  obtain ⟨-, -, hbody⟩ := step_bind_eq_ok.mp hbody
  obtain ⟨-, -, hbody⟩ := step_bind_eq_ok.mp hbody
  simp only [fetch_bind_eq_ok, require_bind_eq_ok] at hbody
  obtain ⟨journals, hupdate, -, ⟨⟩⟩ := hbody
  obtain ⟨e, he, rfl⟩ := (Table.mem_update? hupdate).mp hmem
  rw [Table.rewrite]
  split
  · exact .inr rfl
  · exact .inl he

/-- Only an advance to `completed` leaves a completed row that was not there. -/
theorem completes_of_run {write : JournalWrite} {g : GitFinalization}
    (hg : g ∈ (write.run held now db).db.gitFinalizations) (hstate : g.state = .completed)
    (hnew : g ∉ db.gitFinalizations) :
    ∃ owner commitOid, write = .advance .completed owner commitOid := by
  cases write with
  | recoverIntent taskIdentity owner =>
    rcases state_of_compareAndSet hg with hold | htracking
    · exact absurd hold hnew
    · rw [htracking] at hstate
      cases hstate
  | advance next owner commitOid =>
    rcases state_of_compareAndSet hg with hold | hnext
    · exact absurd hold hnew
    · exact ⟨owner, commitOid, by rw [← hnext, hstate]⟩
  | cancelOrphan holder updatedAt =>
    exfalso
    refine Registry.transaction_db
      (P := fun d => g ∈ d.gitFinalizations → False)
      hnew (fun a db' hbody hmem => ?_) hg
    simp only [fetch_bind_eq_ok, attempt_bind_eq_ok, require_bind_eq_ok] at hbody
    obtain ⟨row, -, current, -, -, -, -, -, ⟨⟩⟩ := hbody
    obtain ⟨e, he, rfl⟩ := List.mem_map.mp hmem
    rw [Table.rewrite] at hstate hnew
    split at hstate
    · cases hstate
    · rename_i hkept
      rw [if_neg hkept] at hnew
      exact hnew he

end JournalWrite

/-! ## Evidence -/

namespace Reconcile

variable (objects : GitObjects) (around : Surroundings)

/-- The checks of `local_agent_git_task_commit_is_retained`, as a log shows them. -/
structure Retained (f : GitFinalization) (taskIdentity commit : String)
    (events : List ReconcileEvent) : Prop where
  branch : ∃ branch tip, f.branchRef = some branch ∧
    .readHead (.ok (some branch)) ∈ events ∧ .resolved branch (.ok tip) ∈ events ∧
    tipRetains objects tip commit f.codexSessionId taskIdentity = .ok true
  worktree : .readWorktreeIdentity (.ok (some taskIdentity)) ∈ events

/-- The task commit of a journal, found, matched and retained. -/
structure CommitProof (f : GitFinalization) (commit : String) (events : List ReconcileEvent) :
    Prop where
  found : ∃ startingHead taskIdentity baseline tip,
    f.startingHead = some startingHead ∧ f.taskIdentity = some taskIdentity ∧
    around.baselineFromJson f.worktreeBaseline = .ok baseline ∧
    .resolved (f.branchRef.getD "HEAD") (.ok tip) ∈ events ∧
    objects.Sealed (proofStart baseline startingHead) tip f.codexSessionId taskIdentity commit ∧
    objects.commitMatchesStagedManifest commit f.codexSessionId taskIdentity baseline true =
      .ok true ∧
    Retained objects f taskIdentity commit events

/-- The commit that a journal names, matched and retained, and on the upstream. -/
structure PublicationProof (f : GitFinalization) (commit : String)
    (events : List ReconcileEvent) : Prop where
  published : ∃ taskIdentity baseline tip,
    f.taskIdentity = some taskIdentity ∧ f.commitOid = some commit ∧
    around.baselineFromJson f.worktreeBaseline = .ok baseline ∧
    objects.commitMatchesStagedManifest commit f.codexSessionId taskIdentity baseline true =
      .ok true ∧
    Retained objects f taskIdentity commit events ∧
    .fetchedUpstream (.ok (some tip)) ∈ events ∧
    objects.upstreamTipProvesTaskCommit tip commit f.codexSessionId taskIdentity
      (baseline.version == 1) = .ok true

/-- What must have been read before a write. -/
def WriteProved (held : GitFinalization) (w : JournalWrite) (events : List ReconcileEvent) :
    Prop :=
  match w with
  | .advance .completed _ commitOid => ∃ commit, commitOid = some commit ∧
      ((held.state = .commitPending ∧ held.gitMode = .commit ∧
          CommitProof objects around held commit events) ∨
        (held.state = .pushPending ∧ PublicationProof objects around held commit events))
  | .advance .pushPending _ commitOid => ∃ commit, commitOid = some commit ∧
      held.state = .commitPending ∧ held.gitMode = .commitAndPush ∧
        CommitProof objects around held commit events
  | _ => True

/-- An event of a run is justified by the events before it: a write was made from the record in
hand, and after what must have been read. -/
def Justified (events : List ReconcileEvent) : ReconcileEvent → Prop
  | .wrote held w before after changed =>
    WriteProved objects around held w events ∧
      ∃ now, after = (w.run held now before).db ∧ changed = (w.run held now before).result
  | _ => True

/-- Every event of a log is justified. -/
def AllJustified (events : List ReconcileEvent) : Prop :=
  ∀ pre e post, events = pre ++ e :: post → Justified objects around pre e

variable {objects : GitObjects} {around : Surroundings} {f : GitFinalization}
  {taskIdentity commit : String} {events more : List ReconcileEvent}

/-! More events before a write justify it as well. -/

theorem Retained.mono (h : Retained objects f taskIdentity commit events)
    (hsub : events ⊆ more) : Retained objects f taskIdentity commit more := by
  obtain ⟨⟨branch, tip, hbranch, hhead, htip, hretains⟩, hworktree⟩ := h
  exact ⟨⟨branch, tip, hbranch, hsub hhead, hsub htip, hretains⟩, hsub hworktree⟩

theorem CommitProof.mono (h : CommitProof objects around f commit events)
    (hsub : events ⊆ more) : CommitProof objects around f commit more := by
  obtain ⟨startingHead, taskIdentity, baseline, tip, hstart, hidentity, hbaseline, htip, hsealed,
    hmatches, hretained⟩ := h.found
  exact ⟨startingHead, taskIdentity, baseline, tip, hstart, hidentity, hbaseline, hsub htip,
    hsealed, hmatches, hretained.mono hsub⟩

theorem PublicationProof.mono (h : PublicationProof objects around f commit events)
    (hsub : events ⊆ more) : PublicationProof objects around f commit more := by
  obtain ⟨taskIdentity, baseline, tip, hidentity, hcommit, hbaseline, hmatches, hretained,
    hfetched, hproves⟩ := h.published
  exact ⟨taskIdentity, baseline, tip, hidentity, hcommit, hbaseline, hmatches,
    hretained.mono hsub, hsub hfetched, hproves⟩

theorem WriteProved.mono {w : JournalWrite} (h : WriteProved objects around f w events)
    (hsub : events ⊆ more) : WriteProved objects around f w more := by
  unfold WriteProved at h ⊢
  split at h
  · obtain ⟨commit, hcommit, ⟨hstate, hmode, hproof⟩ | ⟨hstate, hproof⟩⟩ := h
    · exact ⟨commit, hcommit, .inl ⟨hstate, hmode, hproof.mono hsub⟩⟩
    · exact ⟨commit, hcommit, .inr ⟨hstate, hproof.mono hsub⟩⟩
  · obtain ⟨commit, hcommit, hstate, hmode, hproof⟩ := h
    exact ⟨commit, hcommit, hstate, hmode, hproof.mono hsub⟩
  · trivial

theorem Justified.mono {e : ReconcileEvent} (h : Justified objects around events e)
    (hsub : events ⊆ more) : Justified objects around more e := by
  cases e with
  | wrote held w before after changed => exact ⟨h.1.mono hsub, h.2⟩
  | _ => trivial

theorem justified_of_not_write {e : ReconcileEvent} (h : e.isWrite = false) :
    Justified objects around events e := by
  cases e with
  | wrote held w before after changed => cases h
  | _ => trivial

theorem allJustified_of_quiet (h : Quiet events) : AllJustified objects around events := by
  intro pre e post heq
  exact justified_of_not_write (h e (by rw [heq]; simp))

theorem AllJustified.append (h : AllJustified objects around events)
    (hmore : AllJustified objects around more) : AllJustified objects around (events ++ more) := by
  intro pre e post heq
  rcases List.append_eq_append_iff.mp heq with ⟨mid, rfl, hrest⟩ | ⟨mid, hevents, hrest⟩
  · exact (hmore mid e post hrest).mono (List.subset_append_right _ _)
  · cases mid with
    | nil =>
      rw [List.append_nil] at hevents
      rw [← hevents]
      exact (hmore [] e post hrest.symm).mono (List.nil_subset _)
    | cons e' mid =>
      obtain ⟨rfl, -⟩ := List.cons.inj hrest
      exact h pre e mid hevents

/-! ## What the parts of a round log -/

section Logs

variable {α β : Type}

theorem logs_lift (x : Except String α) :
    (lift x).Logs fun result es => Quiet es ∧ ∀ a, result = .ok a → x = .ok a :=
  logs_ofExcept ⟨quiet_nil, fun _ h => mapError_eq_ok.mp h⟩

theorem logs_observe (g : World → Except String α) {event : Except String α → ReconcileEvent}
    (h : ∀ answer, (event answer).isWrite = false) :
    (observe g event).Logs fun result es => Quiet es ∧ ∀ a, result = .ok a → event (.ok a) ∈ es :=
  logs_step fun w => by
    refine ⟨quiet_singleton (h _), fun a ha => ?_⟩
    rw [mapError_eq_ok.mp ha]
    exact List.mem_singleton_self _

/-- After quiet events, a quiet part hands its evidence to the rest. -/
theorem logs_after {p : Reconcile α} {g : α → Reconcile β}
    {P : Except ReconcileError α → List ReconcileEvent → Prop} (hevents : Quiet events)
    (hp : p.Logs fun result es => Quiet es ∧ P result es)
    (hok : ∀ a es, Quiet (events ++ es) → P (.ok a) es →
      (g a).Logs fun _ more => AllJustified objects around ((events ++ es) ++ more)) :
    (p >>= g).Logs fun _ more => AllJustified objects around (events ++ more) := by
  refine Logs.bind hp (fun a es hes => ?_) fun _ es hes => ?_
  · refine (hok a es (hevents.append hes.1) hes.2).mono fun _ more hmore => ?_
    rwa [← List.append_assoc]
  · exact allJustified_of_quiet (hevents.append hes.1)

theorem logs_after_silent {p : Reconcile α} {g : α → Reconcile β} (hevents : Quiet events)
    (hp : Silent p) (hok : ∀ a es, Quiet (events ++ es) →
      (g a).Logs fun _ more => AllJustified objects around ((events ++ es) ++ more)) :
    (p >>= g).Logs fun _ more => AllJustified objects around (events ++ more) :=
  logs_after (P := fun _ _ => True) hevents (hp.mono fun _ _ hes => ⟨hes, trivial⟩)
    fun a es hes _ => hok a es hes

/-- A part that writes nothing ends a run of quiet events. -/
theorem justified_of_silent {p : Reconcile α} (hevents : Quiet events) (hp : Silent p) :
    p.Logs fun _ more => AllJustified objects around (events ++ more) :=
  hp.mono fun _ _ hmore => allJustified_of_quiet (hevents.append hmore)

/-- A write after what must have been read. -/
theorem logs_write {w : JournalWrite} (hevents : Quiet events)
    (hproved : WriteProved objects around f w events) :
    (write around f w).Logs fun _ more => AllJustified objects around (events ++ more) := by
  have hwrite : ∀ world : World, AllJustified objects around (events ++
      [.wrote f w world.registry (w.run f (around.timestamp world) world.registry).db
        (w.run f (around.timestamp world) world.registry).result]) := by
    intro world pre e post heq
    rcases List.append_eq_append_iff.mp heq with ⟨mid, rfl, hrest⟩ | ⟨mid, rfl, hrest⟩
    · -- The event is the write itself, or lies behind it.
      cases mid with
      | nil =>
        obtain ⟨rfl, -⟩ := List.cons.inj hrest
        rw [List.append_nil]
        exact ⟨hproved, _, rfl, rfl⟩
      | cons e' mid => simp at hrest
    · cases mid with
      | nil =>
        obtain ⟨rfl, -⟩ := List.cons.inj hrest
        rw [List.append_nil] at hproved
        exact ⟨hproved, _, rfl, rfl⟩
      | cons e' mid =>
        obtain ⟨rfl, -⟩ := List.cons.inj hrest
        exact justified_of_not_write (hevents _ (by simp))
  exact logs_step hwrite

/-- A write after what must have been read, and then nothing more. -/
theorem logs_write_then {w : JournalWrite} {g : Bool → Reconcile β} (hevents : Quiet events)
    (hproved : WriteProved objects around f w events) (hg : ∀ changed, Silent (g changed)) :
    (write around f w >>= g).Logs fun _ more => AllJustified objects around (events ++ more) := by
  refine Logs.bind (logs_write hevents hproved) (fun a es hes => ?_) fun _ es hes => ?_
  · refine (hg a).mono fun _ more hmore => ?_
    rw [← List.append_assoc]
    exact hes.append (allJustified_of_quiet hmore)
  · exact hes

/-! ## Reads that prove a commit -/

theorem logs_resolve (reference : String) :
    (resolve reference).Logs fun result es =>
      Quiet es ∧ ∀ tip, result = .ok tip → .resolved reference (.ok tip) ∈ es :=
  logs_observe _ fun _ => rfl

theorem logs_symbolicHead :
    symbolicHead.Logs fun result es =>
      Quiet es ∧ ∀ head, result = .ok head → .readHead (.ok head) ∈ es :=
  logs_observe _ fun _ => rfl

theorem logs_worktreeIdentity (sessionId : String) :
    (worktreeCompletedTaskIdentity sessionId).Logs fun result es =>
      Quiet es ∧ ∀ identity, result = .ok identity → .readWorktreeIdentity (.ok identity) ∈ es :=
  logs_observe _ fun _ => rfl

theorem logs_fetchUpstreamTip (baseline : AgentGitWorktreeBaseline) :
    (fetchUpstreamTip around f baseline).Logs fun result es =>
      Quiet es ∧ ∀ tip, result = .ok tip → .fetchedUpstream (.ok tip) ∈ es :=
  logs_observe _ fun _ => rfl

/-- Quiet parts one after the other, with what the first one saw. -/
theorem logs_and {p : Reconcile α} {g : α → Reconcile β}
    {P : Except ReconcileError α → List ReconcileEvent → Prop}
    {Q : Except ReconcileError β → List ReconcileEvent → Prop}
    (hp : p.Logs fun result es => Quiet es ∧ P result es)
    (hok : ∀ a es, P (.ok a) es → (g a).Logs fun result more => Quiet more ∧ Q result (es ++ more))
    (herror : ∀ e es, Q (.error e) es) :
    (p >>= g).Logs fun result es => Quiet es ∧ Q result es := by
  refine Logs.bind hp (fun a es hes => ?_) fun e es hes => ⟨hes.1, herror e es⟩
  exact (hok a es hes.2).mono fun _ more hmore => ⟨hes.1.append hmore.1, hmore.2⟩

/-- The search returns a commit that is sealed at a tip it has read. -/
theorem logs_findTaskCommit (startingHead : String) (branchRef : Option String)
    (sessionId taskIdentity : String) (legacy : Bool) :
    (findTaskCommit objects startingHead branchRef sessionId taskIdentity legacy).Logs
      fun result es => Quiet es ∧ ∀ commit, result = .ok (some commit) → ∃ tip,
        .resolved (branchRef.getD "HEAD") (.ok tip) ∈ es ∧
        objects.Sealed startingHead tip sessionId taskIdentity commit := by
  refine logs_and (logs_resolve _) (fun tip es htip => ?_) fun _ _ => nofun
  refine logs_and (logs_lift _) (fun candidate _ hcandidate => ?_) fun _ _ => nofun
  cases candidate with
  | none => exact logs_pure ⟨quiet_nil, nofun⟩
  | some candidate =>
    refine logs_and (logs_resolve _) (fun tip' _ _ => ?_) fun _ _ => nofun
    refine logs_pure ⟨quiet_nil, fun commit hcommit => ⟨tip, ?_, ?_⟩⟩
    · exact List.mem_append_left _ (htip tip rfl)
    · have hsome : (if tip' = tip then some candidate else none) = some commit :=
        Except.ok.inj hcommit
      split at hsome
      · cases hsome
        exact GitObjects.sealed_of_sealedCommit (hcandidate _ rfl)
      · cases hsome

/-- A commit is retained by reads that the log shows. -/
theorem logs_commitIsRetained (taskIdentity commit : String) :
    (commitIsRetained objects f.branchRef commit f.codexSessionId taskIdentity).Logs
      fun result es => Quiet es ∧ (result = .ok true →
        Retained objects f taskIdentity commit es) := by
  unfold commitIsRetained
  split
  · exact logs_pure ⟨quiet_nil, nofun⟩
  rename_i branch hbranch
  refine logs_and logs_symbolicHead (fun head es hhead => ?_) fun _ _ => nofun
  split
  · exact logs_pure ⟨quiet_nil, nofun⟩
  rename_i hisHead
  refine logs_and (logs_worktreeIdentity _) (fun identity _ hidentity => ?_) fun _ _ => nofun
  split
  · exact logs_pure ⟨quiet_nil, nofun⟩
  rename_i hisIdentity
  refine logs_and (logs_resolve _) (fun tip _ htip => ?_) fun _ _ => nofun
  refine logs_and (logs_lift _) (fun retains _ hretains => ?_) fun _ _ => nofun
  split
  · exact logs_pure ⟨quiet_nil, nofun⟩
  rename_i hretained
  refine logs_and (logs_resolve _) (fun tip' _ _ => ?_) fun _ _ => nofun
  refine logs_pure ⟨quiet_nil, fun _ => ⟨⟨branch, tip, hbranch, ?_, ?_, ?_⟩, ?_⟩⟩
  · have : head = some branch := by simpa using hisHead
    exact List.mem_append_left _ (this ▸ hhead head rfl)
  · exact List.mem_append_right _ (List.mem_append_right _
      (List.mem_append_left _ (htip tip rfl)))
  · have : retains = true := by simpa using hretained
    exact this ▸ hretains retains rfl
  · have : identity = some taskIdentity := by simpa using hisIdentity
    exact List.mem_append_right _ (List.mem_append_left _ (this ▸ hidentity identity rfl))

/-- The published tip is the answer of a fetch. -/
theorem logs_publishedTip (baseline : AgentGitWorktreeBaseline) (taskIdentity commit : String) :
    (publishedTip objects around f baseline taskIdentity commit).Logs fun result es =>
      Quiet es ∧ ∀ tip, result = .ok tip → .fetchedUpstream (.ok tip) ∈ es := by
  refine logs_and (logs_fetchUpstreamTip baseline) (fun tip es htip => ?_) fun _ _ => nofun
  have hpush : (pushCommit around f baseline commit).Logs fun _ es => Quiet es ∧ True :=
    logs_step fun _ => ⟨quiet_nil, trivial⟩
  have hrest : ∀ published : Bool, Program.Logs (if published = true then pure tip else do
      pushCommit around f baseline commit
      fetchUpstreamTip around f baseline) fun result more => Quiet more ∧
        ∀ tip, result = .ok tip → .fetchedUpstream (.ok tip) ∈ es ++ more := by
    intro published
    split
    · refine logs_pure ⟨quiet_nil, fun tip' h => ?_⟩
      cases h
      exact List.mem_append_left _ (htip tip rfl)
    · refine logs_and hpush (fun _ _ _ => ?_) fun _ _ => nofun
      refine (logs_fetchUpstreamTip baseline).mono fun _ more hmore => ⟨hmore.1, fun tip' h => ?_⟩
      exact List.mem_append_right _ (List.mem_append_right _ (hmore.2 tip' h))
  cases tip with
  | none => exact hrest false
  | some tip =>
    refine logs_and (logs_lift _) (fun published _ _ => ?_) fun _ _ => nofun
    refine (hrest published).mono fun _ more hmore => ⟨hmore.1, fun tip' h => ?_⟩
    rcases List.mem_append.mp (hmore.2 tip' h) with hl | hr
    · exact List.mem_append_left _ hl
    · exact List.mem_append_right _ (List.mem_append_right _ hr)

/-! ## The rounds -/

/-- A check that may end a part before it has written. -/
theorem logs_unless {c : Bool} {p q : Reconcile α} (hevents : Quiet events) (hp : Silent p)
    (hq : c = false → q.Logs fun _ more => AllJustified objects around (events ++ more)) :
    (if c = true then p else q).Logs fun _ more =>
      AllJustified objects around (events ++ more) := by
  cases c with
  | true => exact justified_of_silent hevents hp
  | false => exact hq rfl

theorem logs_cancelOrphaned (lease : AgentGitFinalizationLease) (f : GitFinalization) :
    (cancelOrphaned around f lease).Logs fun _ es => AllJustified objects around ([] ++ es) := by
  have hstop : Silent (pure false : Reconcile Bool) := silent_pure false
  unfold cancelOrphaned
  refine logs_unless quiet_nil hstop fun _ => logs_unless quiet_nil hstop fun _ => ?_
  refine logs_after_silent quiet_nil (passive_lift _).silent fun absent _ hq => ?_
  refine logs_unless hq hstop fun _ => ?_
  refine logs_after_silent hq (passive_check _ _).silent fun _ _ hq => ?_
  refine logs_after_silent hq (passive_read _).silent fun _ _ hq => ?_
  refine logs_after_silent hq (passive_read _).silent fun _ _ hq => ?_
  refine logs_after_silent hq (passive_read _).silent fun _ _ hq => ?_
  refine logs_after_silent hq (passive_read _).silent fun marked _ hq => ?_
  refine logs_unless hq hstop fun _ => ?_
  refine logs_after_silent hq (passive_read _).silent fun _ _ hq => ?_
  refine logs_after_silent hq (passive_read _).silent fun _ _ hq => ?_
  exact logs_write hq trivial

theorem silent_again (f : GitFinalization) (missing : String) :
    Silent (do return RoundEnd.again (← reread f missing)) :=
  silent_bind (passive_reread f missing).silent fun _ => silent_pure _

theorem logs_recoverIntent (lease : Option AgentGitFinalizationLease) (owner : Option String)
    (f : GitFinalization) : (recoverIntent objects around lease owner f).Logs
      fun _ es => AllJustified objects around ([] ++ es) := by
  have hstop : Silent (pure (.done f) : Reconcile RoundEnd) := silent_pure _
  unfold recoverIntent
  split
  · exact justified_of_silent quiet_nil hstop
  refine logs_after_silent quiet_nil (passive_lift _).silent fun baseline _ hq => ?_
  refine logs_unless hq hstop fun _ => ?_
  refine logs_after_silent hq (passive_worktreeContainsCompletedDoneTask _).silent fun _ _ hq => ?_
  refine logs_unless hq hstop fun _ => ?_
  refine logs_after_silent hq (passive_manifestParentIsCurrent f).silent fun _ _ hq => ?_
  refine logs_unless hq hstop fun _ => ?_
  refine logs_after_silent hq (passive_fence lease).silent fun _ _ hq => ?_
  exact logs_write_then hq trivial fun _ => silent_again f _

theorem logs_reconcileWorking (lease : Option AgentGitFinalizationLease) (owner : Option String)
    (f : GitFinalization) : (reconcileWorking objects around lease owner f).Logs
      fun _ es => AllJustified objects around es := by
  cases lease with
  | none => exact logs_recoverIntent none owner f
  | some held =>
    refine Logs.bind (logs_cancelOrphaned held f) (fun cancelled es hes => ?_) fun _ _ hes => hes
    cases cancelled with
    | true =>
      refine (silent_bind (passive_reread f _).silent fun g => silent_pure (RoundEnd.done g)).mono
        fun _ more hmore => ?_
      exact hes.append (allJustified_of_quiet hmore)
    | false => exact (logs_recoverIntent _ owner f).mono fun _ more hmore => hes.append hmore

theorem logs_reconcileTracking (lease : Option AgentGitFinalizationLease) (owner : Option String)
    (f : GitFinalization) : (reconcileTracking objects around lease owner f).Logs
      fun _ es => AllJustified objects around ([] ++ es) := by
  have hstop : Silent (pure (.done f) : Reconcile RoundEnd) := silent_pure _
  have hrepair : ∀ identity, Silent (repairTrackingBoard around f.codexSessionId identity) :=
    fun identity => logs_step fun _ => quiet_nil
  unfold reconcileTracking
  split
  · exact justified_of_silent quiet_nil hstop
  refine logs_after_silent quiet_nil (passive_manifestParentIsCurrent f).silent fun _ _ hq => ?_
  refine logs_unless hq hstop fun _ => ?_
  refine logs_after_silent hq (passive_fence lease).silent fun _ _ hq => ?_
  refine logs_after_silent hq (hrepair _) fun _ _ hq => ?_
  refine logs_unless hq hstop fun _ => ?_
  refine logs_after_silent hq (passive_fence lease).silent fun _ _ hq => ?_
  refine logs_after_silent hq (passive_worktreeContainsCompletedDoneTask _).silent fun _ _ hq => ?_
  refine logs_unless hq hstop fun _ => ?_
  refine logs_after_silent hq (passive_fence lease).silent fun _ _ hq => ?_
  exact logs_write_then hq trivial fun _ => silent_again f _

/-- A found commit is recorded once it matches its manifest and is retained. -/
theorem logs_recordTaskCommit {baseline : AgentGitWorktreeBaseline} {startingHead tip : String}
    (lease : Option AgentGitFinalizationLease) (owner : Option String)
    (hstate : f.state = .commitPending) (hstart : f.startingHead = some startingHead)
    (hidentity : f.taskIdentity = some taskIdentity)
    (hbaseline : around.baselineFromJson f.worktreeBaseline = .ok baseline)
    (hevents : Quiet events) (htip : .resolved (f.branchRef.getD "HEAD") (.ok tip) ∈ events)
    (hsealed : objects.Sealed (proofStart baseline startingHead) tip f.codexSessionId taskIdentity
      commit) :
    (recordTaskCommit objects around lease owner f baseline taskIdentity commit).Logs
      fun _ es => AllJustified objects around (events ++ es) := by
  refine logs_after hevents (logs_lift _) fun sealedAs es hq hmatches => ?_
  cases sealedAs with
  | false =>
    refine logs_after_silent hq (silent_repairBoardOrder lease f commit) fun repaired _ hq => ?_
    refine logs_unless hq (silent_pure _) fun _ => ?_
    exact justified_of_silent hq (silent_bind (passive_read _).silent fun _ => silent_fail _)
  | true =>
    refine logs_after hq (logs_commitIsRetained taskIdentity commit) fun retained es' hq hret => ?_
    cases retained with
    | false => exact justified_of_silent hq (silent_bind (passive_read _).silent fun _ => silent_fail _)
    | true =>
      have hproof : CommitProof objects around f commit (events ++ es ++ es') :=
        ⟨startingHead, taskIdentity, baseline, tip, hstart, hidentity, hbaseline,
          List.mem_append_left _ (List.mem_append_left _ htip), hsealed, hmatches true rfl,
          (hret rfl).mono (List.subset_append_right _ _)⟩
      refine logs_after_silent hq (passive_fence lease).silent fun _ es'' hq => ?_
      unfold afterCommit
      have hproof' := hproof.mono (List.subset_append_left _ es'')
      cases hmode : f.gitMode with
      | off => exact justified_of_silent hq (silent_fail_bind _ _)
      | commit =>
        exact logs_write_then hq ⟨commit, rfl, .inl ⟨hstate, hmode, hproof'⟩⟩ fun _ => silent_again f _
      | commitAndPush =>
        exact logs_write_then hq ⟨commit, rfl, hstate, hmode, hproof'⟩ fun _ => silent_again f _

theorem logs_reconcileCommitPending (lease : Option AgentGitFinalizationLease)
    (owner : Option String) (hstate : f.state = .commitPending) :
    (reconcileCommitPending objects around lease owner f).Logs
      fun _ es => AllJustified objects around ([] ++ es) := by
  unfold reconcileCommitPending
  split
  · rename_i startingHead taskIdentity hstart hidentity
    refine logs_after quiet_nil (logs_lift _) fun baseline es hq hbaseline => ?_
    refine logs_after hq (logs_findTaskCommit _ _ _ _ _) fun found es' hq hfound => ?_
    cases found with
    | none => exact justified_of_silent hq (silent_pure _)
    | some commit =>
      obtain ⟨tip, htip, hsealed⟩ := hfound commit rfl
      exact logs_recordTaskCommit lease owner hstate hstart hidentity (hbaseline baseline rfl) hq
        (List.mem_append_right _ htip) hsealed
  · exact justified_of_silent quiet_nil (silent_pure _)

/-- The commit that a journal names is published before the journal is completed. -/
theorem logs_reconcilePublication {baseline : AgentGitWorktreeBaseline}
    (lease : Option AgentGitFinalizationLease) (owner : Option String)
    (hstate : f.state = .pushPending) (hidentity : f.taskIdentity = some taskIdentity)
    (hbaseline : around.baselineFromJson f.worktreeBaseline = .ok baseline)
    (hcommit : f.commitOid = some commit) (hevents : Quiet events) :
    (reconcilePublication objects around lease owner f baseline taskIdentity commit).Logs
      fun _ es => AllJustified objects around (events ++ es) := by
  have hstop : Silent (pure (.done f) : Reconcile RoundEnd) := silent_pure _
  refine logs_after hevents (logs_lift _) fun sealedAs es hq hmatches => ?_
  refine logs_unless hq hstop fun hsealedAs => ?_
  refine logs_after_silent hq (passive_commitIsRetained _ _ _ _).silent fun _ _ hq => ?_
  refine logs_unless hq hstop fun _ => ?_
  refine logs_after hq (logs_publishedTip baseline taskIdentity commit) fun tip es' hq htip => ?_
  cases tip with
  | none => exact justified_of_silent hq hstop
  | some tip =>
    refine logs_after hq (logs_lift _) fun proved es'' hq hproves => ?_
    refine logs_unless hq hstop fun hproved => ?_
    refine logs_after hq (logs_commitIsRetained taskIdentity commit) fun retained _ hq hret => ?_
    refine logs_unless hq hstop fun hretained => ?_
    have hmatched : sealedAs = true := by simpa using hsealedAs
    have hproven : proved = true := by simpa using hproved
    have hkept : retained = true := by simpa using hretained
    refine logs_after_silent hq (passive_fence lease).silent fun _ _ hq => ?_
    refine logs_write_then hq ⟨commit, rfl, .inr ⟨hstate, ?_⟩⟩ fun _ => silent_again f _
    refine ⟨taskIdentity, baseline, tip, hidentity, hcommit, hbaseline, hmatched ▸ hmatches _ rfl,
      ?_, ?_, hproven ▸ hproves _ rfl⟩
    · exact (hret (hkept ▸ rfl)).mono fun e he =>
        List.mem_append_left _ (List.mem_append_right _ he)
    · refine List.mem_append_left _ (List.mem_append_left _ (List.mem_append_left _ ?_))
      exact List.mem_append_right _ (htip _ rfl)

theorem logs_reconcilePushPending (lease : Option AgentGitFinalizationLease)
    (owner : Option String) (hstate : f.state = .pushPending) :
    (reconcilePushPending objects around lease owner f).Logs
      fun _ es => AllJustified objects around ([] ++ es) := by
  unfold reconcilePushPending
  split
  · exact justified_of_silent quiet_nil (silent_pure _)
  rename_i taskIdentity hidentity
  refine logs_after quiet_nil (logs_lift _) fun baseline es hq hbaseline => ?_
  split
  · exact justified_of_silent hq (silent_pure _)
  rename_i commit hcommit
  exact logs_reconcilePublication lease owner hstate hidentity (hbaseline _ rfl) hcommit hq

/-- Every write of a round is justified. -/
theorem logs_reconcileRound (lease : Option AgentGitFinalizationLease)
    (ownerRunToken : Option String) (f : GitFinalization) :
    (reconcileRound objects around lease ownerRunToken f).Logs
      fun _ es => AllJustified objects around es := by
  unfold reconcileRound
  split
  · exact logs_reconcileWorking _ _ f
  · exact logs_reconcileTracking _ _ f
  · rename_i hstate
    exact logs_reconcileCommitPending _ _ hstate
  · rename_i hstate
    exact logs_reconcilePushPending _ _ hstate
  all_goals exact logs_pure (allJustified_of_quiet quiet_nil)

/-- Every write of a run is justified by what the run read before it, whatever the others do:
by induction on the rounds that are left. -/
theorem logs_reconcileRounds (lease : Option AgentGitFinalizationLease)
    (ownerRunToken : Option String) (n : Nat) :
    ∀ (guarded : Bool) (f : GitFinalization),
      (reconcileRounds objects around lease ownerRunToken n guarded f).Logs
        fun _ es => AllJustified objects around es := by
  induction n with
  | zero => exact fun _ f => logs_fail (allJustified_of_quiet quiet_nil)
  | succ n ih =>
    intro guarded f
    refine Logs.bind (passive_acquireGuard guarded f).silent (fun guarded es hes => ?_)
      fun _ _ hes => allJustified_of_quiet hes
    refine Logs.bind (passive_fence lease).silent (fun _ es' hes' => ?_)
      fun _ _ hes' => allJustified_of_quiet (hes.append hes')
    have hbefore {more : List ReconcileEvent} (hmore : AllJustified objects around more) :
        AllJustified objects around (es ++ (es' ++ more)) :=
      (allJustified_of_quiet hes).append ((allJustified_of_quiet hes').append hmore)
    refine Logs.bind (logs_reconcileRound lease ownerRunToken f) (fun roundEnd round hround => ?_)
      fun _ _ hround => hbefore hround
    cases roundEnd with
    | done g => exact logs_pure (hbefore (by rwa [List.append_nil]))
    | again g => exact (ih guarded g).mono fun _ more hmore => hbefore (hround.append hmore)

end Logs

end Reconcile

end Clt
