import Clt.Scheduler.Leases

/-!
# What a pass leaves

Each stage of a pass keeps the account of its leases, adds at most one job for its project while
one is left, and tracks it. From that, by induction over the projects, a whole pass.
-/

namespace Clt.Scheduler

open Relational Durable

/-! ## Jobs -/

/-- The projects that have a job. -/
def Progress.held (s : Progress) : List Int := s.jobs.map fun job => job.project.id

/-- The jobs are counted, no more than are allowed, and their leases are tracked. -/
structure Progress.Tracks (request : PassRequest) (s : Progress) : Prop where
  tracked : s.unstartedLeases = s.held.map fun projectId => (projectId, request.holder)
  bounded : s.jobs.length ≤ request.maxGlobalJobs - s.activeAgentJobs
  started : s.runsStarted = s.jobs.length

/-- A project gets at most one job. -/
structure Visits (request : PassRequest) (projectId : Int) (s s' : Progress) : Prop where
  tracks : s'.Tracks request
  active : s'.activeAgentJobs = s.activeAgentJobs
  held : s'.held = s.held ∨ s'.held = s.held ++ [projectId]

section

variable (request : PassRequest) (base : Int → Prop) (projectId : Int)

/-- The project was visited, and the leases are accounted for. -/
def Visited (s s' : Progress) (w : World) : Prop :=
  Visits request projectId s s' ∧ Account request.holder base s'.held s'.held w

/-- The lease is that of the job, or no lease is left. -/
def Granted (taken earned : List Int) : AgentJobAcquisitionResult → World → Prop
  | .acquired job _ _, w => (job.project.id = projectId ∧ job.holder = request.holder) ∧
      Account request.holder base (projectId :: taken) (projectId :: earned) w
  | _, w => Account request.holder base taken earned w

/-- The project was visited, or work goes on. -/
def Supervised (s : Progress) : Option Progress → World → Prop
  | some s', w => Visited request base projectId s s' w
  | none, w => Account request.holder base s.held s.held w

/-- The project was visited, or work goes on with what was read again. -/
def Settles (s : Progress) : Settled → World → Prop
  | .done s', w => Visited request base projectId s s' w
  | .goOn project _ _, w => project.id = projectId ∧ Account request.holder base s.held s.held w

end

variable {α : Type} {request : PassRequest} {base : Int → Prop} {taken earned : List Int}
  {project : Project} {projectId : Int} {s s' : Progress} {scan : AgentProjectScan}
  {selection : AgentTaskSelection} {session : Option String} {w : World}

/-- Only counters change. -/
theorem Progress.Tracks.visits (h : s.Tracks request) (hactive : s'.activeAgentJobs = s.activeAgentJobs)
    (hjobs : s'.jobs = s.jobs) (hleases : s'.unstartedLeases = s.unstartedLeases)
    (hstarted : s'.runsStarted = s.runsStarted) : Visits request projectId s s' := by
  have hheld : s'.held = s.held := congrArg (List.map _) hjobs
  refine ⟨⟨?_, ?_, ?_⟩, hactive, .inl hheld⟩
  · rw [hleases, hheld]
    exact h.tracked
  · rw [hactive, hjobs]
    exact h.bounded
  · rw [hstarted, hjobs]
    exact h.started

theorem Visits.refl (h : s.Tracks request) : Visits request projectId s s :=
  h.visits rfl rfl rfl rfl

/-- What was counted before the visit does not matter. -/
theorem Visits.after {s'' : Progress} (h : Visits request projectId s' s'')
    (hheld : s'.held = s.held) (hactive : s'.activeAgentJobs = s.activeAgentJobs) :
    Visits request projectId s s'' :=
  ⟨h.tracks, h.active.trans hactive, hheld ▸ h.held⟩

/-- A job is started while one is left. -/
theorem Progress.Tracks.start {job : AgentRunJob} (h : s.Tracks request)
    (hfree : s.activeAgentJobs + s.jobs.length < request.maxGlobalJobs)
    (hholder : job.holder = request.holder) : Visits request job.project.id s (s.start job) := by
  have hheld : (s.start job).held = s.held ++ [job.project.id] := by
    simp [Progress.held, Progress.start]
  refine ⟨⟨?_, ?_, ?_⟩, rfl, .inr hheld⟩
  · rw [hheld, List.map_append, ← h.tracked, List.map_singleton, ← hholder]
    rfl
  · show (s.jobs ++ [job]).length ≤ request.maxGlobalJobs - s.activeAgentJobs
    rw [List.length_append, List.length_singleton]
    omega
  · show s.runsStarted + 1 = (s.jobs ++ [job]).length
    rw [List.length_append, List.length_singleton, h.started]

/-! ## Stages -/

theorem leaves_ite {c : Prop} [Decidable c] {p q : Scheduled α} {ok : α → World → Prop}
    (hp : Leaves request.holder base taken earned p ok) (hq : Leaves request.holder base taken earned q ok) :
    Leaves request.holder base taken earned (if c then p else q) ok := by
  by_cases hc : c
  · rw [if_pos hc]
    exact hp
  · rw [if_neg hc]
    exact hq

theorem leaves_useLease {acquiredAt expiresAt : String} :
    Leaves request.holder base (project.id :: taken) (project.id :: earned)
      (useLease request project scan selection session acquiredAt expiresAt)
      (Granted request base project.id taken earned) := by
  refine quiet_isSuspended.before fun suspended => ?_
  cases suspended with
  | true =>
    rw [if_pos rfl]
    refine leaves_through (fun _ => Account request.holder base taken (project.id :: earned)) ?_
      fun _ => triple_pure fun _ hw => hw.forget fun _ hp => List.mem_cons_of_mem _ hp
    exact leaves_release.mono (fun _ _ hw => hw)
      (fun _ _ hw => hw.mono fun _ hp => List.mem_cons_of_mem _ hp) fun _ _ => trivial
  | false =>
    rw [if_neg (by decide)]
    refine quiet_ask.attempt.before fun done => quiet_ask.attempt.before fun blocked => ?_
    exact triple_pure fun _ hw => ⟨⟨rfl, rfl⟩, hw⟩

theorem leaves_acquireLease :
    Leaves request.holder base taken earned (acquireLease request project) fun result =>
      Account request.holder base (after taken project.id result.1)
        (after earned project.id result.1) := by
  refine Triple.bind leaves_tryAcquire fun first => ?_
  rcases first with ⟨acquired, times⟩
  cases acquired with
  | true => exact triple_pure fun _ hw => hw
  | false =>
    have hnone : Leaves request.holder base taken earned
        (pure (false, times) : Scheduled (Bool × String × String)) fun result =>
          Account request.holder base (after taken project.id result.1)
        (after earned project.id result.1) :=
      triple_pure fun _ hw => hw
    refine quiet_read.before fun lease => ?_
    cases lease with
    | none => exact hnone
    | some lease =>
      refine quiet_tryReclaim.before fun reclaimed => ?_
      cases reclaimed with
      | false => exact hnone
      | true => exact leaves_tryAcquire

theorem leaves_acquireAgentJobStage :
    Leaves request.holder base taken earned (acquireAgentJobStage request project scan selection session)
      (Granted request base project.id taken earned) := by
  refine Quiet.before (quiet_asked fun _ _ _ => rfl) fun _ => ?_
  refine quiet_recheck.before fun selected => ?_
  cases selected with
  | false => exact triple_pure fun _ hw => hw
  | true =>
    refine Triple.bind leaves_acquireLease fun lease => ?_
    rcases lease with ⟨acquired, acquiredAt, expiresAt⟩
    cases acquired with
    | false => exact quiet_read.before fun lease => triple_pure fun _ hw => hw
    | true =>
      exact (leaves_underGuard [project.id] leaves_useLease).mono (fun _ _ hw => hw)
        (fun _ _ hw => hw.forget fun _ hp => List.mem_cons_of_mem _ hp) fun _ _ => trivial

theorem leaves_startJob {skips : Bool} (h : s.Tracks request) :
    Leaves request.holder base s.held s.held
      (startJob request s project scan selection session skips)
      (Visited request base project.id s) := by
  have hcounted : ∀ s' : Progress, s'.activeAgentJobs = s.activeAgentJobs → s'.jobs = s.jobs →
      s'.unstartedLeases = s.unstartedLeases → s'.runsStarted = s.runsStarted →
        Leaves request.holder base s.held s.held (pure s' : Scheduled Progress)
          (Visited request base project.id s) := by
    intro s' hactive hjobs hleases hstarted
    refine triple_pure fun w hw => ⟨h.visits hactive hjobs hleases hstarted, ?_⟩
    rwa [Progress.held, hjobs]
  unfold startJob
  by_cases hfull : request.maxGlobalJobs ≤ s.activeAgentJobs + s.jobs.length
  · rw [if_pos hfull]
    exact hcounted _ rfl rfl rfl rfl
  · rw [if_neg hfull]
    refine Triple.bind leaves_acquireAgentJobStage fun result => ?_
    cases result with
    | activeLease lease =>
      cases skips with
      | true => exact hcounted _ rfl rfl rfl rfl
      | false => exact hcounted _ rfl rfl rfl rfl
    | sessionSuspended => exact hcounted _ rfl rfl rfl rfl
    | acquired job acquiredAt expiresAt =>
      refine triple_pure ?_
      rintro w ⟨⟨hproject, hholder⟩, hw⟩
      let pending : Progress := { s with pendingProjects := s.pendingProjects + 1 }
      have htracks : pending.Tracks request := ⟨h.tracked, h.bounded, h.started⟩
      have hvisits : Visits request job.project.id pending (pending.start job) :=
        htracks.start (Nat.not_le.mp hfull) hholder
      have hvisited : Visits request job.project.id s (pending.start job) :=
        hvisits.after rfl rfl
      rw [hproject] at hvisited
      have hheld : (pending.start job).held = s.held ++ [job.project.id] := by
        simp [pending, Progress.held, Progress.start]
      refine ⟨hvisited, (hw.mono fun p hp => ?_).forget fun p hp => ?_⟩
      · rw [hheld, hproject]
        simpa [or_comm] using hp
      · rw [hheld, hproject] at hp
        simpa [or_comm] using hp

theorem leaves_supervise (h : s.Tracks request) :
    Leaves request.holder base s.held s.held (supervise request s project scan)
      (Supervised request base project.id s) := by
  have hstart : ∀ (selection : AgentTaskSelection) (session : Option String),
      Leaves request.holder base s.held s.held
        (some <$> startJob request s project scan selection session false)
        (Supervised request base project.id s) :=
    fun selection session => Triple.bind (leaves_startJob h) fun s' => triple_pure fun _ hw => hw
  refine quiet_ask.before fun gate => ?_
  cases gate with
  | normal => exact triple_pure fun _ hw => hw
  | hold message => exact triple_pure fun _ hw => ⟨.refl h, hw⟩
  | review => exact hstart _ _
  | retry session => exact hstart _ _

theorem quiet_eligibleWorking {backoff : Bool} (finalizations : List GitFinalization) :
    Quiet request.holder base (eligibleWorking project backoff finalizations) := by
  induction finalizations with
  | nil => exact quiet_pure
  | cons finalization rest ih =>
    refine quiet_ask.bind fun task => ?_
    cases task with
    | none => exact ih
    | some task =>
      refine Quiet.bind ?_ fun waits => ?_
      · exact quiet_ite quiet_ask quiet_pure
      · exact quiet_ite quiet_pure ih

theorem leaves_rereadProject {message : String} :
    Leaves request.holder base taken earned (rereadProject project message) fun found w =>
      found.id = project.id ∧ Account request.holder base taken earned w := by
  have hread : Leaves request.holder base taken earned
      (read fun db => db.projects.rows.find? fun p => p.id = project.id) fun found w =>
        (∀ p, found = some p → p.id = project.id) ∧ Account request.holder base taken earned w := by
    refine triple_step stable_account (fun _ _ => trivial) (fun i w found hw hok => ?_)
      fun i w e hw _ => ?_
    · dsimp only at hok ⊢
      by_cases hfails : i.fails = true
      · rw [if_pos hfails] at hok
        cases hok
      · rw [if_neg hfails] at hok ⊢
        cases hok
        exact ⟨fun p hp => by simpa using List.find?_some hp, hw⟩
    · cases i.fails <;> exact hw
  refine Triple.bind hread fun found => ?_
  cases found with
  | none => exact triple_fail fun _ hw => hw.2
  | some p => exact triple_pure fun w hw => ⟨hw.1 p rfl, hw.2⟩

theorem quiet_recovered {f : Reply → Option String} : Quiet request.holder base (recovered f) := by
  refine quiet_ask.attempt.bind fun result => ?_
  rcases result with e | found
  · exact quiet_pure
  · cases found with
    | none => exact quiet_pure
    | some message => exact quiet_pure

theorem leaves_settleFinalizations {existing : Option Lease} (h : s.Tracks request) :
    Leaves request.holder base s.held s.held (settleFinalizations s project existing)
      (Settles request base project.id s) := by
  refine quiet_read.before fun before => ?_
  refine (quiet_eachOf (fun g => quiet_ask.bind fun _ => quiet_pure) _).before fun _ => ?_
  refine (quiet_eachOf (fun _ => quiet_ask) _).before fun _ => ?_
  by_cases hempty : before.isEmpty = true
  · rw [if_pos hempty]
    exact triple_pure fun _ hw => ⟨rfl, hw⟩
  rw [if_neg hempty]
  refine quiet_ask.before fun leased => ?_
  cases leased with
  | false => exact quiet_read.before fun _ => triple_pure fun _ hw =>
      ⟨h.visits rfl rfl rfl rfl, hw⟩
  | true =>
    refine quiet_ask.attempt.before fun result => quiet_ask.attempt.before fun releasing => ?_
    refine quiet_rethrow.before fun found => quiet_rethrow.before fun _ => ?_
    refine quiet_read.before fun current => ?_
    rcases found with ⟨branch, finalizations⟩
    cases branch with
    | some session =>
      exact quiet_ask.attempt.before fun _ => triple_pure fun _ hw => ⟨.refl h, hw⟩
    | none =>
      refine leaves_through (fun found w =>
        found.id = project.id ∧ Account request.holder base s.held s.held w) ?_ fun found => ?_
      · by_cases hnone : (finalizations.filter fun g => g.state = .completed).isEmpty = true
        · rw [if_pos hnone]
          exact triple_pure fun _ hw => ⟨rfl, hw⟩
        · rw [if_neg hnone]
          exact (quiet_eachOf (fun _ => quiet_ask) _).before fun _ => leaves_rereadProject
      · refine Triple.of_fact fun hfound => ?_
        by_cases hpush : (finalizations.any fun g => g.state = .pushPending) = true
        · rw [if_pos hpush]
          exact quiet_ask.before fun _ => triple_pure fun _ hw => ⟨.refl h, hw⟩
        · rw [if_neg hpush]
          exact triple_pure fun _ hw => ⟨hfound, hw⟩

theorem quiet_sessionToResume {backoff : Bool} {finalizations : List GitFinalization} :
    Quiet request.holder base (sessionToResume project backoff finalizations) := by
  refine (quiet_eligibleWorking _).bind fun working => ?_
  split
  · exact quiet_ask.bind fun ready => quiet_pure
  · refine quiet_ask.bind fun found => ?_
    cases found with
    | some session => exact quiet_pure
    | none =>
      exact quiet_read.bind fun controls =>
        (quiet_controlsSuspendReadyWork controls).bind fun suspended => quiet_pure

theorem leaves_ordinaryWork {abandoned : List Int} {cooldowns : Nat × Nat}
    {existing : Option Lease} {finalizations : List GitFinalization} (h : s.Tracks request) :
    Leaves request.holder base s.held s.held
      (ordinaryWork request s project abandoned cooldowns existing scan finalizations)
      (Visited request base project.id s) := by
  have hleft : Leaves request.holder base s.held s.held (pure s : Scheduled Progress)
      (Visited request base project.id s) := triple_pure fun _ hw => ⟨.refl h, hw⟩
  refine quiet_sessionToResume.before fun resume => ?_
  cases resume with
  | none => exact hleft
  | some resume =>
    refine Quiet.before ?_ fun interrupted => Quiet.before ?_ fun resumable =>
      Quiet.before ?_ fun canWait => ?_
    · exact quiet_ite quiet_ask quiet_pure
    · exact quiet_ite quiet_ask quiet_pure
    · exact quiet_ite quiet_ask quiet_pure
    · dsimp only
      split
      · exact hleft
      · exact leaves_ite hleft (leaves_startJob h)

theorem leaves_visitBoard {abandoned : List Int} {cooldowns : Nat × Nat} (h : s.Tracks request) :
    Leaves request.holder base s.held s.held (visitBoard request s project abandoned cooldowns)
      (Visited request base project.id s) := by
  have hleft : Leaves request.holder base s.held s.held (pure s : Scheduled Progress)
      (Visited request base project.id s) := triple_pure fun _ hw => ⟨.refl h, hw⟩
  -- A project that was read again has the same number.
  have hgate : ∀ (again : Project) (scan : AgentProjectScan) (c : Prop) [Decidable c],
      again.id = project.id → Leaves request.holder base s.held s.held
        (if c then supervise request s again scan else pure none)
        (Supervised request base project.id s) := by
    intro again scan c _ hagain
    by_cases hc : c
    · rw [if_pos hc, ← hagain]
      exact leaves_supervise h
    · rw [if_neg hc]
      exact triple_pure fun _ hw => hw
  refine quiet_read.before fun _ => quiet_ask.before fun _ => quiet_read.before fun existing => ?_
  refine quiet_consult.before fun scan => quiet_ask.before fun retired => ?_
  refine leaves_through (fun found w =>
    found.id = project.id ∧ Account request.holder base s.held s.held w) ?_ fun again => ?_
  · by_cases hnone : retired = 0
    · rw [if_pos hnone]
      exact triple_pure fun _ hw => ⟨rfl, hw⟩
    · rw [if_neg hnone]
      exact leaves_rereadProject
  refine Triple.of_fact fun hagain => ?_
  refine quiet_recovered.before fun conflict => ?_
  cases conflict with
  | true => exact hleft
  | false =>
    refine quiet_recovered.before fun activation => ?_
    cases activation with
    | true => exact hleft
    | false =>
      refine quiet_read.before fun pending => ?_
      refine Triple.bind (hgate again scan _ hagain) fun supervised => ?_
      cases supervised with
      | some s' => exact triple_pure fun _ hw => hw
      | none =>
        refine Triple.bind (leaves_settleFinalizations h) fun settled => ?_
        cases settled with
        | done s' =>
          rw [← hagain]
          exact triple_pure fun _ hw => hw
        | goOn found existing finalizations =>
          refine Triple.of_fact fun hfound => ?_
          refine Triple.bind (hgate found scan _ (hfound.trans hagain)) fun supervised => ?_
          cases supervised with
          | some s' => exact triple_pure fun _ hw => hw
          | none =>
            rw [← hfound.trans hagain]
            exact leaves_ordinaryWork h

/-- A project that takes part in the pass. -/
def takesPart (durable : List Int) (project : Project) : Bool :=
  project.enabled && !durable.contains project.id

/-- The project was visited, and has no job unless it takes part. -/
def Attended (request : PassRequest) (base : Int → Prop) (durable : List Int) (project : Project)
    (s s' : Progress) (w : World) : Prop :=
  (Visits request project.id s s' ∧ (takesPart durable project = false → s'.held = s.held)) ∧
    Account request.holder base s'.held s'.held w

theorem leaves_visit {durable abandoned : List Int} {cooldowns : Nat × Nat}
    (h : s.Tracks request) :
    Leaves request.holder base s.held s.held (visit request s project durable abandoned cooldowns)
      (Attended request base durable project s) := by
  let scanned : Progress :=
    if project.enabled then { s with scannedProjects := s.scannedProjects + 1 } else s
  have hscanned : Visits request project.id s scanned ∧ scanned.held = s.held := by
    by_cases henabled : project.enabled = true
    · simp only [scanned, if_pos henabled]
      exact ⟨h.visits rfl rfl rfl rfl, rfl⟩
    · simp only [scanned, if_neg henabled]
      exact ⟨.refl h, trivial⟩
  have hcounted : Leaves request.holder base s.held s.held (pure scanned : Scheduled Progress)
      (Attended request base durable project s) :=
    triple_pure fun w hw => ⟨⟨hscanned.1, fun _ => hscanned.2⟩, hscanned.2 ▸ hw⟩
  have hleft : Leaves request.holder base s.held s.held (pure s : Scheduled Progress)
      (Attended request base durable project s) :=
    triple_pure fun w hw => ⟨⟨.refl h, fun _ => rfl⟩, hw⟩
  unfold visit
  by_cases hdurable : durable.contains project.id = true
  · rw [if_pos hdurable]
    exact hcounted
  rw [if_neg hdurable]
  by_cases henabled : project.enabled = true
  · rw [if_neg (by simp [henabled])]
    refine quiet_consult.before fun scan => quiet_ask.before fun _ => ?_
    refine leaves_ite hcounted ?_
    have hpart : takesPart durable project = true := by
      simp only [takesPart, henabled, Bool.eq_false_of_not_eq_true hdurable, Bool.not_false,
        Bool.and_self]
    have hboard : Leaves request.holder base scanned.held scanned.held
        (visitBoard request scanned project abandoned cooldowns)
        (Visited request base project.id scanned) := leaves_visitBoard hscanned.1.tracks
    rw [hscanned.2] at hboard
    refine hboard.of_ok fun s' w hw => ⟨⟨?_, fun hnot => ?_⟩, hw.2⟩
    · exact hw.1.after hscanned.2 hscanned.1.active
    · rw [hpart] at hnot
      cases hnot
  · rw [if_pos (by simpa using henabled)]
    refine quiet_read.before fun existing => quiet_ask.before fun _ => ?_
    cases existing with
    | none => exact hleft
    | some lease => exact quiet_tryReclaim.before fun _ => hleft

/-! ## The pass -/

theorem leaves_visitAll {durable abandoned : List Int} {cooldowns : Nat × Nat}
    (projects : List Project) (h : s.Tracks request) :
    Triple (Disturbs request.holder) (Account request.holder base s.held s.held)
      (visitAll request durable abandoned cooldowns projects s)
      (fun s' w => (s'.Tracks request ∧ s'.activeAgentJobs = s.activeAgentJobs ∧
        ∃ ids, s'.held = s.held ++ ids ∧
          ids.Sublist ((projects.filter (takesPart durable)).map Project.id)) ∧
            Account request.holder base s'.held s'.held w)
      (fun _ => Account request.holder base [] []) fun _ => True := by
  induction projects generalizing s with
  | nil =>
    exact triple_pure fun w hw => ⟨⟨h, rfl, [], (List.append_nil _).symm, List.nil_sublist _⟩, hw⟩
  | cons project rest ih =>
    have hvisit : Leaves request.holder base (s.held ++ []) s.held
        (visit request s project durable abandoned cooldowns)
        (Attended request base durable project s) := by
      rw [List.append_nil]
      exact leaves_visit h
    have hguarded := leaves_underGuard s.held hvisit
    rw [List.append_nil, ← h.tracked] at hguarded
    have hforgetful := hguarded.mono (fun _ _ hw => hw)
      (fun _ _ hw => hw.forget (List.nil_subset _)) fun _ _ => trivial
    refine Triple.bind hforgetful fun s' => Triple.of_fact fun hvisits => ?_
    refine (ih hvisits.1.tracks).of_ok ?_
    rintro s'' w ⟨⟨htracks, hactive, ids, hids, hsub⟩, hw⟩
    refine ⟨⟨htracks, hactive.trans hvisits.1.active, ?_⟩, hw⟩
    by_cases hpart : takesPart durable project = true
    · rw [List.filter_cons_of_pos hpart, List.map_cons]
      rcases hvisits.1.held with hheld | hheld
      · exact ⟨ids, by rw [hids, hheld], hsub.cons _⟩
      · exact ⟨project.id :: ids, by rw [hids, hheld, List.append_assoc, List.singleton_append],
          hsub.cons_cons _⟩
    · rw [List.filter_cons_of_neg hpart]
      exact ⟨ids, by rw [hids, hvisits.2 (Bool.eq_false_of_not_eq_true hpart)], hsub⟩

theorem nodup_ids (projects : Table Project) : (projects.rows.map Project.id).Nodup := by
  refine List.pairwise_map.mpr (projects.unique.imp fun hconflict heq => ?_)
  simp [Keyed.conflict, heq] at hconflict

/-- What a pass leaves when it returns. -/
structure Finished (request : PassRequest) (s : Progress) : Prop where
  tracks : s.Tracks request
  active : request.activeProjectIds.dedup.length ≤ s.activeAgentJobs
  nodup : s.held.Nodup
  inactive : ∀ p ∈ s.held, p ∉ request.activeProjectIds

theorem leaves_pass :
    Triple (Disturbs request.holder) (Account request.holder base [] [])
      (runAgentSchedulerPass request)
      (fun s w => Finished request s ∧ Account request.holder base s.held s.held w)
      (fun _ => Account request.holder base [] []) fun _ => True := by
  unfold runAgentSchedulerPass
  by_cases hzero : request.maxGlobalJobs = 0
  · rw [if_pos hzero]
    exact triple_fail fun _ hw => hw
  rw [if_neg hzero]
  refine Quiet.before (quiet_ite quiet_ask quiet_pure) fun _ => ?_
  refine quiet_ask.before fun workers => quiet_ask.before fun leased => ?_
  refine quiet_ask.before fun completed => ?_
  refine (quiet_eachOf (fun _ => quiet_ask) _).before fun _ => ?_
  refine quiet_ask.before fun abandoned => quiet_ask.before fun cooldowns => ?_
  refine leaves_through (fun projects w => (projects.map Project.id).Nodup ∧
    Account request.holder base [] [] w) ?_ fun projects => Triple.of_fact fun hnodup => ?_
  · refine triple_step stable_account (fun _ _ => trivial) (fun i w found hw hok => ?_)
      fun i w e hw _ => ?_
    · dsimp only at hok ⊢
      by_cases hfails : i.fails = true
      · rw [if_pos hfails] at hok
        cases hok
      · rw [if_neg hfails] at hok ⊢
        cases hok
        exact ⟨((List.mergeSort_perm _ _).map Project.id).nodup_iff.mpr (nodup_ids _), hw⟩
    · cases i.fails <;> exact hw
  · let durable := (workers ++ request.activeProjectIds).dedup
    let start : Progress := { activeAgentJobs := durable.length }
    have htracks : start.Tracks request := ⟨rfl, Nat.zero_le _, rfl⟩
    refine (leaves_visitAll projects htracks).of_ok ?_
    rintro s w ⟨⟨hs, hactive, ids, hids, hsub⟩, hw⟩
    have hheld : s.held = ids := hids
    refine ⟨⟨hs, ?_, ?_, fun p hp hrunning => ?_⟩, hw⟩
    · rw [hactive]
      refine List.Subperm.length_le (List.subperm_of_subset (List.nodup_dedup _) fun p hp => ?_)
      exact List.mem_dedup.mpr (List.mem_append_right _ (List.mem_dedup.mp hp))
    · rw [hheld]
      exact (hnodup.sublist (List.filter_sublist.map _)).sublist hsub
    · obtain ⟨project, hproject, rfl⟩ := List.mem_map.mp (hsub.subset (hheld ▸ hp))
      have hpart : takesPart durable project = true := (List.mem_filter.mp hproject).2
      have hdurable : durable.contains project.id = true :=
        List.contains_iff_mem.mpr (List.mem_dedup.mpr (List.mem_append_right _ hrunning))
      rw [takesPart, hdurable, Bool.not_true, Bool.and_false] at hpart
      cases hpart

/-! ## A pass -/

/-- A project whose board has a task that is ready. -/
def readyProject : Project where
  id := 1
  path := "p"
  enabled := true
  gitMode := .off
  lastRunAt := none
  lastSuccessAt := none
  lastFailureAt := none
  lastBlockedRecoveryAt := none
  failureCount := 0
  updatedAt := ""

def readyWorld : World where
  db := { Registry.empty with projects := ⟨[readyProject], List.pairwise_singleton _ _⟩ }
  log := []

/-- One job may run. -/
def readyRequest : PassRequest where
  holder := "clt-1"
  reclaimCurrentProcessLeases := false
  activeProjectIds := []
  maxGlobalJobs := 1
  hasCheckin := true
  now := 0
  os := ⟨true, 1, fun _ => some true, fun _ => some true, fun h => by cases h⟩
  nameOrder _ _ := true

/-- Nothing fails, nobody else moves, and the board has one task. -/
def readyFate : Fate Reply World :=
  ⟨fun _ w => w, fun _ => { scan := fun _ => AgentProjectScan.fromCounts 1 0 0 0 0 },
    fun _ => false⟩

/-- The jobs of a pass that returned. -/
def startedJobs : Ended String Progress → List Int
  | .returned s => s.held
  | _ => []

theorem readyFate_starts :
    startedJobs (runAgentSchedulerPass readyRequest readyFate 0 readyWorld).1 = [1] := by
  decide +kernel

/-! ## Main results -/

/-- Nothing has been logged yet. -/
theorem account_start (hlog : w.log = []) : Account request.holder (Holds request.holder w) [] [] w := by
  refine ⟨fun _ hp => .inl hp, fun p hp => ?_, fun _ hp => absurd hp List.not_mem_nil⟩
  rw [hlog] at hp
  cases hp

/-- Whatever happens during a pass, when it returns every job has been given its lease, and every
lease in the name of the scheduler is from before, is that of a job, or is one whose acquisition or
release failed. When it ends with an error, no lease of a job is left. -/
theorem leases_accounted (request : PassRequest) (w : World) (hlog : w.log = [])
    (fate : Fate Reply World) (hothers : ∀ t w, Disturbs request.holder w (fate.others t w)) :
    Meets
      (fun s after => (∀ p ∈ s.held, .acquired p ∈ after.log) ∧
        ∀ p, Holds request.holder after p →
          Holds request.holder w p ∨ p ∈ s.held ∨ .unsure p ∈ after.log)
      (fun _ after => ∀ p, Holds request.holder after p →
        Holds request.holder w p ∨ .unsure p ∈ after.log)
      (fun _ => True) (runAgentSchedulerPass request fate 0 w).1
      (runAgentSchedulerPass request fate 0 w).2.2 := by
  have hpass := leaves_pass fate hothers 0 w (account_start hlog)
  refine hpass.mono (fun s after hs => ⟨hs.2.earned, fun p hp => ?_⟩) (fun _ after hs p hp => ?_)
    fun _ _ => trivial
  · rcases hs.2.held p hp with hbase | htaken | hunsure
    · exact .inl hbase
    · exact .inr (.inl (hs.2.taken p htaken))
    · exact .inr (.inr hunsure)
  · rcases hs.held p hp with hbase | htaken | hunsure
    · exact .inl hbase
    · exact absurd (hs.taken p htaken) List.not_mem_nil
    · exact .inr hunsure

theorem leases_accounted_ready :
    startedJobs (runAgentSchedulerPass readyRequest readyFate 0 readyWorld).1 = [1] ∧ Meets
      (fun s after => (∀ p ∈ s.held, .acquired p ∈ after.log) ∧
        ∀ p, Holds readyRequest.holder after p →
          Holds readyRequest.holder readyWorld p ∨ p ∈ s.held ∨ .unsure p ∈ after.log)
      (fun _ after => ∀ p, Holds readyRequest.holder after p →
        Holds readyRequest.holder readyWorld p ∨ .unsure p ∈ after.log)
      (fun _ => True) (runAgentSchedulerPass readyRequest readyFate 0 readyWorld).1
      (runAgentSchedulerPass readyRequest readyFate 0 readyWorld).2.2 :=
  ⟨readyFate_starts, leases_accounted readyRequest readyWorld rfl readyFate
    fun _ _ => ⟨rfl, fun _ hp => hp⟩⟩

end Clt.Scheduler
