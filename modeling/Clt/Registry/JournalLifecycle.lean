import Clt.Registry.Frame

/-!
# The life of a Git journal

`JournalEffect` says once what a call can do to the journals: nothing, add a fresh
row, write the one row whose generation its caller holds (by the compare-and-set
or by a cancellation), or acknowledge completed rows. `RegistryOp.journalEffect`
shows that every call does one of these. Everything that is proved about runs
follows from it:

- `GitFinalization.Sound`: the columns a row has by the time it is in its state,
- `GitFinalization.Evolves`: what a row keeps for good,
- `GitFinalization.Follows`: what one call does to a row,
- of two writes that hold the same generation, one takes effect.
-/

namespace Clt

open Relational Registry

/-! ## Rows -/

namespace GitFinalization

/-- What `checkTransition` admits. -/
structure Admits (g : GitFinalization) (next : GitFinalizationState)
    (taskIdentity commitOid : Option String) : Prop where
  transition : g.state.canTransitionTo next = true
  push : next = .pushPending → g.gitMode = .commitAndPush
  identity : sqlNe g.taskIdentity taskIdentity = false
  hasIdentity : next.isFinalizing = true → (taskIdentity.or g.taskIdentity).isSome
  commit : sqlNe g.commitOid commitOid = false
  hasCommit : next = .pushPending ∨ next = .completed → (commitOid.or g.commitOid).isSome
  finished : next = .completed → g.gitMode = .commitAndPush → g.state = .pushPending

theorem admits_of_checkTransition {g : GitFinalization} {next : GitFinalizationState}
    {taskIdentity commitOid : Option String}
    (h : checkTransition g next taskIdentity commitOid = .ok ()) :
    g.Admits next taskIdentity commitOid := by
  unfold checkTransition at h
  simp only [require_bind_eq_ok, require_eq_ok] at h
  obtain ⟨h1, h2, h3, h4, h5, h6, h7⟩ := h
  refine ⟨h1, ?_, ?_, ?_, ?_, ?_, ?_⟩
  · rintro rfl
    simpa using h2
  · simpa using h3
  · intro hnext
    rw [hnext] at h4
    cases ho : taskIdentity.or g.taskIdentity with
    | none => simp [ho] at h4
    | some i => rfl
  · simpa using h5
  · intro hnext
    cases ho : commitOid.or g.commitOid with
    | none => rcases hnext with rfl | rfl <;> simp [ho] at h6
    | some o => rfl
  · rintro rfl hmode
    simp only [hmode] at h7
    simpa using h7

/-- A row and the row that a write makes of it: the compare-and-set moves it on, or
a cancellation ends it. -/
inductive Writes (g : GitFinalization) : GitFinalization → Prop where
  | advance {next : GitFinalizationState}
      {taskIdentity worktreeBaseline ownerRunToken commitOid lastError : Option String}
      {updatedAt : String} (h : g.Admits next taskIdentity commitOid) :
      Writes g (g.advance next taskIdentity worktreeBaseline ownerRunToken commitOid lastError
        updatedAt)
  | cancel {reason updatedAt : String} (h : g.state ≠ .completed) :
      Writes g (g.cancel reason updatedAt)

/-- The columns an acknowledgement writes. -/
def acknowledge (acknowledgedAt : Option String) (acknowledgedRunId : Option Int)
    (g : GitFinalization) : GitFinalization :=
  { g with acknowledgedAt := acknowledgedAt, acknowledgedRunId := acknowledgedRunId }

/-- The columns a row has by the time it is in its state. -/
structure Sound (g : GitFinalization) : Prop where
  taskIdentity : g.state.isFinalizing = true ∨ g.state = .completed → g.taskIdentity.isSome
  commitOid : g.state = .pushPending ∨ g.state = .completed → g.commitOid.isSome
  push : g.state = .pushPending → g.gitMode = .commitAndPush

theorem Sound.of_idle {g : GitFinalization} (h1 : ¬ g.state.isFinalizing = true)
    (h2 : g.state ≠ .completed) : g.Sound := by
  have h3 : g.state ≠ .pushPending := fun h => h1 (by rw [h]; rfl)
  refine ⟨fun hs => ?_, fun hs => ?_, fun hs => absurd hs h3⟩
  · exact absurd hs (not_or.mpr ⟨h1, h2⟩)
  · exact absurd hs (not_or.mpr ⟨h3, h2⟩)

/-- `g` is a later version of the journal `e`. -/
structure Evolves (e g : GitFinalization) : Prop where
  project : g.projectId = e.projectId
  session : g.codexSessionId = e.codexSessionId
  gitMode : g.gitMode = e.gitMode
  startingHead : g.startingHead = e.startingHead
  taskIdentity : ∀ i, e.taskIdentity = some i → g.taskIdentity = some i
  commitOid : ∀ o, e.commitOid = some o → g.commitOid = some o
  generation : e.generation ≤ g.generation
  completed : e.state = .completed → g.state = .completed
  cancelled : e.state = .cancelled → g.state = .cancelled

/-- What one call makes of a row: the same row up to its acknowledgement, or one of
the next generation. -/
def Follows (e g : GitFinalization) : Prop :=
  g = e.acknowledge g.acknowledgedAt g.acknowledgedRunId ∨ g.generation = e.generation + 1

theorem Evolves.refl (g : GitFinalization) : g.Evolves g :=
  ⟨rfl, rfl, rfl, rfl, fun _ h => h, fun _ h => h, Int.le_refl _, id, id⟩

theorem Evolves.trans {a b c : GitFinalization} (h : a.Evolves b) (k : b.Evolves c) :
    a.Evolves c where
  project := k.project.trans h.project
  session := k.session.trans h.session
  gitMode := k.gitMode.trans h.gitMode
  startingHead := k.startingHead.trans h.startingHead
  taskIdentity i hi := k.taskIdentity i (h.taskIdentity i hi)
  commitOid o ho := k.commitOid o (h.commitOid o ho)
  generation := Int.le_trans h.generation k.generation
  completed hc := k.completed (h.completed hc)
  cancelled hc := k.cancelled (h.cancelled hc)

theorem Follows.refl (g : GitFinalization) : g.Follows g := .inl rfl

/-- A column that may only be set, and set to one value. -/
private theorem or_eq_some_of_sqlNe {a b : Option String} (h : sqlNe a b = false) {x : String}
    (ha : a = some x) : b.or a = some x := by
  subst ha
  cases b with
  | none => rfl
  | some y =>
    have : x = y := by simpa [sqlNe] using h
    rw [this]
    rfl

namespace Writes

variable {g g' : GitFinalization}

theorem generation (h : g.Writes g') : g'.generation = g.generation + 1 := by
  cases h <;> rfl

theorem sound (h : g.Writes g') (hg : g.Sound) : g'.Sound := by
  cases h with
  | cancel h => exact .of_idle (fun hs => nomatch hs) (fun hs => nomatch hs)
  | @advance next taskIdentity _ _ commitOid _ _ h =>
    refine ⟨fun hs => ?_, fun hs => h.hasCommit hs, fun hs => h.push hs⟩
    show (g.taskIdentity.or taskIdentity).isSome
    rcases hs with hs | hs
    · have := h.hasIdentity hs
      rw [Option.isSome_or] at this ⊢
      rwa [Bool.or_comm]
    · -- A row is completed from a state that already had an identity.
      have hfrom : g.state.isFinalizing = true := by
        have ht := h.transition
        cases hst : g.state <;> cases hs <;> rw [hst] at ht <;> first | rfl | cases ht
      rw [Option.isSome_or, hg.taskIdentity (.inl hfrom)]
      rfl

theorem evolves (h : g.Writes g') : g.Evolves g' := by
  have hgen : g.generation ≤ g'.generation := by
    rw [h.generation]
    omega
  cases h with
  | cancel h =>
    exact ⟨rfl, rfl, rfl, rfl, fun _ h => h, fun _ h => h, hgen, fun hc => absurd hc h,
      fun _ => rfl⟩
  | @advance next taskIdentity _ _ commitOid _ _ h =>
    -- The compare-and-set does not admit a terminal row.
    have hopen : g.state ≠ .completed ∧ g.state ≠ .cancelled := by
      have ht := h.transition
      constructor <;> intro hst <;> rw [hst] at ht <;> cases ht
    refine ⟨rfl, rfl, rfl, rfl, fun i hi => ?_, fun o ho => or_eq_some_of_sqlNe h.commit ho,
      hgen, fun hc => absurd hc hopen.1, fun hc => absurd hc hopen.2⟩
    show g.taskIdentity.or taskIdentity = some i
    rw [hi]
    rfl

/-- A commit-and-push journal is completed from `push_pending`. -/
theorem pushed (h : g.Writes g') (hdone : g'.state = .completed)
    (hmode : g'.gitMode = .commitAndPush) : g.state = .pushPending := by
  cases h with
  | cancel h => cases hdone
  | advance h => exact h.finished hdone hmode

end Writes

end GitFinalization

/-- The fresh row of a new journal satisfies the row invariant. -/
theorem NewGitFinalization.toRow_sound (n : NewGitFinalization) : n.toRow.Sound :=
  .of_idle (fun hs => nomatch hs) (fun hs => nomatch hs)

/-! ## What a call does to the journals -/

/-- A generation that a caller holds: project, session and generation. -/
structure HeldJournal where
  projectId : Int
  codexSessionId : String
  generation : Int
  deriving DecidableEq

/-- The row whose generation is held. -/
def HeldJournal.Names (k : HeldJournal) (g : GitFinalization) : Prop :=
  g.is k.projectId k.codexSessionId = true ∧ g.generation = k.generation

/-- What a call whose caller holds the generation `held` does to the journals. -/
inductive JournalEffect (held : Option HeldJournal) (t : Table GitFinalization) :
    Table GitFinalization → Prop where
  | unchanged : JournalEffect held t t
  | created {t' : Table GitFinalization} (n : NewGitFinalization) (hheld : held = none)
      (hrows : t'.rows = t.rows ++ [n.toRow]) : JournalEffect held t t'
  | written {t' : Table GitFinalization} (k : HeldJournal) (P : GitFinalization → Bool)
      (f : GitFinalization → GitFinalization) (hheld : held = some k)
      (hrows : t'.rows = t.rows.map (Table.rewrite P f))
      (hwrites : ∀ g ∈ t, P g = true → k.Names g ∧ g.Writes (f g)) : JournalEffect held t t'
  | acknowledged {t' : Table GitFinalization} (P : GitFinalization → Bool)
      (acknowledgedAt : Option String) (acknowledgedRunId : Option Int) (hheld : held = none)
      (hrows : t'.rows = t.rows.map
        (Table.rewrite P (GitFinalization.acknowledge acknowledgedAt acknowledgedRunId))) :
      JournalEffect held t t'

namespace JournalEffect

variable {held : Option HeldJournal} {t t' : Table GitFinalization}

/-- A row after the call was there before, or is fresh. -/
theorem origin (h : JournalEffect held t t') {g : GitFinalization} (hg : g ∈ t') :
    (∃ n : NewGitFinalization, g = n.toRow) ∨
    ∃ e ∈ t, e.Writes g ∨ g = e.acknowledge g.acknowledgedAt g.acknowledgedRunId := by
  cases h with
  | unchanged => exact .inr ⟨g, hg, .inr rfl⟩
  | created n _ hrows =>
    rw [Table.mem_def, hrows, List.mem_append] at hg
    rcases hg with hg | hg
    · exact .inr ⟨g, hg, .inr rfl⟩
    · exact .inl ⟨n, List.mem_singleton.mp hg⟩
  | written k P f _ hrows hwrites =>
    rw [Table.mem_def, hrows] at hg
    obtain ⟨e, he, rfl⟩ := List.mem_map.mp hg
    refine .inr ⟨e, he, ?_⟩
    unfold Table.rewrite
    split
    · rename_i hP
      exact .inl (hwrites e he hP).2
    · exact .inr rfl
  | acknowledged P at_ runId _ hrows =>
    rw [Table.mem_def, hrows] at hg
    obtain ⟨e, he, rfl⟩ := List.mem_map.mp hg
    refine .inr ⟨e, he, .inr ?_⟩
    unfold Table.rewrite
    split <;> rfl

/-- A row before the call is still there, moved on at most. -/
theorem successor (h : JournalEffect held t t') {e : GitFinalization} (he : e ∈ t) :
    ∃ g ∈ t', e.Evolves g ∧ e.Follows g := by
  cases h with
  | unchanged => exact ⟨e, he, .refl e, .refl e⟩
  | created n _ hrows =>
    refine ⟨e, ?_, .refl e, .refl e⟩
    rw [Table.mem_def, hrows]
    exact List.mem_append_left _ he
  | written k P f _ hrows hwrites =>
    refine ⟨Table.rewrite P f e, ?_, ?_⟩
    · rw [Table.mem_def, hrows]
      exact List.mem_map_of_mem he
    · unfold Table.rewrite
      split
      · rename_i hP
        have hw := (hwrites e he hP).2
        exact ⟨hw.evolves, .inr hw.generation⟩
      · exact ⟨.refl e, .refl e⟩
  | acknowledged P at_ runId _ hrows =>
    refine ⟨Table.rewrite P (GitFinalization.acknowledge at_ runId) e, ?_, ?_⟩
    · rw [Table.mem_def, hrows]
      exact List.mem_map_of_mem he
    · unfold Table.rewrite
      split
      · exact ⟨⟨rfl, rfl, rfl, rfl, fun _ h => h, fun _ h => h, Int.le_refl _, id, id⟩, .inl rfl⟩
      · exact ⟨.refl e, .refl e⟩

/-- A call whose caller holds a generation writes the row it names, or nothing. -/
theorem of_held {k : HeldJournal} (h : JournalEffect (some k) t t') :
    t' = t ∨ ∃ P f, t'.rows = t.rows.map (Table.rewrite P f) ∧
      ∀ g ∈ t, P g = true → k.Names g ∧ g.Writes (f g) := by
  cases h with
  | unchanged => exact .inl rfl
  | created _ hheld => cases hheld
  | written k' P f hheld hrows hwrites =>
    cases hheld
    exact .inr ⟨P, f, hrows, hwrites⟩
  | acknowledged _ _ _ hheld => cases hheld

/-- The row invariant survives every call. -/
theorem sound (h : JournalEffect held t t') (ht : ∀ g ∈ t, g.Sound) : ∀ g ∈ t', g.Sound := by
  intro g hg
  rcases h.origin hg with ⟨n, rfl⟩ | ⟨e, he, hw | heq⟩
  · exact n.toRow_sound
  · exact hw.sound (ht e he)
  · rw [heq]
    exact ⟨(ht e he).taskIdentity, (ht e he).commitOid, (ht e he).push⟩

/-- An insert of a fresh journal. -/
theorem of_insertOrIgnore {db : Registry} {projectId : Int} {n : NewGitFinalization}
    {res : Table GitFinalization × Nat}
    (h : db.insertOrIgnoreInto projectId t n.toRow = some res) : JournalEffect none t res.1 := by
  rw [insertOrIgnoreInto_eq_some h]
  obtain ⟨-, he⟩ | ⟨hn, he⟩ := Table.insertOrIgnore_cases t n.toRow
  · rw [he]
    exact .unchanged
  · rw [he]
    exact .created n rfl rfl

/-- A cancellation of the held generation. -/
theorem of_cancel {k : HeldJournal} {P : GitFinalization → Bool} {reason updatedAt : String}
    (h : ∀ g ∈ t, P g = true → k.Names g ∧ g.state ≠ .completed) :
    JournalEffect (some k) t (t.update P (GitFinalization.cancel reason updatedAt)
      (GitFinalization.cancel_compatible _ _ _)) :=
  .written k P _ rfl rfl fun g hg hP => ⟨(h g hg hP).1, .cancel (h g hg hP).2⟩

end JournalEffect

/-! ## One lemma per journal-writing call -/

namespace Registry

variable {db : Registry}

/-- A transaction whose body has an effect on the journals has it, or none. -/
theorem transaction_journalEffect {α : Type} {held : Option HeldJournal}
    {body : Step α (α × Registry)}
    (h : ∀ a db', body = .ok (a, db') →
      JournalEffect held db.gitFinalizations db'.gitFinalizations) :
    JournalEffect held db.gitFinalizations (db.transaction body).db.gitFinalizations :=
  transaction_db (P := fun db' => JournalEffect held db.gitFinalizations db'.gitFinalizations)
    .unchanged h

theorem createGitFinalization_journalEffect (n : NewGitFinalization) :
    JournalEffect none db.gitFinalizations (db.createGitFinalization n).db.gitFinalizations := by
  refine transaction_journalEffect fun a db' h => ?_
  simp only [require_bind_eq_ok, fetch_bind_eq_ok] at h
  obtain ⟨-, -, -, _, hins, ⟨⟩⟩ := h
  exact .of_insertOrIgnore hins

theorem enableSessionGit_journalEffect (journal : NewGitFinalization)
    (leaseHolder now : String) :
    JournalEffect none db.gitFinalizations
      (db.enableSessionGit journal leaseHolder now).db.gitFinalizations := by
  refine transaction_journalEffect fun a db' h => ?_
  simp only [require_bind_eq_ok, fetch_bind_eq_ok] at h
  obtain ⟨-, -, _, hins, ⟨⟩⟩ := h
  exact .created journal rfl (Table.insert?_eq_some (insertInto_eq_some hins)).2

theorem createLaunchJournal_journalEffect {projectId : Int} {codexSessionId runToken : String}
    {mode : AgentGitMode} {createdAt : String} {res : Table GitFinalization × Nat}
    (h : db.createLaunchJournal projectId codexSessionId runToken mode createdAt = .ok res) :
    JournalEffect none db.gitFinalizations res.1 := by
  unfold createLaunchJournal at h
  split at h
  · cases h
    exact .unchanged
  · rw [fetch_eq_ok] at h
    exact .of_insertOrIgnore h

theorem markSessionRunning_journalEffect (projectId : Int) (codexSessionId : String)
    (childPid : Nat) (runToken stdoutPath stderrPath : String) (gitMode : Option AgentGitMode)
    (now createdAt : String) :
    JournalEffect none db.gitFinalizations
      (db.markSessionRunning projectId codexSessionId childPid runToken stdoutPath stderrPath
        gitMode now createdAt).db.gitFinalizations := by
  refine transaction_journalEffect fun a db' h => ?_
  simp only [require_bind_eq_ok] at h
  obtain ⟨-, -, -, h⟩ := h
  obtain ⟨registered, hreg, ⟨⟩⟩ := step_bind_eq_ok.mp h
  show JournalEffect none db.gitFinalizations registered.gitFinalizations
  unfold registerGitMode at hreg
  split at hreg
  · cases hreg
    exact .unchanged
  · simp only [require_bind_eq_ok, fetch_bind_eq_ok] at hreg
    obtain ⟨_, -, -, hreg⟩ := hreg
    split at hreg
    · obtain ⟨-, ⟨⟩⟩ := require_bind_eq_ok.mp hreg
      exact .unchanged
    · obtain ⟨res, hres, hreg⟩ := step_bind_eq_ok.mp hreg
      obtain ⟨-, hreg⟩ := require_bind_eq_ok.mp hreg
      have heffect := createLaunchJournal_journalEffect hres
      split at hreg
      · obtain ⟨-, ⟨⟩⟩ := require_bind_eq_ok.mp hreg
        exact heffect
      · cases hreg
        exact heffect

/-- The compare-and-set writes the row it read, if its transition is admitted. -/
theorem compareAndSetGitFinalization_journalEffect (projectId : Int) (codexSessionId : String)
    (expectedGeneration : Int) (nextState : GitFinalizationState)
    (taskIdentity worktreeBaseline : Option String) (requireRunningOwner : Bool)
    (ownerRunToken commitOid lastError : Option String) (updatedAt : String) :
    JournalEffect (some ⟨projectId, codexSessionId, expectedGeneration⟩) db.gitFinalizations
      (db.compareAndSetGitFinalization projectId codexSessionId expectedGeneration nextState
        taskIdentity worktreeBaseline requireRunningOwner ownerRunToken commitOid lastError
        updatedAt).db.gitFinalizations := by
  refine transaction_journalEffect fun a db' h => ?_
  simp only [require_bind_eq_ok, fetch_bind_eq_ok, attempt_bind_eq_ok] at h
  obtain ⟨row, hrow, current, hcur, -, h⟩ := h
  obtain ⟨-, -, h⟩ := step_bind_eq_ok.mp h
  obtain ⟨_, hadmit, h⟩ := step_bind_eq_ok.mp h
  simp only [require_bind_eq_ok, fetch_bind_eq_ok] at h
  obtain ⟨journals, hupdate, -, ⟨⟩⟩ := h
  obtain ⟨-, rfl⟩ := GitFinalization.recordFromRow_eq_ok.mp hcur
  refine .written _ _ _ rfl (Table.update?_eq_some hupdate) fun g hg hP => ?_
  rw [Bool.and_eq_true, beq_iff_eq] at hP
  refine ⟨hP, ?_⟩
  rw [eq_of_journal? hrow hg hP.1]
  exact .advance (GitFinalization.admits_of_checkTransition hadmit)

theorem beginMissingGitRecovery_journalEffect (q : MissingGitRecovery) :
    JournalEffect
      (q.expectedJournal.map fun e => ⟨q.projectId, q.sessionId, e.generation⟩)
      db.gitFinalizations (db.beginMissingGitRecovery q).db.gitFinalizations := by
  refine transaction_journalEffect fun a db' h => ?_
  obtain ⟨-, h⟩ := require_bind_eq_ok.mp h
  obtain ⟨_, hcheck, h⟩ := step_bind_eq_ok.mp h
  obtain ⟨-, h⟩ := require_bind_eq_ok.mp h
  obtain ⟨-, -, h⟩ := step_bind_eq_ok.mp h
  obtain ⟨-, -, h⟩ := step_bind_eq_ok.mp h
  obtain ⟨-, -, h⟩ := step_bind_eq_ok.mp h
  simp only [require_bind_eq_ok, fetch_bind_eq_ok] at h
  obtain ⟨-, _, -, ⟨⟩⟩ := h
  dsimp only
  split
  · rename_i hretires
    unfold MissingGitRecovery.checkJournal at hcheck
    unfold MissingGitRecovery.retiresJournal at hretires
    cases he : q.expectedJournal with
    | none =>
      rw [he] at hretires
      cases hretires
    | some e =>
      rw [he] at hcheck
      simp only [attempt_bind_eq_ok, require_eq_ok, Bool.and_eq_true, beq_iff_eq] at hcheck
      obtain ⟨_, hread, rfl, hstate⟩ := hcheck
      refine .of_cancel fun g hg hP => ?_
      obtain rfl := eq_of_journal? (of_readJournal hread) hg hP
      refine ⟨⟨hP, rfl⟩, fun hdone => ?_⟩
      simp [MissingGitRecovery.journalRetirable, hdone] at hstate
  · exact .unchanged

theorem cancelOrphanedWorkingGitFinalization_journalEffect (expected : GitFinalization)
    (finalizerHolder reason updatedAt now : String) :
    JournalEffect
      (some ⟨expected.projectId, expected.codexSessionId, expected.generation⟩)
      db.gitFinalizations
      (db.cancelOrphanedWorkingGitFinalization expected finalizerHolder reason updatedAt
        now).db.gitFinalizations := by
  refine transaction_journalEffect fun a db' h => ?_
  simp only [require_bind_eq_ok, fetch_bind_eq_ok, attempt_bind_eq_ok] at h
  obtain ⟨_, -, _, -, -, -, -, -, ⟨⟩⟩ := h
  refine .of_cancel fun g _ hP => ?_
  simp only [Bool.and_eq_true, decide_eq_true_eq, beq_iff_eq] at hP
  exact ⟨⟨hP.1.1.1.1.1, hP.1.1.1.2⟩, by rw [hP.1.1.1.1.2]; rintro ⟨⟩⟩

theorem retireAbandonedUnboundGitFinalization_journalEffect (projectId : Int)
    (codexSessionId : String) (expectedGeneration : Int) (completedTask : Bool)
    (reason updatedAt : String) :
    JournalEffect (some ⟨projectId, codexSessionId, expectedGeneration⟩) db.gitFinalizations
      (db.retireAbandonedUnboundGitFinalization projectId codexSessionId expectedGeneration
        completedTask reason updatedAt).db.gitFinalizations := by
  refine transaction_journalEffect fun a db' h => ?_
  obtain ⟨-, ⟨⟩⟩ := require_bind_eq_ok.mp h
  refine .of_cancel fun g _ hP => ?_
  simp only [Bool.and_eq_true, decide_eq_true_eq, beq_iff_eq] at hP
  exact ⟨⟨hP.1.1, hP.2⟩, by rw [hP.1.2]; nofun⟩

theorem retireSupersededWorkingGitFinalization_journalEffect
    (expected completed : GitFinalization) (updatedAt : String) :
    JournalEffect
      (some ⟨expected.projectId, expected.codexSessionId, expected.generation⟩)
      db.gitFinalizations
      (db.retireSupersededWorkingGitFinalization expected completed
        updatedAt).db.gitFinalizations := by
  refine transaction_journalEffect fun a db' h => ?_
  simp only [require_bind_eq_ok, attempt_bind_eq_ok, beq_iff_eq] at h
  obtain ⟨hsup, _, hread, rfl, _, -, -, -, ⟨⟩⟩ := h
  refine .of_cancel fun g hg hP => ?_
  obtain rfl := eq_of_journal? (of_readJournal hread) hg hP
  refine ⟨⟨hP, rfl⟩, fun hdone => ?_⟩
  simp [supersedes, hdone] at hsup

theorem cancelJournal_journalEffect {projectId : Int} {codexSessionId : String}
    {expectedGeneration : Int} {taskIdentity : Option String} {acquiredAt : String}
    {cancellation : GitTaskCancellation} {leases : Table Lease} {a : Bool} {db' : Registry}
    (h : db.cancelJournal projectId codexSessionId expectedGeneration taskIdentity acquiredAt
      cancellation leases = .ok (a, db')) :
    JournalEffect (some ⟨projectId, codexSessionId, expectedGeneration⟩) db.gitFinalizations
      db'.gitFinalizations := by
  have hnames : ∀ g ∈ db.gitFinalizations,
      cancellable projectId codexSessionId expectedGeneration taskIdentity g = true →
      HeldJournal.Names ⟨projectId, codexSessionId, expectedGeneration⟩ g ∧
        g.state ≠ .completed := by
    intro g _ hP
    simp only [cancellable, Bool.and_eq_true, decide_eq_true_eq, beq_iff_eq] at hP
    exact ⟨⟨hP.1.1.1, hP.1.2⟩, by rw [hP.1.1.2]; nofun⟩
  unfold cancelJournal at h
  obtain ⟨-, h⟩ := require_bind_eq_ok.mp h
  cases cancellation <;> cases h <;> exact .of_cancel hnames

theorem cancelIdleWorkingGitFinalization_journalEffect (projectId : Int)
    (codexSessionId : String) (expectedGeneration : Int) (taskIdentity : Option String)
    (leaseHolder acquiredAt expiresAt : String) (cancellation : GitTaskCancellation) :
    JournalEffect (some ⟨projectId, codexSessionId, expectedGeneration⟩) db.gitFinalizations
      (db.cancelIdleWorkingGitFinalization projectId codexSessionId expectedGeneration
        taskIdentity leaseHolder acquiredAt expiresAt cancellation).db.gitFinalizations := by
  refine transaction_journalEffect fun a db' h => ?_
  split at h
  · exact cancelJournal_journalEffect h
  · simp only [require_bind_eq_ok] at h
    obtain ⟨-, -, -, -, h⟩ := h
    obtain ⟨_, -, h⟩ := step_bind_eq_ok.mp h
    split at h
    · exact cancelJournal_journalEffect h
    · cases h
      exact .unchanged

theorem acknowledgeCompletedGitFinalizationSession_journalEffect (projectId : Int)
    (codexSessionId acknowledgedAt : String) :
    JournalEffect none db.gitFinalizations
      (db.acknowledgeCompletedGitFinalizationSession projectId codexSessionId
        acknowledgedAt).db.gitFinalizations := by
  refine transaction_journalEffect fun a db' h => ?_
  obtain ⟨_, -, h⟩ := fetch_bind_eq_ok.mp h
  obtain ⟨_, -, h⟩ := fetch_bind_eq_ok.mp h
  split at h
  · cases h
    exact .unchanged
  · obtain ⟨_, -, h⟩ := step_bind_eq_ok.mp h
    obtain ⟨-, ⟨⟩⟩ := require_bind_eq_ok.mp h
    exact .acknowledged _ _ _ rfl rfl

end Registry

/-- The generation that the caller of a call holds. -/
def RegistryOp.heldJournal : RegistryOp → Option HeldJournal
  | .compareAndSetGitFinalizationBlocking projectId codexSessionId expectedGeneration ..
  | .compareAndSetOwnedGitFinalization projectId codexSessionId expectedGeneration ..
  | .compareAndSetGitFinalizationWithIdentity projectId codexSessionId expectedGeneration ..
  | .trackGitFinalizationWithManifest projectId codexSessionId expectedGeneration ..
  | .resealGitFinalizationManifest projectId codexSessionId expectedGeneration ..
  | .recoverGitFinalizationIntent projectId codexSessionId expectedGeneration ..
  | .retireAbandonedUnboundGitFinalization projectId codexSessionId expectedGeneration ..
  | .cancelIdleWorkingGitFinalization projectId codexSessionId expectedGeneration .. =>
    some ⟨projectId, codexSessionId, expectedGeneration⟩
  | .beginMissingGitRecovery q =>
    q.expectedJournal.map fun e => ⟨q.projectId, q.sessionId, e.generation⟩
  | .cancelOrphanedWorkingGitFinalization expected .. =>
    some ⟨expected.projectId, expected.codexSessionId, expected.generation⟩
  | .retireSupersededWorkingGitFinalization expected .. =>
    some ⟨expected.projectId, expected.codexSessionId, expected.generation⟩
  | _ => none

/-- A call that does not write the journals leaves them as they are. -/
theorem JournalEffect.of_frame {held : Option HeldJournal} {op : RegistryOp} {db : Registry}
    (h : op.writes.gitFinalizations = false) :
    JournalEffect held db.gitFinalizations (op.apply db).gitFinalizations := by
  rw [(op.apply_frame db).gitFinalizations h]
  exact .unchanged

/-- Every call does to the journals what `JournalEffect` says. -/
theorem RegistryOp.journalEffect (op : RegistryOp) (db : Registry) :
    JournalEffect op.heldJournal db.gitFinalizations (op.apply db).gitFinalizations := by
  cases op with
  | createGitFinalization => exact createGitFinalization_journalEffect ..
  | enableSessionGit => exact enableSessionGit_journalEffect ..
  | markSessionRunning => exact markSessionRunning_journalEffect ..
  | compareAndSetGitFinalizationBlocking => exact compareAndSetGitFinalization_journalEffect ..
  | compareAndSetOwnedGitFinalization => exact compareAndSetGitFinalization_journalEffect ..
  | compareAndSetGitFinalizationWithIdentity =>
    exact compareAndSetGitFinalization_journalEffect ..
  | trackGitFinalizationWithManifest => exact compareAndSetGitFinalization_journalEffect ..
  | resealGitFinalizationManifest => exact compareAndSetGitFinalization_journalEffect ..
  | recoverGitFinalizationIntent => exact compareAndSetGitFinalization_journalEffect ..
  | beginMissingGitRecovery => exact beginMissingGitRecovery_journalEffect ..
  | cancelOrphanedWorkingGitFinalization =>
    exact cancelOrphanedWorkingGitFinalization_journalEffect ..
  | retireAbandonedUnboundGitFinalization =>
    exact retireAbandonedUnboundGitFinalization_journalEffect ..
  | retireSupersededWorkingGitFinalization =>
    exact retireSupersededWorkingGitFinalization_journalEffect ..
  | cancelIdleWorkingGitFinalization => exact cancelIdleWorkingGitFinalization_journalEffect ..
  | acknowledgeCompletedGitFinalizationSession =>
    exact acknowledgeCompletedGitFinalizationSession_journalEffect ..
  | _ => exact .of_frame rfl

/-! ## Runs -/

section Runs

variable {db : Registry} {ops : List RegistryOp}

/-- Every journal of the registry satisfies the row invariant. -/
def JournalsSound (db : Registry) : Prop := ∀ g ∈ db.gitFinalizations, g.Sound

theorem journalsSound_runOps (h : JournalsSound db) : JournalsSound (runOps ops db) :=
  Transition.exec_invariant (fun op s hs => (op.journalEffect s).sound hs) ops h

/-- Over a run a journal is never lost, and only evolves. -/
theorem exists_evolves_runOps {e : GitFinalization} (he : e ∈ db.gitFinalizations)
    (ops : List RegistryOp) : ∃ g ∈ (runOps ops db).gitFinalizations, e.Evolves g := by
  refine Transition.exec_related
    (R := fun a b => ∀ e ∈ a.gitFinalizations, ∃ g ∈ b.gitFinalizations, e.Evolves g)
    (fun _ e he => ⟨e, he, .refl e⟩) (fun a b c hab hbc e he => ?_)
    (fun op s e he => ?_) ops db e he
  · obtain ⟨g, hg, h⟩ := hab e he
    obtain ⟨g', hg', h'⟩ := hbc g hg
    exact ⟨g', hg', h.trans h'⟩
  · obtain ⟨g, hg, h, -⟩ := (op.journalEffect s).successor he
    exact ⟨g, hg, h⟩

/-- A commit-and-push journal that a call completes was in `push_pending`. -/
theorem RegistryOp.pushed_of_completes {op : RegistryOp} {g : GitFinalization}
    (hg : g ∈ (op.apply db).gitFinalizations) (hdone : g.state = .completed)
    (hmode : g.gitMode = .commitAndPush)
    (hnew : ¬ ∃ e ∈ db.gitFinalizations, e.is g.projectId g.codexSessionId ∧
      e.state = .completed ∧ e.gitMode = .commitAndPush) :
    ∃ e ∈ db.gitFinalizations, e.is g.projectId g.codexSessionId ∧
      e.state = .pushPending := by
  rcases (op.journalEffect db).origin hg with ⟨n, rfl⟩ | ⟨e, he, hw | heq⟩
  · cases hdone
  · have hkey : e.is g.projectId g.codexSessionId := by
      simp [GitFinalization.is, hw.evolves.project, hw.evolves.session]
    exact ⟨e, he, hkey, hw.pushed hdone hmode⟩
  · refine absurd ⟨e, he, ?_⟩ hnew
    rw [heq] at hdone hmode ⊢
    exact ⟨by simp [GitFinalization.is, GitFinalization.acknowledge], hdone, hmode⟩

/-- A completed commit-and-push journal was in `push_pending` earlier in the run. -/
theorem exists_pushPending_earlier (h0 : db.gitFinalizations = Table.empty)
    {g : GitFinalization} (hg : g ∈ (runOps ops db).gitFinalizations)
    (hdone : g.state = .completed) (hmode : g.gitMode = .commitAndPush) :
    ∃ pre post, ops = pre ++ post ∧ ∃ e ∈ (runOps pre db).gitFinalizations,
      e.is g.projectId g.codexSessionId ∧ e.state = .pushPending := by
  have hstart : ¬ ∃ e ∈ db.gitFinalizations, e.is g.projectId g.codexSessionId ∧
      e.state = .completed ∧ e.gitMode = .commitAndPush := by
    rw [h0]
    rintro ⟨e, he, -⟩
    exact Table.not_mem_empty he
  obtain ⟨pre, op, post, rfl, hbefore, e, he, hkey, hedone, hemode⟩ :=
    Transition.exists_crossing
      (P := fun s : Registry => ∃ e ∈ s.gitFinalizations, e.is g.projectId g.codexSessionId ∧
        e.state = .completed ∧ e.gitMode = .commitAndPush)
      hstart ⟨g, hg, by simp [GitFinalization.is], hdone, hmode⟩
  have hsame : e.projectId = g.projectId ∧ e.codexSessionId = g.codexSessionId := by
    simpa [GitFinalization.is] using hkey
  rw [← hsame.1, ← hsame.2] at hbefore ⊢
  exact ⟨pre, op :: post, rfl, RegistryOp.pushed_of_completes he hedone hemode hbefore⟩

/-- A call that holds `k` takes effect on the journal that `k` names. -/
def writesHeld (k : HeldJournal) (op : RegistryOp) (db : Registry) : Bool :=
  op.heldJournal = some k && (op.apply db).journal? k.projectId k.codexSessionId !=
    db.journal? k.projectId k.codexSessionId

/-- The journal has moved past the generation `k`. -/
def PastGeneration (k : HeldJournal) (db : Registry) : Prop :=
  ∃ g ∈ db.gitFinalizations, g.is k.projectId k.codexSessionId = true ∧
    k.generation < g.generation

theorem pastGeneration_apply {k : HeldJournal} (op : RegistryOp) (h : PastGeneration k db) :
    PastGeneration k (op.apply db) := by
  obtain ⟨e, he, hkey, hgen⟩ := h
  obtain ⟨g, hg, hev, -⟩ := (op.journalEffect db).successor he
  refine ⟨g, hg, ?_, Int.lt_of_lt_of_le hgen hev.generation⟩
  simpa [GitFinalization.is, hev.project, hev.session] using hkey

/-- A write that takes effect found the very generation its caller holds, and moved
the journal past it. -/
theorem of_writesHeld {k : HeldJournal} {op : RegistryOp} (h : writesHeld k op db = true) :
    (∃ g ∈ db.gitFinalizations, k.Names g) ∧ PastGeneration k (op.apply db) := by
  simp only [writesHeld, Bool.and_eq_true, decide_eq_true_eq, bne_iff_ne] at h
  obtain ⟨hheld, hne⟩ := h
  rcases (hheld ▸ op.journalEffect db).of_held with heq | ⟨P, f, hrows, hwrites⟩
  · rw [journal?, heq] at hne
    exact absurd rfl hne
  · by_cases hany : ∃ g ∈ db.gitFinalizations, P g = true
    · obtain ⟨g, hg, hP⟩ := hany
      obtain ⟨hnames, hw⟩ := hwrites g hg hP
      refine ⟨⟨g, hg, hnames⟩, f g, Table.mem_rewritten hrows hg hP, ?_, ?_⟩
      · simpa [GitFinalization.is, hw.evolves.project, hw.evolves.session] using hnames.1
      · rw [hw.generation, hnames.2]
        omega
    · -- No row meets the condition of the update, so nothing changed.
      have hsame : (op.apply db).gitFinalizations = db.gitFinalizations := by
        apply Table.ext
        rw [hrows]
        refine (List.map_congr_left fun g hg => ?_).trans (List.map_id _)
        rw [Table.rewrite, if_neg fun hP => hany ⟨g, hg, hP⟩]
        rfl
      rw [journal?, hsame] at hne
      exact absurd rfl hne

/-- Of all calls of a run that hold one generation of a journal, at most one takes
effect. -/
theorem occurrences_writesHeld_le_one (k : HeldJournal) :
    Transition.occurrences RegistryOp.apply (writesHeld k) ops db ≤ 1 := by
  refine Transition.occurrences_le_one (D := PastGeneration k)
    (fun op s hs => pastGeneration_apply op hs) (fun op s hs => ?_)
    (fun op s hs => (of_writesHeld hs).2) ops db
  rw [← Bool.not_eq_true]
  intro hwrites
  obtain ⟨⟨e, he, hnames⟩, -⟩ := of_writesHeld hwrites
  obtain ⟨g, hg, hkey, hgen⟩ := hs
  have hsame : e = g := Table.eq_of_conflict he hg (by
    have h1 := hnames.1
    simp only [GitFinalization.is, Bool.and_eq_true, beq_iff_eq] at h1 hkey
    simp [Keyed.conflict, h1, hkey])
  rw [← hsame, hnames.2] at hgen
  exact Int.lt_irrefl _ hgen

/-- A project has at most one journal in `tracking`, `commit_pending` or
`push_pending`. -/
theorem count_finalizing_le_one (db : Registry) (projectId : Int) :
    db.gitFinalizations.count (fun g => g.projectId == projectId && g.state.isFinalizing) ≤ 1 :=
  Table.count_le_one fun a b ha hb => by
    simp only [Bool.and_eq_true, beq_iff_eq] at ha hb
    simp [Keyed.conflict, ha, hb]

/-- The life of every journal of a run that starts without journals: what a row has
by the time it is in its state, the states it has passed through, what it keeps for
good, what one call does to it, that of the writes that hold one generation at most
one takes effect, and that a project has at most one journal under finalization. -/
theorem journal_lifecycle (db : Registry) (h0 : db.gitFinalizations = Table.empty)
    (ops : List RegistryOp) :
    (∀ g ∈ (runOps ops db).gitFinalizations, g.Sound ∧
      (g.gitMode = .commit → g.state ≠ .pushPending) ∧
      (g.state = .completed → g.gitMode = .commitAndPush →
        ∃ pre post, ops = pre ++ post ∧ ∃ e ∈ (runOps pre db).gitFinalizations,
          e.is g.projectId g.codexSessionId ∧ e.state = .pushPending)) ∧
    (∀ pre post, ops = pre ++ post → ∀ e ∈ (runOps pre db).gitFinalizations,
      ∃ g ∈ (runOps ops db).gitFinalizations, e.Evolves g) ∧
    (∀ pre op post, ops = pre ++ op :: post → ∀ e ∈ (runOps pre db).gitFinalizations,
      ∃ g ∈ (runOps (pre ++ [op]) db).gitFinalizations, e.Evolves g ∧ e.Follows g) ∧
    (∀ k, Transition.occurrences RegistryOp.apply (writesHeld k) ops db ≤ 1) ∧
    ∀ projectId, (runOps ops db).gitFinalizations.count
      (fun g => g.projectId == projectId && g.state.isFinalizing) ≤ 1 := by
  have hsound : JournalsSound (runOps ops db) := by
    refine journalsSound_runOps fun g hg => ?_
    rw [h0] at hg
    exact absurd hg Table.not_mem_empty
  refine ⟨fun g hg => ⟨hsound g hg, fun hmode hpush => ?_, exists_pushPending_earlier h0 hg⟩,
    ?_, ?_, occurrences_writesHeld_le_one, count_finalizing_le_one _⟩
  · have := (hsound g hg).push hpush
    rw [hmode] at this
    cases this
  · rintro pre post rfl e he
    rw [runOps, Transition.exec_append]
    exact exists_evolves_runOps he post
  · intro pre op post _ e he
    rw [runOps, Transition.exec_concat]
    exact (op.journalEffect _).successor he

end Runs

/-- The session's task, committed and pushed. -/
def pushedRun : List RegistryOp :=
  [.createGitFinalization
      { projectId := 1, codexSessionId := "s", gitMode := .commitAndPush,
        startingHead := some "h", branchRef := some "refs/heads/main", upstreamRef := none,
        worktreeBaseline := "b", taskIdentity := none, ownerRunToken := some "t",
        createdAt := "2" },
    .trackGitFinalizationWithManifest 1 "s" 0 "task" "b" "t" "3",
    .compareAndSetOwnedGitFinalization 1 "s" 1 .commitPending "t" none none "4",
    .compareAndSetGitFinalizationBlocking 1 "s" 2 .pushPending none (some "oid") none "5",
    .compareAndSetGitFinalizationBlocking 1 "s" 3 .completed none none none "6"]

theorem journal_lifecycle_pushedRun :
    (runOps pushedRun managedRegistry).gitFinalizations.rows.map
      (fun g => (g.state, g.generation)) = [(.completed, 4)] ∧
    ∀ g ∈ (runOps pushedRun managedRegistry).gitFinalizations, g.Sound ∧
      (g.gitMode = .commit → g.state ≠ .pushPending) ∧
      (g.state = .completed → g.gitMode = .commitAndPush →
        ∃ pre post, pushedRun = pre ++ post ∧
          ∃ e ∈ (runOps pre managedRegistry).gitFinalizations,
            e.is g.projectId g.codexSessionId ∧ e.state = .pushPending) :=
  ⟨by decide, (journal_lifecycle managedRegistry rfl pushedRun).1⟩

end Clt
