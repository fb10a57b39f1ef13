import Clt.Registry.GitJournals

/-!
# The registry snapshot

The durable tables of the agent database, the snapshot that is read from them and the
database that is rebuilt from it (`agent/recovery.rs`). Rows are read and inserted in the
order of their tables. The foreign keys of the durable tables are a field of `AgentDatabase`,
so that a database in which a row has lost its project cannot be built; a restore checks them
once all tables are filled, parents before children.
-/

namespace Clt

open Relational

/-! ## Rows -/

/-- The columns of a `projects` row that a snapshot keeps. -/
structure DurableProject where
  id : Int
  path : String
  name : String
  enabled : Bool
  registeredAt : String
  updatedAt : String
  gitMode : AgentGitMode
  codexProvider : Option String
  codexModel : Option String
  codexReasoningEffort : Option String
  codexFastEnabled : Bool
  deriving DecidableEq

/-- The other columns of a `projects` row, with their defaults. -/
structure ProjectActivity where
  lastScanAt : Option String := none
  lastDaemonScanStatus : Option String := none
  lastDaemonScanError : Option String := none
  lastRunAt : Option String := none
  lastSuccessAt : Option String := none
  lastFailureAt : Option String := none
  lastBlockedRecoveryAt : Option String := none
  failureCount : Int := 0
  deriving DecidableEq

/-- A `projects` row. -/
structure RegisteredProject where
  durable : DurableProject
  activity : ProjectActivity
  deriving DecidableEq

/-- A `model_providers` row. -/
structure ModelProvider where
  providerId : String
  name : String
  baseUrl : Option String
  envKey : Option String
  builtIn : Bool
  enabled : Bool
  createdAt : String
  updatedAt : String
  apiKey : Option String
  deriving DecidableEq

/-- A `model_targets` row. -/
structure ModelTarget where
  providerId : String
  modelId : String
  label : String
  enabled : Bool
  favorite : Bool
  createdAt : String
  updatedAt : String
  reasoningEffort : Option String
  deriving DecidableEq

/-- An `agent_settings` row. -/
structure AgentSettings where
  id : Int
  defaultProvider : Option String
  defaultModel : Option String
  updatedAt : String
  supervisorSettings : Option String
  deriving DecidableEq

/-- A `supervisor_reviews` row. -/
structure SupervisorReview where
  projectId : Int
  evidence : String
  record : String
  updatedAt : String
  deriving DecidableEq

instance : Keyed RegisteredProject where
  conflict a b := a.durable.id == b.durable.id || a.durable.path == b.durable.path
  symm a b := by simp only [Bool.beq_comm]

instance : Keyed ModelProvider where
  conflict a b := a.providerId == b.providerId
  symm _ _ := Bool.beq_comm

instance : Keyed ModelTarget where
  conflict a b := a.providerId == b.providerId && a.modelId == b.modelId
  symm a b := by simp only [Bool.beq_comm]

instance : Keyed AgentSettings where
  conflict a b := a.id == b.id
  symm _ _ := Bool.beq_comm

instance : Keyed SupervisorReview where
  conflict a b := a.projectId == b.projectId
  symm _ _ := Bool.beq_comm

/-! ## The database -/

/-- The durable tables (`TABLES`). The last two may be missing until their migration, and
`sessionModesMigrated` says that migration 19 was applied. -/
structure AgentTables where
  projects : Table RegisteredProject
  modelProviders : Table ModelProvider
  modelTargets : Table ModelTarget
  agentSettings : Table AgentSettings
  agentWorkers : Table AgentWorker
  sessionControls : Table SessionControl
  gitLaunchStates : Table GitLaunchState
  gitFinalizations : Table GitFinalization
  sessionGitModes : Option (Table SessionGitMode)
  supervisorReviews : Option (Table SupervisorReview)
  sessionModesMigrated : Bool

namespace AgentTables

def hasProject (t : AgentTables) (id : Int) : Bool := t.projects.any fun p => p.durable.id == id

def hasProvider (t : AgentTables) (id : String) : Bool :=
  t.modelProviders.any fun p => p.providerId == id

/-- The columns that reference `projects(id)`. -/
def projectReferences (t : AgentTables) : List Int :=
  t.agentWorkers.rows.map (fun r => r.projectId) ++
    t.sessionControls.rows.map (fun r => r.projectId) ++
    t.gitLaunchStates.rows.map (fun r => r.projectId) ++
    t.gitFinalizations.rows.map (fun r => r.projectId) ++
    (t.sessionGitModes.elim [] fun modes => modes.rows.map fun r => r.projectId) ++
    t.supervisorReviews.elim [] fun reviews => reviews.rows.map fun r => r.projectId

/-- `PRAGMA foreign_key_check` finds nothing. -/
def foreignKeysHold (t : AgentTables) : Bool :=
  t.modelTargets.rows.all (fun r => t.hasProvider r.providerId) &&
    t.projectReferences.all t.hasProject

end AgentTables

/-- The durable tables of a database: its foreign keys hold, and the table of migration 19 is
there once the migration was applied. -/
structure AgentDatabase where
  tables : AgentTables
  foreignKeys : tables.foreignKeysHold = true
  migrated : tables.sessionModesMigrated = true → tables.sessionGitModes.isSome = true

/-! ## Snapshots -/

/-- The records of `registry.json`. -/
structure RegistrySnapshot where
  version : Nat
  projects : List DurableProject
  modelProviders : List ModelProvider
  modelTargets : List ModelTarget
  agentSettings : List AgentSettings
  agentWorkers : List AgentWorker
  sessionControls : List SessionControl
  gitLaunchStates : List GitLaunchState
  gitFinalizations : List GitFinalization
  sessionGitModes : Option (List SessionGitMode)
  supervisorReviews : Option (List SupervisorReview)

/-- The worker is kept: it is active, or an unconsumed launch is its own. -/
def AgentTables.keepsWorker (t : AgentTables) (w : AgentWorker) : Bool :=
  w.state.isActive || t.gitLaunchStates.any fun launch => launch.runToken == w.workerToken

/-- `read_database_snapshot`. -/
def readDatabaseSnapshot (t : AgentTables) : Except String RegistrySnapshot :=
  if t.sessionGitModes.isSome || !t.sessionModesMigrated then
    .ok
      { version :=
          if t.sessionGitModes.isNone then 1 else if t.supervisorReviews.isSome then 3 else 2
        projects := t.projects.rows.map RegisteredProject.durable
        modelProviders := t.modelProviders.rows
        modelTargets := t.modelTargets.rows
        agentSettings := t.agentSettings.rows
        agentWorkers := t.agentWorkers.rows.filter t.keepsWorker
        sessionControls := t.sessionControls.rows
        gitLaunchStates := t.gitLaunchStates.rows
        gitFinalizations := t.gitFinalizations.rows
        sessionGitModes := t.sessionGitModes.map Table.rows
        supervisorReviews := t.supervisorReviews.map Table.rows }
  else .error "The session Git mode table is missing after its migration was applied"

/-- `read_snapshot`, of a file that holds `s`. -/
def readSnapshot (s : RegistrySnapshot) : Except String RegistrySnapshot :=
  if 1 ≤ s.version ∧ s.version ≤ 3 then
    let s :=
      if s.version = 1 ∧ s.sessionGitModes = none then { s with sessionGitModes := some [] } else s
    let s :=
      if s.version ≠ 3 ∧ s.supervisorReviews = none then { s with supervisorReviews := some [] }
      else s
    if s.sessionGitModes = none then .error "Registry snapshot is missing session_git_modes"
    else if s.supervisorReviews = none then .error "Registry snapshot is missing supervisor_reviews"
    else .ok s
  else .error "Unsupported registry snapshot version"

/-! ## Restoring -/

/-- A worker as it is restored. -/
def restoredWorker (now : String) (w : AgentWorker) : AgentWorker :=
  { w with
    state := .abandoned
    finishedAt := some now
    runId := none
    error := some "Worker stopped and reconciled by exclusive registry recovery" }

/-- A journal as it is restored. -/
def restoredJournal (g : GitFinalization) : GitFinalization :=
  { g with acknowledgedRunId := none, ownerRunToken := none }

/-- A control as it is restored. -/
def restoredControl (sc : SessionControl) : SessionControl :=
  { sc with
    childPid := none
    interactiveHolder := none
    interactiveLaunchToken := none
    state := .stopped
    runToken := none }

/-- `state IN ('working', 'tracking', 'commit_pending')`. -/
def GitFinalizationState.resumes (state : GitFinalizationState) : Bool :=
  state = .working || state = .tracking || state = .commitPending

/-- The recovery request of a journal. -/
def resumeControl (now : String) (g : GitFinalization) : SessionControl where
  projectId := g.projectId
  codexSessionId := g.codexSessionId
  state := .resumeRequested
  childPid := none
  runToken := some (recoveryToken g.generation)
  interactiveHolder := none
  interactiveLaunchToken := none
  stdoutPath := none
  stderrPath := none
  updatedAt := now

/-- A journal of the control's session is unfinished. -/
def hasUnfinishedJournal (journals : List GitFinalization) (sc : SessionControl) : Bool :=
  journals.any fun g => g.is sc.projectId sc.codexSessionId && g.state.isUnfinished

/-- The rows of a table that was emptied. -/
def refill {ρ : Type} [Keyed ρ] (rows : List ρ) : Except String (Table ρ) :=
  match (Table.empty : Table ρ).insertAll? rows with
  | some table => .ok table
  | none => .error "UNIQUE constraint failed"

/-- The records of a table that a snapshot must have. -/
def records {ρ : Type} : Option (List ρ) → Except String (List ρ)
  | some rows => .ok rows
  | none => .error "Missing snapshot records"

/-- `restore_snapshot`, into a database with every migration applied, at time `now`. -/
def restoreSnapshot (now : String) (s : RegistrySnapshot) : Except String AgentTables := do
  let projects ← refill (s.projects.map fun durable => { durable, activity := {} })
  let modelProviders ← refill s.modelProviders
  let modelTargets ← refill s.modelTargets
  let agentSettings ← refill s.agentSettings
  let agentWorkers ← refill (s.agentWorkers.map (restoredWorker now))
  let sessionControls ← refill (s.sessionControls.map restoredControl)
  let gitLaunchStates ← refill s.gitLaunchStates
  let gitFinalizations ← refill (s.gitFinalizations.map restoredJournal)
  let modes ← records s.sessionGitModes
  let sessionGitModes ← refill modes
  let reviews ← records s.supervisorReviews
  let supervisorReviews ← refill reviews
  let filled : AgentTables :=
    { projects, modelProviders, modelTargets, agentSettings, agentWorkers, sessionControls
      gitLaunchStates, gitFinalizations
      sessionGitModes := some sessionGitModes
      supervisorReviews := some supervisorReviews
      sessionModesMigrated := true }
  if filled.foreignKeysHold then
    let kept := sessionControls.delete (hasUnfinishedJournal gitFinalizations.rows)
    match kept.insertAll? ((gitFinalizations.rows.filter fun g => g.state.resumes).map
        (resumeControl now)) with
    | some sessionControls => .ok { filled with sessionControls }
    | none => .error "UNIQUE constraint failed"
  else .error "FOREIGN KEY constraint failed"

end Clt
