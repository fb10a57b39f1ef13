import Clt.Durable.Procedure
import Clt.Supervisor.Review

/-!
# The calls of the supervisor

The scheduler asks `gate` before it starts work in a project. A reviewer is begun and finished by
the worker that runs it; a retry that it has approved is prepared by the worker that resumes the
session. Each call reads the site step by step and writes the review as a whole.
-/

namespace Clt.Supervisor

open Files Durable

/-! ## Steps -/

/-- How a step turns out. A write that fails may have been made. -/
structure Reply where
  fails : Bool
  late : Bool
  error : String

abbrev Supervised (α : Type) := Procedure Reply Site String α

section

variable {α : Type}

/-- The site with one more event. -/
def noted (event : Event) (w : Site) : Site := { w with log := event :: w.log }

/-- A reading; it fails when there is nothing to read. -/
def look (f : Site → Option α) : Supervised α :=
  Procedure.step fun i w =>
    if i.fails then (.error i.error, w) else ((f w).elim (.error i.error) .ok, w)

/-- A reading that is noted. -/
def observe (f : Site → Option α) (seen : α → Event) : Supervised α :=
  Procedure.step fun i w =>
    if i.fails then (.error i.error, w)
    else match f w with
      | none => (.error i.error, w)
      | some a => (.ok a, noted (seen a) w)

/-- A change of the files, when it can be made. -/
def change (f : Site → Option Site) : Supervised Unit :=
  Procedure.step fun i w =>
    match f w with
    | none => (.error i.error, w)
    | some w' => if i.fails then (.error i.error, if i.late then { w with root := w'.root } else w)
      else (.ok (), { w with root := w'.root })

/-- The saved review is replaced. -/
def writeReview (event : Event) (review : Option SupervisorReview) : Supervised Unit :=
  Procedure.step fun i w =>
    let saved := noted event { w with review }
    if i.fails then (.error i.error, if i.late then saved else w) else (.ok (), saved)

/-- `save_supervisor_review`. -/
def save (review : SupervisorReview) : Supervised Unit := writeReview (.saved review) (some review)

/-- `save_supervisor_review` of a decision. -/
def saveDecision (review : SupervisorReview) : Supervised Unit :=
  writeReview (.decided review) (some review)

/-- `clear_supervisor_review`. -/
def clear : Supervised Unit := writeReview .cleared none

/-- A call begins. -/
def begin : Supervised Unit := Procedure.step fun _ w => (.ok (), noted .began w)

/-- `anyhow::ensure!`. -/
def require (c : Prop) [Decidable c] (message : String) : Supervised Unit :=
  Procedure.whenever (¬ c) (Procedure.fail message)

/-- `Option::context`. -/
def orFail (a : Option α) (message : String) : Supervised α :=
  match a with
  | some a => pure a
  | none => Procedure.fail message

/-- `acquire_board_mutation_lock`. -/
def lockBoard : Supervised Unit := look fun _ => some ()

/-- `supervisor_settings`. -/
def readEnabled : Supervised Bool := observe (fun w => some w.enabled) .enabled

/-- `supervisor_review`. -/
def readReview : Supervised (Option SupervisorReview) := observe (fun w => some w.review) .review

end

section

variable (project : SupervisedProject)

def readEvidence : Supervised Evidence := observe (reviewEvidence project) .evidence

def readCandidates : Supervised (List FoundTask) := observe (reviewCandidates project) .candidates

def readLinked (session : Text) : Supervised (List FoundTask) :=
  observe (fun w => linkedTasks project w session) (.linked session)

def readIdle (session : Text) : Supervised Bool := do
  let control ← observe (fun w => some (sessionControl project w session)) (.control session)
  pure (isIdleControl control)

/-- A note is written before the link of a task to its session. -/
def noteTask (found : FoundTask) (session note : Text) (missing : String) : Supervised Unit := do
  let content ← orFail (withNote found.entry.content session note) missing
  change fun w => writeTask project w found content

/-! ## The gate -/

/-- `Gate`. -/
inductive Gate where
  | normal
  | review
  | retry (session : Text)
  | hold (message : Text)
  deriving DecidableEq

/-- A retry has been approved. -/
def isRetry (previous : Option SupervisorReview) : Bool :=
  previous.any fun review => review.state = .retry

/-- Work goes on, and the review that there was is cleared. -/
def openGate (previous : Option SupervisorReview) : Supervised Gate := do
  Procedure.whenever (previous.isSome = true) clear
  pure .normal

/-- May a project that waits on a saved decision be assessed again? The task in Doing that it
waits with is idle and not sealed. -/
def isUpgradable (review : SupervisorReview) : Supervised Bool :=
  match review.state, review.error, review.decision with
  | .held, none, some decision =>
    if decision.decision = .wait then do
      let candidates ← readCandidates project
      match candidates[decision.task - 1]? with
      | none => pure false
      | some found =>
        match found.status, recoverableCodexSessionIdFromTaskContent found.entry.content with
        | .doing, some session => do
          let idle ← readIdle project session
          if idle then
            look fun w => some ((gitFinalization project w session).all fun j => j.state = .working)
          else pure false
        | _, _ => pure false
    else pure false
  | _, _, _ => pure false

/-- What a review of the current evidence says. -/
def judge (review : SupervisorReview) : Supervised Gate :=
  if review.state = .retry then
    pure ((review.retrySession.map Gate.retry).getD
      (.hold "Supervisor retry has no original session; press r to review again.".toList))
  else do
    let upgradable ← isUpgradable project review
    if upgradable then do
      save { review with state := .pending, attempts := 0 }
      pure .review
    else if review.state = .pending ∨ review.state = .reviewing ∧ review.attempts < maxReviews then
      pure .review
    else if review.state = .reviewing then
      pure (.hold "Supervisor review attempt limit reached; press r to review again.".toList)
    else pure (.hold review.message)

/-- The last part of `gate`: a review of other evidence does not count. -/
def assess (previous : Option SupervisorReview) : Supervised Gate := do
  let current ← readEvidence project
  match previous with
  | none => pure .review
  | some review => if review.evidence = current then judge project review else pure .review

/-- What `gate` does when the approved retry has no single task any more. -/
def afterRetry (hasBlocked : Bool) (review : SupervisorReview) : Supervised Gate :=
  if hasBlocked then assess project (some review) else openGate (some review)

/-- What `gate` does with the one task of an approved retry. -/
def retryTask («sealed» : Bool) (review : SupervisorReview) (session : Text)
    (found : FoundTask) : Supervised Gate :=
  if taskContentIsStopped found.entry.content || taskContentIsManual found.entry.content then
    pure (.hold "Supervisor-approved task is stopped or manually owned.".toList)
  else if «sealed» then do
    let current ← readEvidence project
    if review.evidence = current then pure (.retry session) else pure .review
  else pure (.retry session)

/-- The part of `gate` about a review that has approved a retry. -/
def retryGate («sealed» hasBlocked : Bool) (review : SupervisorReview) : Supervised Gate :=
  match review.retrySession with
  | none => afterRetry project hasBlocked review
  | some session => do
    let linked ← readLinked project session
    match linked with
    | [found] => do
      let available ← look fun w => some (retryStatusAvailable project w found.status session)
      if available && !taskContentIsBlocked found.entry.content then
        retryTask project «sealed» review session found
      else afterRetry project hasBlocked review
    | _ => afterRetry project hasBlocked review

/-- Is the session of an approved retry in other hands? -/
def isHeldElsewhere (previous : Option SupervisorReview) : Supervised Bool :=
  match (previous.filter fun review => review.state = .retry).bind
      SupervisorReview.retrySession with
  | none => pure false
  | some session => do
    let idle ← readIdle project session
    pure !idle

/-- `gate`, of a project that has a supervisor. -/
def superviseGate (hasBlocked : Bool) : Supervised Gate := do
  let «sealed» ← look fun w => some (hasSealedFinalization project w)
  let repeatedly ← look fun w =>
    (repeatedFailureCandidates project w).map fun tasks => !tasks.isEmpty
  let hasBlocked ← look fun w =>
    if hasBlocked || repeatedly then some true
    else if «sealed» then (reviewCandidates project w).map fun tasks => !tasks.isEmpty
    else some false
  let previous ← readReview
  let canWait ← look fun w =>
    if !«sealed» && !repeatedly && !isRetry previous then queuedBlockersCanWait project w
    else some false
  if canWait then openGate previous
  else do
    let held ← isHeldElsewhere project previous
    if held then
      pure (.hold ("Supervisor-approved task is stopped or owned by another session control; " ++
        "preserve that control.").toList)
    else
      match previous with
      | some review =>
        if review.state = .retry then retryGate project «sealed» hasBlocked review
        else if hasBlocked then assess project (some review)
        else openGate (some review)
      | none => if hasBlocked then assess project none else openGate none

/-- `gate`. -/
def gate (hasBlocked : Bool) : Supervised Gate := do
  let enabled ← readEnabled
  if enabled then superviseGate project hasBlocked else pure .normal

/-! ## Reviews -/

/-- The review that is begun on the current evidence. -/
def begun (current : Evidence) (old : Option SupervisorReview) : SupervisorReview :=
  let attempts := (old.filter fun review => review.evidence = current).elim 0 (·.attempts) + 1
  let retries := old.elim 0 (·.retries)
  if maxReviews < attempts then
    ⟨current, .held, attempts, retries, none, none, some "Review attempt limit reached"⟩
  else ⟨current, .reviewing, attempts, retries, none, none, none⟩

/-- `begin_review`. -/
def beginReview : Supervised SupervisorReview := do
  let current ← readEvidence project
  let old ← readReview
  save (begun current old)
  require ((begun current old).attempts ≤ maxReviews) "Supervisor review attempt limit reached"
  pure (begun current old)

/-- The review with its decision, when it may be taken. -/
def approve (review : SupervisorReview) (decision : Decision) (found : FoundTask) :
    Supervised SupervisorReview :=
  if decision.decision = .retry then do
    require (review.retries < maxRetries)
      "Supervisor retry budget exhausted; user review is required"
    let session ← orFail (recoverableCodexSessionIdFromTaskContent found.entry.content)
      "Cannot retry an unlinked task; a plan or user decision is required"
    let idle ← readIdle project session
    require (idle = true) "Original task session is busy or stopped"
    let linked ← readLinked project session
    require (linked.length = 1) "Original task session has ambiguous task links"
    pure { review with
      state := .retry, retries := review.retries + 1, retrySession := some session,
      decision := some decision, error := none }
  else pure { review with state := .held, decision := some decision, error := none }

/-- `BLOCKED`, `UNBLOCKED` or another word with a date and what it says. -/
def datedNote (word today text : Text) : Text := word ++ " ".toList ++ today ++ ": ".toList ++ text

/-- The note of a task that waits. -/
def waitNote (project : SupervisedProject) (today : Text) (decision : Decision)
    (found : FoundTask) : Supervised Unit :=
  if taskContentIsBlocked found.entry.content then pure ()
  else do
    let session ← orFail (recoverableCodexSessionIdFromTaskContent found.entry.content)
      "A failed runtime task lost its session"
    noteTask project found session (datedNote "BLOCKED".toList today ("Supervisor wait: ".toList ++
      decision.reason ++ " Next: ".toList ++ decision.nextAction))
      "Waiting task lost its session marker"

/-- The last part of `finish_review`: a task in Doing that waits goes back to Todo, so that ready
work can go on. -/
def deferWaiting (today : Text) (review : SupervisorReview) (decision : Decision)
    (found : FoundTask) : Supervised Unit :=
  if decision.decision = .wait ∧ found.status = .doing then do
    let session := recoverableCodexSessionIdFromTaskContent found.entry.content
    let idle ← look fun w => some (session.all (retrySessionIsIdle project w))
    let working ← look fun w => some (session.all fun session =>
      (gitFinalization project w session).all fun journal => journal.state = .working)
    if idle && working then do
      let doing ← look fun w => entries project w .doing
      let index ← orFail (doing.findIdx? fun entry =>
          found.sameSource .doing entry.source && entry.content == found.entry.content)
        "The waiting task changed before deferral"
      waitNote project today decision found
      let entry ← look fun w => (entries project w .doing).bind fun doing => doing[index]?
      change fun w => changeBoard project w fun board => placeDeferred w board entry
      change fun w => changeBoard project w fun board => takeDeferred board entry
      let current ← readEvidence project
      save { review with evidence := current }
    else pure ()
  else pure ()

/-- The candidate that a decision selects. -/
def selectTask (decision : Decision) (candidates : List FoundTask) : Supervised FoundTask :=
  if decision.task = 0 then Procedure.fail "Invalid supervisor task index"
  else orFail candidates[decision.task - 1]? "Supervisor selected a task outside its evidence"

/-- `finish_review`. -/
def finishReview (today : Text) : Supervised Text := do
  lockBoard
  let enabled ← readEnabled
  require (enabled = true) "Supervisor was disabled during review; decision was not applied"
  let saved ← readReview
  let review ← orFail saved "Supervisor review disappeared"
  let current ← readEvidence project
  require (review.evidence = current)
    ("Project evidence changed during supervisor review; discard this decision and review " ++
      "the new evidence")
  let decision ← look fun w => w.decisionFile
  require (Text.trim decision.reason ≠ [] ∧ Text.trim decision.nextAction ≠ [])
    "Supervisor must provide its reasoning and an actionable next step"
  let candidates ← readCandidates project
  let found ← selectTask decision candidates
  let review ← approve project review decision found
  saveDecision review
  deferWaiting project today review decision found
  pure review.message

/-! ## Retries -/

/-- `prepare_retry`. -/
def prepareRetry (today : Text) : Supervised Unit := do
  lockBoard
  let saved ← readReview
  let review ← orFail saved "Supervisor retry decision disappeared"
  require (review.state = .retry ∧ review.decision.any (fun d => d.decision = .retry) = true)
    "No approved supervisor retry exists"
  let session ← orFail review.retrySession "Supervisor retry has no original session"
  let idle ← readIdle project session
  require (idle = true) "Original retry session is busy or stopped"
  let linked ← readLinked project session
  require (linked.length = 1) "Original retry session must belong to exactly one task"
  let found ← orFail linked.head? "Original retry session must belong to exactly one task"
  let available ← look fun w => some (retryStatusAvailable project w found.status session)
  require (available = true ∧ taskContentIsStopped found.entry.content = false ∧
    taskContentIsManual found.entry.content = false)
    "Supervisor retry task is no longer available"
  let current ← readEvidence project
  require (review.evidence = current)
    "Retry evidence changed; a new supervisor review is required"
  if taskContentIsBlocked found.entry.content = false ∨ found.status = .done then pure ()
  else do
    noteTask project found session (datedNote "UNBLOCKED".toList today
      "Supervisor approved a concrete new attempt; consult the saved supervisor decision.".toList)
      "Original task session marker disappeared"
    let current ← readEvidence project
    save { review with evidence := current }

/-- `hold_error`. -/
def holdError (error : String) : Supervised Unit := do
  let saved ← readReview
  match saved with
  | some review => save { review with state := .held, error := some error }
  | none => pure ()

/-- The note of a retry that has ended without success. -/
def noteFailedRetry (selection : AgentTaskSelection) (status : String) (today : Text)
    (old : Option SupervisorReview) : Supervised Unit :=
  match old.bind SupervisorReview.retrySession with
  | none => pure ()
  | some session =>
    if selection = .supervisorRetry ∧ status ≠ "success" ∧ status ≠ "blocked" then do
      lockBoard
      let linked ← readLinked project session
      match linked with
      | [found] =>
        if isActive found.status && !taskContentIsBlocked found.entry.content then
          noteTask project found session (datedNote "BLOCKED".toList today
            (s!"Supervisor-approved attempt ended with {status}; review its runtime " ++
              "diagnostics before continuing.").toList)
            "Retry task lost its session marker"
        else pure ()
      | _ => pure ()
    else pure ()

/-- The last part of `after_task_run`: what is left to review. -/
def reviewAgain (old : Option SupervisorReview) : Supervised Unit := do
  let candidates ← readCandidates project
  if candidates.isEmpty then clear
  else do
    let current ← readEvidence project
    save ⟨current, .pending, 0, old.elim 0 (·.retries), none, none, none⟩

/-- The user or a manual session has taken over. -/
def isHandedOver (status : String) : Bool := status == "stopped" || status == "handoff"

/-- `after_task_run`. -/
def afterTaskRun (selection : AgentTaskSelection) (status : String) (today : Text) :
    Supervised Unit := do
  let enabled ← readEnabled
  if enabled then do
    let concerned ← look fun w => some (status == "blocked" || selection = .supervisorRetry ||
      hasSealedFinalization project w && !isHandedOver status)
    if concerned then do
      let old ← readReview
      if selection = .supervisorRetry ∧ isHandedOver status = true then pure ()
      else do
        noteFailedRetry project selection status today old
        reviewAgain project old
    else pure ()
  else pure ()

end

end Clt.Supervisor
