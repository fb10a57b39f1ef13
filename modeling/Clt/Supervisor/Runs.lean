import Clt.Supervisor.Guards
import Clt.Transition.Exec

/-!
# Runs of the supervisor

A project is supervised by one call after the other. Between the calls, and between the steps of a
call, anything but the review may change, and the user may clear the review; a call may be killed
at any step, and each step may fail, a write before or after it is made.
-/

namespace Clt.Supervisor

open Durable

/-- A call of the supervisor, or of the user who clears the review. -/
inductive SupervisorCall where
  | gate (hasBlocked : Bool)
  | beginReview
  | finishReview (today : Text)
  | prepareRetry (today : Text)
  | holdError (error : String)
  | afterTaskRun (selection : AgentTaskSelection) (status : String) (today : Text)
  | clear

/-- What happens at a site: a call and its fate, or a change that others make. -/
inductive SiteEvent where
  | call (request : SupervisorCall) (fate : Fate Reply Site)
  | others (f : Site → Site)

section

variable (project : SupervisedProject)

/-- The procedure of a call. -/
def SupervisorCall.run (call : SupervisorCall) : Supervised Unit := do
  begin
  match call with
  | .gate hasBlocked => do let _ ← Supervisor.gate project hasBlocked
  | .beginReview => do let _ ← Supervisor.beginReview project
  | .finishReview today => do let _ ← Supervisor.finishReview project today
  | .prepareRetry today => Supervisor.prepareRetry project today
  | .holdError error => Supervisor.holdError error
  | .afterTaskRun selection status today => Supervisor.afterTaskRun project selection status today
  | .clear => Supervisor.clear

/-- What an event may be: the others leave the review alone, or clear it. -/
def SiteEvent.Allowed : SiteEvent → Site → Prop
  | .call _ fate, _ => ∀ t w, Disturbs w (fate.others t w)
  | .others f, w => Disturbs w (f w)

/-- The site that an event leaves. -/
def SiteEvent.step : SiteEvent → Site → Site
  | .call request fate, w => (request.run project fate 0 w).2.2
  | .others f, w => f w

/-- The site after a run of events. -/
abbrev siteRun (events : List SiteEvent) (w : Site) : Site :=
  Transition.exec (SiteEvent.step project) events w

/-- Every event of the run is one that may be. -/
abbrev AllowedRun (events : List SiteEvent) (w : Site) : Prop :=
  Transition.Along (SiteEvent.step project) SiteEvent.Allowed events w

end

variable {project : SupervisedProject} {w : Site} {events : List SiteEvent}
  {fate : Fate Reply Site}

/-! ## One call -/

theorem guarded_call (call : SupervisorCall) :
    Guarded Disturbs Kept (fun _ => True) (call.run project) fun _ _ => True := by
  refine Guarded.bind guarded_begin fun _ => ?_
  cases call with
  | gate hasBlocked =>
    exact Guarded.bind (guarded_gate hasBlocked) fun _ => guarded_pure fun _ _ _ => trivial
  | beginReview => exact Guarded.bind guarded_beginReview fun _ => guarded_pure fun _ _ _ => trivial
  | finishReview today =>
    exact Guarded.bind (guarded_finishReview today) fun _ => guarded_pure fun _ _ _ => trivial
  | prepareRetry today => exact (guarded_prepareRetry today).of_ok fun _ _ _ _ => trivial
  | holdError error => exact guarded_holdError error
  | afterTaskRun selection status today => exact guarded_afterTaskRun selection status today
  | clear => exact guarded_clear lasting_true

theorem Meets.kept {α : Type} {ok : α → Site → Prop} {result : Ended String α} {w : Site}
    (h : Meets (fun a w => Kept w ∧ ok a w) (fun _ => Kept) Kept result w) : Kept w := by
  cases result with
  | killed => exact h
  | failed e => exact h
  | returned a => exact h.1

theorem Kept.step {event : SiteEvent} (h : Kept w) (hallowed : event.Allowed w) :
    Kept (event.step project w) := by
  cases event with
  | call request fate => exact Meets.kept (guarded_call request fate hallowed 0 w ⟨h, trivial⟩)
  | others f => exact h.disturbed hallowed

/-! ## Runs -/

theorem Kept.run (h : Kept w) (hevents : AllowedRun project events w) :
    Kept (siteRun project events w) := by
  induction events generalizing w with
  | nil => exact h
  | cons event events ih => exact ih (h.step hevents.1) hevents.2

/-- Before the first call. -/
theorem kept_start (hreview : w.review = none) (hlog : w.log = []) : Kept w := by
  constructor
  · rw [hreview, hlog]
    exact ⟨fun _ h => (by cases h), Nat.zero_le _, fun _ => Nat.zero_le _, fun _ => Nat.zero_le _⟩
  · rw [hlog]
    trivial

theorem eq_of_fst {α β γ : Type} {x : α × β × γ} {a : α} (h : x.1 = a) : x = (a, x.2.1, x.2.2) := by
  rw [← h]

/-! ## A run -/

deriving instance DecidableEq for Ended

/-- The session of the task. -/
def blockedSession : Text := ['7']

/-- The task is blocked and linked to a session. -/
def blockedLine : Text := "BLOCKED 2026-01-02: codex:".toList ++ blockedSession

/-- A board with one task, which is blocked. -/
def blockedRoot : Files.Folder :=
  [("tasks".toList, .folder
    [("todo.md".toList, .file ("- ".toList ++ blockedLine ++ ['\n'])), ("doing.md".toList, .file []),
     ("done.md".toList, .file []), ("backlog.md".toList, .file [])])]

/-- The reviewer advises to try again. -/
def tryAgain : Decision := ⟨.retry, 1, ['R'], ['T']⟩

/-- No review has been made yet. -/
def blockedSite : Site where
  enabled := true
  db := .empty
  root := blockedRoot
  admission := Admission.plainAdmission
  lower c := [c]
  head := none
  manifest _ := none
  diagnostic _ := none
  decisionFile := some tryAgain
  review := none
  log := []

def onlyProject : SupervisedProject := ⟨1, []⟩

/-- Nothing fails, and nobody else moves. -/
def smoothFate : Fate Reply Site := ⟨fun _ w => w, fun _ => ⟨false, false, ""⟩, fun _ => false⟩

/-- A review that approves a retry. -/
def approvingRun : List SiteEvent :=
  [.call .beginReview smoothFate, .call (.finishReview ['3']) smoothFate]

theorem approvingRun_allowed : AllowedRun onlyProject approvingRun blockedSite :=
  ⟨fun _ _ => .inl ⟨rfl, rfl⟩, fun _ _ => .inl ⟨rfl, rfl⟩, trivial⟩

/-- The review that the run leaves. -/
def approvedReview : SupervisorReview :=
  ⟨⟨[(.todo, blockedLine)], [], [], [(blockedSession, true)]⟩, .retry, 1, 1, some tryAgain,
    some blockedSession, none⟩

/-- What the run leaves, and what the gate and the preparation answer after it. -/
theorem approvingRun_leaves :
    (siteRun onlyProject approvingRun blockedSite).review = some approvedReview ∧
      (siteRun onlyProject approvingRun blockedSite).log.head? = some (.decided approvedReview) ∧
        approvals (siteRun onlyProject approvingRun blockedSite).log = 1 ∧
          ((do begin; gate onlyProject true : Supervised Gate) smoothFate 0
            (siteRun onlyProject approvingRun blockedSite)).1 = .returned (.retry blockedSession) ∧
            ((do begin; prepareRetry onlyProject ['3'] : Supervised Unit) smoothFate 0
              (siteRun onlyProject approvingRun blockedSite)).1 = .returned () := by
  decide

/-! ## Main results -/

/-- Whatever happens, the saved review is sound. Since it was cleared last no more retries were
approved than `MAX_RETRIES`, each of them counted by the review, and on the same evidence no more
reviews were begun in a row than `MAX_REVIEWS`. -/
theorem reviews_bounded (project : SupervisedProject) (events : List SiteEvent) (w : Site)
    (hreview : w.review = none) (hlog : w.log = []) (hevents : AllowedRun project events w) :
    (∀ review, (siteRun project events w).review = some review → review.Sound) ∧
      approvals (siteRun project events w).log ≤ usedRetries (siteRun project events w).review ∧
        approvals (siteRun project events w).log ≤ maxRetries ∧
          ∀ e, begunOn e (siteRun project events w).log ≤ maxReviews := by
  have h : Covers (siteRun project events w).review (siteRun project events w).log :=
    ((kept_start hreview hlog).run hevents).covers
  exact ⟨h.sound, h.paid, h.paid.trans (usedRetries_le h.sound), h.bounded⟩

theorem reviews_bounded_approving :
    approvals (siteRun onlyProject approvingRun blockedSite).log = 1 ∧
      (∀ review, (siteRun onlyProject approvingRun blockedSite).review = some review →
        review.Sound) ∧
        approvals (siteRun onlyProject approvingRun blockedSite).log ≤
          usedRetries (siteRun onlyProject approvingRun blockedSite).review ∧
          approvals (siteRun onlyProject approvingRun blockedSite).log ≤ maxRetries ∧
            ∀ e, begunOn e (siteRun onlyProject approvingRun blockedSite).log ≤ maxReviews :=
  ⟨approvingRun_leaves.2.2.1, reviews_bounded onlyProject approvingRun blockedSite rfl rfl
    approvingRun_allowed⟩

/-- Every decision that was ever saved was taken on what its own call had seen before: the
supervisor enabled, the evidence of the review unchanged, the task among the candidates, and for a
retry the task's own session, idle and linked to one task. -/
theorem decisions_warranted (project : SupervisedProject) (events : List SiteEvent) (w : Site)
    (hreview : w.review = none) (hlog : w.log = []) (hevents : AllowedRun project events w)
    (later earlier : List Event) (review : SupervisorReview)
    (hdecided : (siteRun project events w).log = later ++ .decided review :: earlier) :
    Warranted (sinceBegan earlier) review := by
  have h : Justified (later ++ .decided review :: earlier) :=
    hdecided ▸ ((kept_start hreview hlog).run hevents).justified
  clear hdecided
  induction later with
  | nil => exact h.1
  | cons event later ih =>
    apply ih
    cases event with
    | decided other => exact h.2
    | _ => exact h

theorem decisions_warranted_approving :
    (siteRun onlyProject approvingRun blockedSite).review = some approvedReview ∧
      Warranted (sinceBegan (siteRun onlyProject approvingRun blockedSite).log.tail)
        approvedReview :=
  ⟨approvingRun_leaves.1, decisions_warranted onlyProject approvingRun blockedSite rfl rfl
    approvingRun_allowed [] _ approvedReview (List.eq_cons_of_mem_head? approvingRun_leaves.2.1)⟩

/-- In every run, the gate lets a session be retried only when that is warranted by what it has
seen, however it was disturbed. -/
theorem retry_warranted (project : SupervisedProject) (events : List SiteEvent) (w : Site)
    (hreview : w.review = none) (hlog : w.log = []) (hevents : AllowedRun project events w)
    (hasBlocked : Bool) (fate : Fate Reply Site)
    (hothers : ∀ t w, Disturbs w (fate.others t w)) (session : Text) (t : Nat) (after : Site)
    (hanswer : (do begin; gate project hasBlocked : Supervised Gate) fate 0
      (siteRun project events w) = (.returned (.retry session), t, after)) :
    RetryWarranted (sinceBegan after.log) session := by
  have hkept : Kept (siteRun project events w) := (kept_start hreview hlog).run hevents
  have hguard : Guarded Disturbs Kept (fun _ => True)
      (do begin; gate project hasBlocked : Supervised Gate) Opens :=
    Guarded.bind guarded_begin fun _ => guarded_gate hasBlocked
  have hmeets := hguard fate hothers 0 _ ⟨hkept, trivial⟩
  rw [hanswer] at hmeets
  exact hmeets.2 session rfl

theorem retry_warranted_approved :
    RetryWarranted (sinceBegan ((do begin; gate onlyProject true : Supervised Gate) smoothFate 0
      (siteRun onlyProject approvingRun blockedSite)).2.2.log) blockedSession :=
  retry_warranted onlyProject approvingRun blockedSite rfl rfl approvingRun_allowed true smoothFate
    (fun _ _ => .inl ⟨rfl, rfl⟩) blockedSession _ _
    (eq_of_fst approvingRun_leaves.2.2.2.1)

/-- In every run, a retry is prepared only for the session that a sound review has approved, idle
and linked to one task that the user does not hold, on unchanged evidence. -/
theorem preparation_warranted (project : SupervisedProject) (events : List SiteEvent) (w : Site)
    (hreview : w.review = none) (hlog : w.log = []) (hevents : AllowedRun project events w)
    (today : Text) (fate : Fate Reply Site) (hothers : ∀ t w, Disturbs w (fate.others t w))
    (t : Nat) (after : Site)
    (hanswer : (do begin; prepareRetry project today : Supervised Unit) fate 0
      (siteRun project events w) = (.returned (), t, after)) :
    Prepared (sinceBegan after.log) := by
  have hkept : Kept (siteRun project events w) := (kept_start hreview hlog).run hevents
  have hguard : Guarded Disturbs Kept (fun _ => True)
      (do begin; prepareRetry project today : Supervised Unit) fun _ w =>
        Prepared (sinceBegan w.log) :=
    Guarded.bind guarded_begin fun _ => guarded_prepareRetry today
  have hmeets := hguard fate hothers 0 _ ⟨hkept, trivial⟩
  rw [hanswer] at hmeets
  exact hmeets.2

theorem preparation_warranted_approved :
    Prepared (sinceBegan ((do begin; prepareRetry onlyProject ['3'] :
      Supervised Unit) smoothFate 0 (siteRun onlyProject approvingRun blockedSite)).2.2.log) :=
  preparation_warranted onlyProject approvingRun blockedSite rfl rfl approvingRun_allowed
    ['3'] smoothFate (fun _ _ => .inl ⟨rfl, rfl⟩) _ _
    (eq_of_fst approvingRun_leaves.2.2.2.2)

end Clt.Supervisor
