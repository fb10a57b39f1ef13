import Clt.Supervisor.Warrant

/-!
# Each call of the supervisor

The guard is carried through each call, from what it reads to what it writes and returns.
-/

namespace Clt.Supervisor

open Durable

variable {project : SupervisedProject} {pre : Site → Prop} {review : SupervisorReview}
  {previous : Option SupervisorReview} {session : Text} {found : FoundTask}

/-! ## Readings -/

theorem guarded_readEnabled (hpre : Lasting pre) :
    Guarded Disturbs Kept pre readEnabled fun enabled w =>
      .enabled enabled ∈ sinceBegan w.log ∧ pre w :=
  guarded_observe hpre fun _ => rfl

theorem guarded_readEvidence (hpre : Lasting pre) :
    Guarded Disturbs Kept pre (readEvidence project) fun current w =>
      .evidence current ∈ sinceBegan w.log ∧ pre w :=
  guarded_observe hpre fun _ => rfl

theorem guarded_readCandidates (hpre : Lasting pre) :
    Guarded Disturbs Kept pre (readCandidates project) fun candidates w =>
      .candidates candidates ∈ sinceBegan w.log ∧ pre w :=
  guarded_observe hpre fun _ => rfl

theorem guarded_readLinked (hpre : Lasting pre) (session : Text) :
    Guarded Disturbs Kept pre (readLinked project session) fun linked w =>
      .linked session linked ∈ sinceBegan w.log ∧ pre w :=
  guarded_observe hpre fun _ => rfl

theorem guarded_readIdle (hpre : Lasting pre) (session : Text) :
    Guarded Disturbs Kept pre (readIdle project session) fun idle w =>
      (idle = true → SeenIdle (sinceBegan w.log) session) ∧ pre w := by
  refine Guarded.bind (guarded_observe hpre fun _ => rfl)
    fun control => guarded_pure fun w _ hw => ⟨fun hidle => ?_, hw.2⟩
  exact ⟨control, hw.1, hidle⟩

theorem guarded_noteTask (hpre : Lasting pre) (note : Text) (missing : String) :
    Guarded Disturbs Kept pre (noteTask project found session note missing) fun _ => pre :=
  Guarded.bind (guarded_orFail _ _) fun _ => Guarded.of_fact fun _ => guarded_change hpre _

theorem guarded_lockBoard (hpre : Lasting pre) :
    Guarded Disturbs Kept pre lockBoard fun _ => pre :=
  guarded_look hpre _

/-! ## The gate -/

/-- The task is neither blocked, stopped nor in the hands of the user. -/
def Runnable (found : FoundTask) : Prop :=
  taskContentIsBlocked found.entry.content = false ∧
    taskContentIsStopped found.entry.content = false ∧
      taskContentIsManual found.entry.content = false

/-- `gate` lets a session be retried on what it has seen: a sound review that approved the retry,
and a control that lets the session be resumed. Either the session has one task, which can be
run, or nothing of the evidence has changed since the decision. -/
structure RetryWarranted (seen : List Event) (session : Text) : Prop where
  idle : SeenIdle seen session
  approved : ∃ review, .review (some review) ∈ seen ∧ review.Sound ∧ review.state = .retry ∧
    review.retrySession = some session ∧
      ((∃ found, .linked session [found] ∈ seen ∧ Runnable found) ∨
        .evidence review.evidence ∈ seen)

/-- The gate opens for a retry only when that is warranted. -/
def Opens (answer : Gate) (w : Site) : Prop :=
  ∀ session, answer = .retry session → RetryWarranted (sinceBegan w.log) session

/-- What is known of the review that was read, once its session was looked at. -/
structure Approved (review : SupervisorReview) (w : Site) : Prop where
  seen : .review (some review) ∈ sinceBegan w.log
  covers : Covers (some review) w.log
  idle : review.state = .retry → ∀ session, review.retrySession = some session →
    SeenIdle (sinceBegan w.log) session

theorem lasting_approved (review : SupervisorReview) : Lasting (Approved review) :=
  fun w w' hgrows h => ⟨hgrows.seen h.seen, h.covers.grows hgrows,
    fun hstate session hsession =>
      lasting_seenIdle session w w' hgrows (h.idle hstate session hsession)⟩

theorem guarded_answer {answer : Gate} (h : ∀ session, answer ≠ .retry session) :
    Guarded Disturbs Kept pre (pure answer : Supervised Gate) Opens :=
  guarded_pure fun _ _ _ session heq => absurd heq (h session)

theorem guarded_openGate (hpre : Lasting pre) :
    Guarded Disturbs Kept pre (openGate previous) Opens := by
  refine Guarded.bind (guarded_whenever fun _ => guarded_clear hpre) fun _ => guarded_answer ?_
  intro session h
  cases h

theorem guarded_isUpgradable (hpre : Lasting pre) :
    Guarded Disturbs Kept pre (isUpgradable project review) fun upgradable w =>
      (upgradable = true → review.error = none) ∧ pre w := by
  have hno : Guarded Disturbs Kept pre (pure false : Supervised Bool) fun upgradable w =>
      (upgradable = true → review.error = none) ∧ pre w :=
    guarded_pure fun _ _ hp => ⟨fun h => (by cases h), hp⟩
  unfold isUpgradable
  split
  · rename_i decision hstate herror hdecision
    by_cases hwait : decision.decision = .wait
    · rw [if_pos hwait]
      refine Guarded.bind (guarded_readCandidates hpre) fun candidates => ?_
      cases candidates[decision.task - 1]? with
      | none => exact hno.of_pre fun _ _ hw => hw.2
      | some found =>
        dsimp only
        split
        · refine Guarded.bind ((guarded_readIdle hpre _).of_pre fun _ _ hw => hw.2) fun idle => ?_
          by_cases hidle : idle = true
          · rw [if_pos hidle]
            exact ((guarded_look hpre _).of_pre fun _ _ hw => hw.2).of_ok
              fun _ _ _ hp => ⟨fun _ => herror, hp⟩
          · rw [if_neg hidle]
            exact hno.of_pre fun _ _ hw => hw.2
        · exact hno.of_pre fun _ _ hw => hw.2
    · rw [if_neg hwait]
      exact hno
  · exact hno

theorem covers_upgraded {log : List Event} (h : Covers (some review) log)
    (herror : review.error = none) :
    Covers (some { review with state := .pending, attempts := 0 })
      (.saved { review with state := .pending, attempts := 0 } :: log) :=
  h.saved ((h.sound review rfl).upgraded herror) rfl fun hstate => absurd rfl hstate

theorem guarded_judge :
    Guarded Disturbs Kept
      (fun w => .evidence review.evidence ∈ sinceBegan w.log ∧ Approved review w)
      (judge project review) Opens := by
  have hpre := (lasting_seen (.evidence review.evidence)).and (lasting_approved review)
  unfold judge
  by_cases hretry : review.state = .retry
  · rw [if_pos hretry]
    refine guarded_pure fun w _ hw session heq => ?_
    cases hsession : review.retrySession with
    | none =>
      rw [hsession] at heq
      cases heq
    | some approved =>
      rw [hsession] at heq
      cases heq
      exact ⟨hw.2.idle hretry session hsession, review, hw.2.seen, hw.2.covers.sound review rfl,
        hretry, hsession, .inr hw.1⟩
  · rw [if_neg hretry]
    refine Guarded.bind (guarded_isUpgradable hpre) fun upgradable => ?_
    refine Guarded.of_fact fun herror => ?_
    by_cases hup : upgradable = true
    · rw [if_pos hup]
      exact Guarded.bind (guarded_saved hpre fun w hw => covers_upgraded hw.2.covers (herror hup))
        fun _ => guarded_answer fun _ h => (by cases h)
    · rw [if_neg hup]
      split
      · exact guarded_answer fun _ h => (by cases h)
      · split
        · exact guarded_answer fun _ h => (by cases h)
        · exact guarded_answer fun _ h => (by cases h)

theorem guarded_assess :
    Guarded Disturbs Kept (fun w => ∀ review, previous = some review → Approved review w)
      (assess project previous) Opens := by
  have hpre : Lasting fun w => ∀ review, previous = some review → Approved review w :=
    fun w w' hgrows h review hreview => lasting_approved review w w' hgrows (h review hreview)
  refine Guarded.bind (guarded_readEvidence hpre) fun current => ?_
  cases previous with
  | none => exact guarded_answer fun _ h => (by cases h)
  | some review =>
    dsimp only
    by_cases hsame : review.evidence = current
    · rw [if_pos hsame]
      subst hsame
      exact guarded_judge.of_pre fun w _ hw => ⟨hw.1, hw.2 review rfl⟩
    · rw [if_neg hsame]
      exact guarded_answer fun _ h => (by cases h)

theorem guarded_afterRetry (hasBlocked : Bool) :
    Guarded Disturbs Kept (Approved review) (afterRetry project hasBlocked review) Opens := by
  unfold afterRetry
  by_cases hblocked : hasBlocked = true
  · rw [if_pos hblocked]
    refine guarded_assess.of_pre fun w _ hw other hother => ?_
    cases hother
    exact hw
  · rw [if_neg hblocked]
    exact guarded_openGate (lasting_approved review)

theorem guarded_retryTask («sealed» : Bool) (hretry : review.state = .retry)
    (hsession : review.retrySession = some session)
    (hblocked : taskContentIsBlocked found.entry.content = false) :
    Guarded Disturbs Kept (fun w => .linked session [found] ∈ sinceBegan w.log ∧ Approved review w)
      (retryTask project «sealed» review session found) Opens := by
  have hpre := (lasting_seen (.linked session [found])).and (lasting_approved review)
  unfold retryTask
  by_cases howned : (taskContentIsStopped found.entry.content ||
      taskContentIsManual found.entry.content) = true
  · rw [if_pos howned]
    exact guarded_answer fun _ h => (by cases h)
  · rw [if_neg howned]
    rw [Bool.not_eq_true, Bool.or_eq_false_iff] at howned
    have hopens : ∀ w, .linked session [found] ∈ sinceBegan w.log ∧ Approved review w →
        Opens (.retry session) w := by
      intro w hw other heq
      cases heq
      exact ⟨hw.2.idle hretry session hsession, review, hw.2.seen, hw.2.covers.sound review rfl,
        hretry, hsession, .inl ⟨found, hw.1, hblocked, howned⟩⟩
    by_cases hsealed : «sealed» = true
    · rw [if_pos hsealed]
      refine Guarded.bind (guarded_readEvidence hpre) fun current => ?_
      split
      · exact guarded_pure fun w _ hw => hopens w hw.2
      · exact guarded_answer fun _ h => (by cases h)
    · rw [if_neg hsealed]
      exact guarded_pure fun w _ hw => hopens w hw

theorem guarded_retryGate («sealed» hasBlocked : Bool) (hretry : review.state = .retry) :
    Guarded Disturbs Kept (Approved review) (retryGate project «sealed» hasBlocked review)
      Opens := by
  unfold retryGate
  cases hsession : review.retrySession with
  | none => exact guarded_afterRetry hasBlocked
  | some session =>
    refine Guarded.bind (guarded_readLinked (lasting_approved review) session) fun linked => ?_
    split
    · rename_i found
      have hpre := (lasting_seen (.linked session [found])).and (lasting_approved review)
      refine Guarded.bind (guarded_look hpre _) fun available => ?_
      by_cases hready : (available && !taskContentIsBlocked found.entry.content) = true
      · rw [if_pos hready]
        rw [Bool.and_eq_true, Bool.not_eq_true'] at hready
        exact guarded_retryTask «sealed» hretry hsession hready.2
      · rw [if_neg hready]
        exact (guarded_afterRetry hasBlocked).of_pre fun _ _ hw => hw.2
    · exact (guarded_afterRetry hasBlocked).of_pre fun _ _ hw => hw.2

/-- What is known of the review that was just read. -/
def Known (previous : Option SupervisorReview) (w : Site) : Prop :=
  .review previous ∈ sinceBegan w.log ∧ Covers previous w.log

theorem lasting_known (previous : Option SupervisorReview) : Lasting (Known previous) :=
  (lasting_seen (.review previous)).and (lasting_covers previous)

theorem guarded_isHeldElsewhere :
    Guarded Disturbs Kept (Known previous) (isHeldElsewhere project previous) fun held w =>
      held = false → ∀ review, previous = some review → Approved review w := by
  unfold isHeldElsewhere
  cases hsession : (previous.filter fun review => review.state = .retry).bind
      SupervisorReview.retrySession with
  | none =>
    refine guarded_pure fun w _ hw _ review hreview => ?_
    subst hreview
    refine ⟨hw.1, hw.2, fun hstate session heq => ?_⟩
    rw [Option.filter_some, if_pos (by simpa using hstate), Option.bind_some, heq] at hsession
    cases hsession
  | some session =>
    refine Guarded.bind (guarded_readIdle (lasting_known previous) session) fun idle =>
      guarded_pure fun w _ hw hheld review hreview => ?_
    subst hreview
    refine ⟨hw.2.1, hw.2.2, fun hstate other heq => ?_⟩
    rw [Option.filter_some, if_pos (by simpa using hstate), Option.bind_some, heq] at hsession
    cases hsession
    exact hw.1 (by simpa using hheld)

theorem guarded_superviseGate (hasBlocked : Bool) :
    Guarded Disturbs Kept (fun _ => True) (superviseGate project hasBlocked) Opens := by
  refine Guarded.bind (guarded_look lasting_true _) fun «sealed» => ?_
  refine Guarded.bind (guarded_look lasting_true _) fun repeatedly => ?_
  refine Guarded.bind (guarded_look lasting_true _) fun hasBlocked => ?_
  refine Guarded.bind (guarded_readReview lasting_true) fun previous => ?_
  refine Guarded.bind ((guarded_look (lasting_known previous) _).of_pre fun _ _ hw => hw.1)
    fun canWait => ?_
  by_cases hwait : canWait = true
  · rw [if_pos hwait]
    exact guarded_openGate (lasting_known previous)
  · rw [if_neg hwait]
    refine Guarded.bind guarded_isHeldElsewhere fun held => ?_
    by_cases hheld : held = true
    · rw [if_pos hheld]
      exact guarded_answer fun _ h => (by cases h)
    · rw [if_neg hheld]
      rw [Bool.not_eq_true] at hheld
      cases previous with
      | none =>
        dsimp only
        split
        · exact guarded_assess.of_pre fun _ _ hw => hw hheld
        · exact (guarded_openGate lasting_true).of_pre fun _ _ _ => trivial
      | some review =>
        dsimp only
        by_cases hretry : review.state = .retry
        · rw [if_pos hretry]
          exact (guarded_retryGate «sealed» hasBlocked hretry).of_pre
            fun _ _ hw => hw hheld review rfl
        · rw [if_neg hretry]
          split
          · exact guarded_assess.of_pre fun _ _ hw => hw hheld
          · exact (guarded_openGate lasting_true).of_pre fun _ _ _ => trivial

theorem guarded_gate (hasBlocked : Bool) :
    Guarded Disturbs Kept (fun _ => True) (gate project hasBlocked) Opens := by
  refine Guarded.bind (guarded_readEnabled lasting_true) fun enabled => ?_
  by_cases henabled : enabled = true
  · rw [if_pos henabled]
    exact (guarded_superviseGate hasBlocked).of_pre fun _ _ _ => trivial
  · rw [if_neg henabled]
    exact guarded_answer fun _ h => (by cases h)

/-! ## Reviews -/

theorem begun_attempts (current : Evidence) (old : Option SupervisorReview) :
    (begun current old).attempts = attemptsOn current old + 1 := by
  unfold begun attemptsOn
  dsimp only
  split <;> rfl

theorem begun_evidence (current : Evidence) (old : Option SupervisorReview) :
    (begun current old).evidence = current := by
  unfold begun
  dsimp only
  split <;> rfl

theorem covers_begun {current : Evidence} {old : Option SupervisorReview} {log : List Event}
    (h : Covers old log) :
    Covers (some (begun current old)) (.saved (begun current old) :: log) := by
  refine h.saved (sound_begun h.sound) (begun_retries current old) fun _ => ?_
  have hcounted := h.counted current
  rw [begun_evidence, begun_attempts]
  split <;> omega

theorem guarded_beginReview :
    Guarded Disturbs Kept (fun _ => True) (beginReview project) fun _ _ => True := by
  refine Guarded.bind (guarded_readEvidence lasting_true) fun current => ?_
  refine Guarded.bind ((guarded_readReview (lasting_seen (.evidence current))).of_pre
    fun _ _ hw => hw.1) fun old => ?_
  refine Guarded.bind ((guarded_saved (lasting_covers old) fun _ hw => covers_begun hw).of_pre
    fun _ _ hw => hw.1.2) fun _ => ?_
  exact Guarded.bind (guarded_require _) fun _ => guarded_pure fun _ _ _ => trivial

/-- What `approve` makes of the review `old`. -/
structure Decides (old : SupervisorReview) (decision : Decision) (found : FoundTask)
    (seen : List Event) (review : SupervisorReview) : Prop where
  evidence : review.evidence = old.evidence
  attempts : review.attempts = old.attempts
  decided : review.decision = some decision
  sound : review.Sound
  held : decision.decision ≠ .retry → review.state = .held ∧ review.retries = old.retries
  retry : decision.decision = .retry → review.state = .retry ∧ review.retries = old.retries + 1 ∧
    ∃ session linked, review.retrySession = some session ∧
      recoverableCodexSessionIdFromTaskContent found.entry.content = some session ∧
        SeenIdle seen session ∧ .linked session [linked] ∈ seen

variable {old : SupervisorReview} {decision : Decision}

theorem lasting_decides :
    Lasting fun w => Decides old decision found (sinceBegan w.log) review := by
  rintro w w' hgrows h
  refine ⟨h.evidence, h.attempts, h.decided, h.sound, h.held, fun hretry => ?_⟩
  obtain ⟨hstate, hretries, session, linked, hsession, hrecover, hidle, hlinked⟩ := h.retry hretry
  exact ⟨hstate, hretries, session, linked, hsession, hrecover,
    lasting_seenIdle session w w' hgrows hidle, hgrows.seen hlinked⟩

theorem guarded_approve (hpre : Lasting pre) (hold : old.Sound)
    (hdecision : 0 < decision.task ∧ Text.trim decision.reason ≠ [] ∧
      Text.trim decision.nextAction ≠ []) :
    Guarded Disturbs Kept pre (approve project old decision found) fun review w =>
      Decides old decision found (sinceBegan w.log) review ∧ pre w := by
  have hsaid : ∀ d, some decision = some d →
      0 < d.task ∧ Text.trim d.reason ≠ [] ∧ Text.trim d.nextAction ≠ [] := by
    intro d hd
    cases hd
    exact hdecision
  unfold approve
  by_cases hretry : decision.decision = .retry
  · rw [if_pos hretry]
    refine Guarded.bind (guarded_require _) fun _ => Guarded.of_fact fun hbudget => ?_
    refine Guarded.bind (guarded_orFail _ _) fun session => Guarded.of_fact fun hsession => ?_
    refine Guarded.bind (guarded_readIdle hpre session) fun idle => ?_
    refine Guarded.bind (guarded_require _) fun _ => Guarded.of_fact fun hidle => ?_
    subst hidle
    refine Guarded.bind ((guarded_readLinked ((lasting_seenIdle session).and hpre) session).of_pre
      fun _ _ hw => ⟨hw.1 rfl, hw.2⟩) fun linked => ?_
    refine Guarded.bind (guarded_require _) fun _ => Guarded.of_fact fun hone => ?_
    obtain ⟨task, rfl⟩ := List.length_eq_one_iff.mp hone
    refine guarded_pure fun w _ hw =>
      ⟨⟨rfl, rfl, rfl, ?_, fun h => absurd hretry h, fun _ => ?_⟩, hw.2.2⟩
    · exact ⟨hbudget, hsaid, fun h => (by cases h), fun h => (by cases h), fun h => (by cases h),
        fun _ => ⟨Nat.succ_pos _, rfl, rfl, decision, rfl, hretry⟩⟩
    · exact ⟨rfl, rfl, session, task, rfl, hsession, hw.2.1, hw.1⟩
  · rw [if_neg hretry]
    refine guarded_pure fun w _ hp =>
      ⟨⟨rfl, rfl, rfl, ?_, fun _ => ⟨rfl, rfl⟩, fun h => absurd h hretry⟩, hp⟩
    exact ⟨hold.retries, hsaid, fun h => (by cases h), fun h => (by cases h), fun _ => .inl rfl,
      fun h => (by cases h)⟩

theorem covers_withEvidence {log : List Event} (h : Covers (some review) log)
    (hstate : review.state ≠ .reviewing) (current : Evidence) :
    Covers (some { review with evidence := current })
      (.saved { review with evidence := current } :: log) := by
  refine h.saved ((h.sound review rfl).withEvidence current) rfl fun _ => ?_
  dsimp only
  rw [if_neg hstate]
  exact (h.counted current).trans (attemptsOn_le current review)

theorem guarded_waitNote (hpre : Lasting pre) (today : Text) :
    Guarded Disturbs Kept pre (waitNote project today decision found) fun _ => pre := by
  unfold waitNote
  split
  · exact guarded_pure fun _ _ hp => hp
  · exact Guarded.bind (guarded_orFail _ _) fun _ =>
      Guarded.of_fact fun _ => guarded_noteTask hpre _ _

theorem guarded_deferWaiting (today : Text) (hstate : review.state ≠ .reviewing) :
    Guarded Disturbs Kept (fun w => Covers (some review) w.log)
      (deferWaiting project today review decision found) fun _ _ => True := by
  have hcovers := lasting_covers (some review)
  unfold deferWaiting
  split
  · refine Guarded.bind (guarded_look hcovers _) fun idle => ?_
    refine Guarded.bind (guarded_look hcovers _) fun working => ?_
    split
    · refine Guarded.bind (guarded_look hcovers _) fun doing => ?_
      refine Guarded.bind (guarded_orFail _ _) fun index => Guarded.of_fact fun _ => ?_
      refine Guarded.bind (guarded_waitNote hcovers today) fun _ => ?_
      refine Guarded.bind (guarded_look hcovers _) fun entry => ?_
      refine Guarded.bind (guarded_change hcovers _) fun _ => ?_
      refine Guarded.bind (guarded_change hcovers _) fun _ => ?_
      refine Guarded.bind (guarded_readEvidence hcovers) fun current => ?_
      exact (guarded_saved hcovers fun w hw => covers_withEvidence hw hstate current).of_pre
        fun _ _ hw => hw.2
    · exact guarded_pure fun _ _ _ => trivial
  · exact guarded_pure fun _ _ _ => trivial

theorem guarded_selectTask {candidates : List FoundTask} :
    Guarded Disturbs Kept pre (selectTask decision candidates) fun found w =>
      (0 < decision.task ∧ candidates[decision.task - 1]? = some found) ∧ pre w := by
  unfold selectTask
  by_cases hzero : decision.task = 0
  · rw [if_pos hzero]
    exact guarded_fail
  · rw [if_neg hzero]
    exact (guarded_orFail _ _).of_ok fun found w _ hw => ⟨⟨Nat.pos_of_ne_zero hzero, hw.1⟩, hw.2⟩

/-- What `finish_review` has seen before it decides. -/
structure Considered (old : SupervisorReview) (candidates : List FoundTask) (w : Site) : Prop where
  enabled : .enabled true ∈ sinceBegan w.log
  known : Known (some old) w
  evidence : .evidence old.evidence ∈ sinceBegan w.log
  candidates : .candidates candidates ∈ sinceBegan w.log

theorem lasting_considered (old : SupervisorReview) (candidates : List FoundTask) :
    Lasting (Considered old candidates) :=
  fun w w' hgrows h => ⟨hgrows.seen h.enabled, lasting_known _ w w' hgrows h.known,
    hgrows.seen h.evidence, hgrows.seen h.candidates⟩

/-- A decision on what was considered is warranted, and the retry that it approves is paid for. -/
theorem Considered.warranted {candidates : List FoundTask} {w : Site}
    (h : Considered old candidates w) (hd : Decides old decision found (sinceBegan w.log) review)
    (hfound : candidates[decision.task - 1]? = some found) :
    Warranted (sinceBegan w.log) review :=
  ⟨h.enabled, hd.evidence ▸ h.evidence, old, decision, found, candidates, h.known.1,
    hd.evidence.symm, hd.decided, h.candidates, hfound, hd.held, hd.retry⟩

theorem Decides.state_ne {seen : List Event} (hd : Decides old decision found seen review) :
    review.state ≠ .reviewing := by
  by_cases hretry : decision.decision = .retry
  · rw [(hd.retry hretry).1]
    decide
  · rw [(hd.held hretry).1]
    decide

/-- The retry that a decision approves is paid for. -/
theorem Decides.covers {seen log : List Event} (hd : Decides old decision found seen review)
    (h : Covers (some old) log) : Covers (some review) (.decided review :: log) := by
  have hpaid : approvals log ≤ old.retries := h.paid
  have hle : ∀ e, begunOn e (.decided review :: log) ≤ begunOn e log := by
    intro e
    rw [begunOn]
    split
    · exact Nat.zero_le _
    · exact le_rfl
  refine ⟨fun r hr => ?_, ?_, fun e => ?_, fun e => (hle e).trans (h.bounded e)⟩
  · cases hr
    exact hd.sound
  · by_cases hretry : decision.decision = .retry
    · obtain ⟨hstate, hretries, -⟩ := hd.retry hretry
      show approvals log + (if review.state = .retry then 1 else 0) ≤ review.retries
      rw [if_pos hstate, hretries]
      omega
    · obtain ⟨hstate, hretries⟩ := hd.held hretry
      show approvals log + (if review.state = .retry then 1 else 0) ≤ review.retries
      rw [hstate, if_neg (by decide), hretries]
      omega
  · refine (hle e).trans ((h.counted e).trans ?_)
    unfold attemptsOn
    rw [Option.filter_some, Option.filter_some, hd.evidence]
    split
    · exact hd.attempts.ge
    · exact le_rfl

theorem guarded_finishReview (today : Text) :
    Guarded Disturbs Kept (fun _ => True) (finishReview project today) fun _ _ => True := by
  refine Guarded.bind (guarded_lockBoard lasting_true) fun _ => ?_
  refine Guarded.bind (guarded_readEnabled lasting_true) fun enabled => ?_
  refine Guarded.bind (guarded_require _) fun _ => Guarded.of_fact fun henabled => ?_
  subst henabled
  have hseen := (lasting_seen (.enabled true)).and lasting_true
  refine Guarded.bind (guarded_readReview hseen) fun saved => ?_
  refine Guarded.bind (guarded_orFail _ _) fun old => Guarded.of_fact fun hsaved => ?_
  subst hsaved
  have hknown := (lasting_known (some old)).and hseen
  refine Guarded.bind (guarded_readEvidence hknown) fun current => ?_
  refine Guarded.bind (guarded_require _) fun _ => Guarded.of_fact fun hsame => ?_
  subst hsame
  have hevidence := (lasting_seen (.evidence old.evidence)).and hknown
  refine Guarded.bind (guarded_look hevidence _) fun decision => ?_
  refine Guarded.bind (guarded_require _) fun _ => Guarded.of_fact fun hsaid => ?_
  refine Guarded.bind (guarded_readCandidates hevidence) fun candidates => ?_
  refine Guarded.bind guarded_selectTask fun found => Guarded.of_fact fun hfound => ?_
  have hconsidered := lasting_considered old candidates
  -- What was read is sound, whatever has become of the saved review meanwhile.
  by_cases hold : old.Sound
  · refine Guarded.bind ((guarded_approve hconsidered hold ⟨hfound.1, hsaid⟩).of_pre
      fun w _ hw => ⟨hw.2.2.2.1, hw.2.2.1, hw.2.1, hw.1⟩) fun review => ?_
    by_cases hstate : review.state = .reviewing
    · exact fun fate hothers t w hw => absurd hstate hw.2.1.state_ne
    · refine Guarded.bind (guarded_saveDecision (lasting_decides.and hconsidered)
        (fun w hw => hw.1.covers hw.2.known.2) fun w hw => hw.2.warranted hw.1 hfound.2) fun _ => ?_
      exact Guarded.bind (guarded_deferWaiting today hstate) fun _ =>
        guarded_pure fun _ _ _ => trivial
  · exact fun fate hothers t w hw => absurd (hw.2.2.2.1.2.sound old rfl) hold

/-! ## Retries -/

/-- What `prepare_retry` has seen when it returns: a sound review that approved the retry, its
session idle and linked to one task that the user does not hold, and the evidence unchanged. -/
def Prepared (seen : List Event) : Prop :=
  ∃ review session found, .review (some review) ∈ seen ∧ review.Sound ∧ review.state = .retry ∧
    review.retrySession = some session ∧ SeenIdle seen session ∧ .linked session [found] ∈ seen ∧
      taskContentIsStopped found.entry.content = false ∧
        taskContentIsManual found.entry.content = false ∧ .evidence review.evidence ∈ seen

theorem Prepared.mono {seen seen' : List Event} (h : Prepared seen) (hsub : seen ⊆ seen') :
    Prepared seen' := by
  obtain ⟨review, session, found, hreview, hsound, hstate, hsession, hidle, hlinked, hstopped,
    hmanual, hevidence⟩ := h
  exact ⟨review, session, found, hsub hreview, hsound, hstate, hsession, hidle.mono hsub,
    hsub hlinked, hstopped, hmanual, hsub hevidence⟩

theorem guarded_prepareRetry (today : Text) :
    Guarded Disturbs Kept (fun _ => True) (prepareRetry project today) fun _ w =>
      Prepared (sinceBegan w.log) := by
  refine Guarded.bind (guarded_lockBoard lasting_true) fun _ => ?_
  refine Guarded.bind (guarded_readReview lasting_true) fun saved => ?_
  refine Guarded.bind (guarded_orFail _ _) fun review => Guarded.of_fact fun hsaved => ?_
  subst hsaved
  refine Guarded.bind (guarded_require _) fun _ => Guarded.of_fact fun happroved => ?_
  refine Guarded.bind (guarded_orFail _ _) fun session => Guarded.of_fact fun hsession => ?_
  have hknown := (lasting_known (some review)).and lasting_true
  refine Guarded.bind (guarded_readIdle hknown session) fun idle => ?_
  refine Guarded.bind (guarded_require _) fun _ => Guarded.of_fact fun hidle => ?_
  subst hidle
  have hseen := (lasting_seenIdle session).and hknown
  refine Guarded.bind ((guarded_readLinked hseen session).of_pre fun _ _ hw => ⟨hw.1 rfl, hw.2⟩)
    fun linked => ?_
  refine Guarded.bind (guarded_require _) fun _ => Guarded.of_fact fun hone => ?_
  obtain ⟨task, rfl⟩ := List.length_eq_one_iff.mp hone
  refine Guarded.bind (guarded_orFail _ _) fun found => Guarded.of_fact fun hfound => ?_
  cases hfound
  have hlinked := (lasting_seen (.linked session [task])).and hseen
  refine Guarded.bind (guarded_look hlinked _) fun available => ?_
  refine Guarded.bind (guarded_require _) fun _ => Guarded.of_fact fun hfree => ?_
  refine Guarded.bind (guarded_readEvidence hlinked) fun current => ?_
  refine Guarded.bind (guarded_require _) fun _ => Guarded.of_fact fun hsame => ?_
  subst hsame
  have hall := (lasting_seen (.evidence review.evidence)).and hlinked
  have hprepared : ∀ w, .evidence review.evidence ∈ sinceBegan w.log ∧
      .linked session [task] ∈ sinceBegan w.log ∧ SeenIdle (sinceBegan w.log) session ∧
        Known (some review) w ∧ True → Prepared (sinceBegan w.log) := by
    rintro w ⟨hevidence, hone, hidle, hknown, -⟩
    exact ⟨review, session, task, hknown.1, hknown.2.sound review rfl, happroved.1, hsession, hidle,
      hone, hfree.2.1, hfree.2.2, hevidence⟩
  split
  · exact guarded_pure fun w _ hw => hprepared w hw
  · refine Guarded.bind (guarded_noteTask hall _ _) fun _ => ?_
    refine Guarded.bind (guarded_readEvidence hall) fun current => ?_
    have hstate : review.state ≠ .reviewing := by
      rw [happroved.1]
      decide
    exact (guarded_save hall (fun w hw => covers_withEvidence hw.2.2.2.1.2 hstate current)
      fun w hw => (hprepared w hw).mono seen_saved).of_pre fun _ _ hw => hw.2

theorem covers_withError {log : List Event} (h : Covers (some review) log) (error : String) :
    Covers (some { review with state := .held, error := some error })
      (.saved { review with state := .held, error := some error } :: log) :=
  h.saved ((h.sound review rfl).withError error) rfl fun _ =>
    (h.counted review.evidence).trans (attemptsOn_le _ review)

theorem guarded_holdError (error : String) :
    Guarded Disturbs Kept (fun _ => True) (holdError error) fun _ _ => True := by
  refine Guarded.bind (guarded_readReview lasting_true) fun saved => ?_
  cases saved with
  | none => exact guarded_pure fun _ _ _ => trivial
  | some review =>
    exact (guarded_saved (lasting_covers (some review)) fun w hw =>
      covers_withError hw error).of_pre fun _ _ hw => hw.1.2

theorem guarded_noteFailedRetry (hpre : Lasting pre) (selection : AgentTaskSelection)
    (status : String) (today : Text) (old : Option SupervisorReview) :
    Guarded Disturbs Kept pre (noteFailedRetry project selection status today old)
      fun _ => pre := by
  unfold noteFailedRetry
  split
  · exact guarded_pure fun _ _ hp => hp
  · rename_i session hsession
    split
    · refine Guarded.bind (guarded_lockBoard hpre) fun _ => ?_
      refine Guarded.bind (guarded_readLinked hpre session) fun linked => ?_
      split
      · split
        · exact (guarded_noteTask hpre _ _).of_pre fun _ _ hw => hw.2
        · exact guarded_pure fun _ _ hw => hw.2
      · exact guarded_pure fun _ _ hw => hw.2
    · exact guarded_pure fun _ _ hp => hp

theorem covers_pending {log : List Event} {old : Option SupervisorReview} (h : Covers old log)
    (current : Evidence) :
    Covers (some ⟨current, .pending, 0, usedRetries old, none, none, none⟩)
      (.saved ⟨current, .pending, 0, usedRetries old, none, none, none⟩ :: log) :=
  h.saved (sound_pending h.sound) rfl fun hstate => absurd rfl hstate

theorem guarded_reviewAgain (old : Option SupervisorReview) :
    Guarded Disturbs Kept (fun w => Covers old w.log) (reviewAgain project old)
      fun _ _ => True := by
  have hcovers := lasting_covers old
  refine Guarded.bind (guarded_readCandidates hcovers) fun candidates => ?_
  split
  · exact (guarded_clear lasting_true).of_pre fun _ _ _ => trivial
  · refine Guarded.bind ((guarded_readEvidence hcovers).of_pre fun _ _ hw => hw.2) fun current => ?_
    exact (guarded_saved hcovers fun w hw => covers_pending hw current).of_pre
      fun _ _ hw => hw.2

theorem guarded_afterTaskRun (selection : AgentTaskSelection) (status : String) (today : Text) :
    Guarded Disturbs Kept (fun _ => True) (afterTaskRun project selection status today)
      fun _ _ => True := by
  refine Guarded.bind (guarded_readEnabled lasting_true) fun enabled => ?_
  split
  · refine Guarded.bind ((guarded_look lasting_true _).of_pre fun _ _ _ => trivial)
      fun concerned => ?_
    split
    · refine Guarded.bind (guarded_readReview lasting_true) fun old => ?_
      split
      · exact guarded_pure fun _ _ _ => trivial
      · refine Guarded.bind ((guarded_noteFailedRetry (lasting_covers old) selection status today
          old).of_pre fun _ _ hw => hw.1.2) fun _ => guarded_reviewAgain old
    · exact guarded_pure fun _ _ _ => trivial
  · exact guarded_pure fun _ _ _ => trivial

end Clt.Supervisor
