import Clt.Supervisor.Calls

/-!
# What every call of the supervisor keeps

The saved review is sound, it has paid for each retry that was approved since it was cleared, and
each decision in the log was taken on what its own call had seen. Every step of every call keeps
this, whatever else changes between the steps and wherever the call is killed; the user may clear
the review at any time.
-/

namespace Clt.Supervisor

open Durable

/-! ## Sound reviews -/

/-- What a saved review says can be acted on. -/
structure SupervisorReview.Sound (review : SupervisorReview) : Prop where
  retries : review.retries ≤ maxRetries
  decision : ∀ d, review.decision = some d →
    0 < d.task ∧ Text.trim d.reason ≠ [] ∧ Text.trim d.nextAction ≠ []
  pending : review.state = .pending → review.attempts = 0 ∧ review.error = none
  reviewing : review.state = .reviewing →
    0 < review.attempts ∧ review.attempts ≤ maxReviews ∧ review.decision = none ∧
      review.retrySession = none ∧ review.error = none
  held : review.state = .held → review.decision.isSome ∨ review.error.isSome
  retry : review.state = .retry → 0 < review.retries ∧ review.retrySession.isSome ∧
    review.error = none ∧ ∃ d, review.decision = some d ∧ d.decision = .retry

/-- The retries that a review has used; without a review there are none. -/
def usedRetries (review : Option SupervisorReview) : Nat := review.elim 0 (·.retries)

theorem SupervisorReview.Sound.withEvidence {review : SupervisorReview} (h : review.Sound)
    (current : Evidence) : SupervisorReview.Sound { review with evidence := current } :=
  ⟨h.retries, h.decision, h.pending, h.reviewing, h.held, h.retry⟩

theorem SupervisorReview.Sound.withError {review : SupervisorReview} (h : review.Sound)
    (error : String) :
    SupervisorReview.Sound { review with state := .held, error := some error } where
  retries := h.retries
  decision := h.decision
  pending hstate := by cases hstate
  reviewing hstate := by cases hstate
  held _ := .inr rfl
  retry hstate := by cases hstate

theorem SupervisorReview.Sound.upgraded {review : SupervisorReview} (h : review.Sound)
    (herror : review.error = none) :
    SupervisorReview.Sound { review with state := .pending, attempts := 0 } where
  retries := h.retries
  decision := h.decision
  pending _ := ⟨rfl, herror⟩
  reviewing hstate := by cases hstate
  held hstate := by cases hstate
  retry hstate := by cases hstate

theorem usedRetries_le {old : Option SupervisorReview}
    (hold : ∀ review, old = some review → review.Sound) : usedRetries old ≤ maxRetries := by
  cases old with
  | none => exact Nat.zero_le _
  | some review => exact (hold review rfl).retries

theorem begun_retries (current : Evidence) (old : Option SupervisorReview) :
    (begun current old).retries = usedRetries old := by
  unfold begun
  dsimp only
  split <;> rfl

theorem sound_begun {current : Evidence} {old : Option SupervisorReview}
    (hold : ∀ review, old = some review → review.Sound) : (begun current old).Sound := by
  have hretries := begun_retries current old ▸ usedRetries_le hold
  unfold begun at hretries ⊢
  dsimp only at hretries ⊢
  by_cases hlimit : maxReviews <
      (old.filter fun review => review.evidence = current).elim 0 (·.attempts) + 1
  · rw [if_pos hlimit] at hretries ⊢
    refine ⟨hretries, fun _ h => ?_, fun h => ?_, fun h => ?_, fun _ => .inr rfl, fun h => ?_⟩ <;>
      cases h
  · rw [if_neg hlimit] at hretries ⊢
    refine ⟨hretries, fun _ h => ?_, fun h => ?_,
      fun _ => ⟨Nat.succ_pos _, not_lt.mp hlimit, rfl, rfl, rfl⟩, fun h => ?_, fun h => ?_⟩ <;>
      cases h

theorem sound_pending {current : Evidence} {old : Option SupervisorReview}
    (hold : ∀ review, old = some review → review.Sound) :
    SupervisorReview.Sound ⟨current, .pending, 0, usedRetries old, none, none, none⟩ :=
  ⟨usedRetries_le hold, fun _ h => (by cases h), fun _ => ⟨rfl, rfl⟩, fun h => (by cases h),
    fun h => (by cases h), fun h => (by cases h)⟩

/-! ## The log -/

/-- What the call in progress has seen and done. -/
def sinceBegan (log : List Event) : List Event := log.takeWhile fun event => event ≠ .began

/-- The retries that were approved since the review was cleared last. -/
def approvals : List Event → Nat
  | [] => 0
  | .cleared :: _ => 0
  | .decided review :: log => approvals log + if review.state = .retry then 1 else 0
  | _ :: log => approvals log

/-- The reviews of the evidence `e` that were begun in a row: since the review was cleared or made
pending, or was one of other evidence. -/
def begunOn (e : Evidence) : List Event → Nat
  | [] => 0
  | .cleared :: _ => 0
  | .saved review :: log =>
    if review.evidence ≠ e ∨ review.state = .pending then 0
    else begunOn e log + if review.state = .reviewing then 1 else 0
  | .decided review :: log => if review.evidence ≠ e then 0 else begunOn e log
  | _ :: log => begunOn e log

/-- The attempts that a review counts for the evidence `e`. -/
def attemptsOn (e : Evidence) (review : Option SupervisorReview) : Nat :=
  (review.filter fun review => review.evidence = e).elim 0 (·.attempts)

/-- The session was seen with a control that lets it be resumed. -/
def SeenIdle (seen : List Event) (session : Text) : Prop :=
  ∃ control, .control session control ∈ seen ∧ isIdleControl control = true

/-- A decision was taken on what its call had seen: the supervisor was enabled, the evidence was
that of the review, and the task was among the candidates. A retry is approved for the session of
that task when it could be resumed and was linked to one task only, and it is counted. -/
structure Warranted (seen : List Event) (review : SupervisorReview) : Prop where
  enabled : .enabled true ∈ seen
  evidence : .evidence review.evidence ∈ seen
  decision : ∃ old d found candidates, .review (some old) ∈ seen ∧
    old.evidence = review.evidence ∧ review.decision = some d ∧ .candidates candidates ∈ seen ∧
      candidates[d.task - 1]? = some found ∧
        (d.decision ≠ .retry → review.state = .held ∧ review.retries = old.retries) ∧
        (d.decision = .retry → review.state = .retry ∧ review.retries = old.retries + 1 ∧
          ∃ session linked, review.retrySession = some session ∧
            recoverableCodexSessionIdFromTaskContent found.entry.content = some session ∧
              SeenIdle seen session ∧ .linked session [linked] ∈ seen)

/-- Every decision in the log is warranted by what its call had seen before. -/
def Justified : List Event → Prop
  | [] => True
  | .decided review :: log => Warranted (sinceBegan log) review ∧ Justified log
  | _ :: log => Justified log

/-- An event that begins no call and saves no review. -/
def Event.isQuiet : Event → Bool
  | .began | .decided _ | .saved _ => false
  | _ => true

/-- The log has grown by quiet events. -/
inductive Grows (log : List Event) : List Event → Prop where
  | refl : Grows log log
  | push {log' : List Event} {event : Event} : event.isQuiet = true → Grows log log' →
      Grows log (event :: log')

variable {log log' : List Event} {event : Event}

theorem approvals_quiet (h : event.isQuiet = true) : approvals (event :: log) ≤ approvals log := by
  cases event with
  | decided review => cases h
  | cleared => exact Nat.zero_le _
  | _ => exact le_rfl

theorem begunOn_quiet (e : Evidence) (h : event.isQuiet = true) :
    begunOn e (event :: log) ≤ begunOn e log := by
  cases event with
  | decided review => cases h
  | saved review => cases h
  | cleared => exact Nat.zero_le _
  | _ => exact le_rfl

theorem justified_quiet (h : event.isQuiet = true) : Justified (event :: log) ↔ Justified log := by
  cases event with
  | decided review => cases h
  | _ => exact Iff.rfl

theorem sinceBegan_quiet (h : event.isQuiet = true) :
    sinceBegan (event :: log) = event :: sinceBegan log := by
  have hne : event ≠ .began := by
    rintro rfl
    cases h
  rw [sinceBegan, List.takeWhile_cons_of_pos (by simpa using hne), sinceBegan]

theorem Grows.seen (h : Grows log log') : event ∈ sinceBegan log → event ∈ sinceBegan log' := by
  intro hmem
  induction h with
  | refl => exact hmem
  | push hquiet _ ih =>
    rw [sinceBegan_quiet hquiet]
    exact List.mem_cons_of_mem _ ih

/-! ## The guard -/

/-- The review is sound, pays for the retries that were approved, and counts the reviews that were
begun. -/
structure Covers (review : Option SupervisorReview) (log : List Event) : Prop where
  sound : ∀ r, review = some r → r.Sound
  paid : approvals log ≤ usedRetries review
  counted : ∀ e, begunOn e log ≤ attemptsOn e review
  bounded : ∀ e, begunOn e log ≤ maxReviews

theorem Covers.grows {review : Option SupervisorReview} (h : Covers review log)
    (hgrows : Grows log log') : Covers review log' := by
  induction hgrows with
  | refl => exact h
  | push hquiet _ ih =>
    exact ⟨ih.sound, (approvals_quiet hquiet).trans ih.paid,
      fun e => (begunOn_quiet e hquiet).trans (ih.counted e),
      fun e => (begunOn_quiet e hquiet).trans (ih.bounded e)⟩

theorem covers_cleared : Covers none (.cleared :: log) :=
  ⟨fun _ h => (by cases h), Nat.zero_le _, fun _ => Nat.zero_le _, fun _ => Nat.zero_le _⟩

theorem attemptsOn_le (e : Evidence) (review : SupervisorReview) :
    attemptsOn e (some review) ≤ review.attempts := by
  unfold attemptsOn
  rw [Option.filter_some]
  split
  · exact le_rfl
  · exact Nat.zero_le _

theorem attemptsOn_self {e : Evidence} {review : SupervisorReview} (h : review.evidence = e) :
    attemptsOn e (some review) = review.attempts := by
  rw [attemptsOn, Option.filter_some, if_pos (by simpa using h)]
  rfl

/-- A review that is saved again, with what it has paid for and counted. -/
theorem Covers.saved {old : Option SupervisorReview} {review : SupervisorReview}
    (h : Covers old log) (hsound : review.Sound) (hretries : review.retries = usedRetries old)
    (hcounted : review.state ≠ .pending → begunOn review.evidence log +
      (if review.state = .reviewing then 1 else 0) ≤ review.attempts) :
    Covers (some review) (.saved review :: log) := by
  have hle : ∀ e, begunOn e (.saved review :: log) ≤ attemptsOn e (some review) ∧
      begunOn e (.saved review :: log) ≤ maxReviews := by
    intro e
    rw [begunOn]
    by_cases hreset : review.evidence ≠ e ∨ review.state = .pending
    · rw [if_pos hreset]
      exact ⟨Nat.zero_le _, Nat.zero_le _⟩
    · rw [if_neg hreset]
      rw [not_or, not_not] at hreset
      obtain ⟨heq, hpending⟩ := hreset
      subst heq
      have hattempts := hcounted hpending
      refine ⟨hattempts.trans (attemptsOn_self rfl).ge, ?_⟩
      by_cases hreviewing : review.state = .reviewing
      · exact hattempts.trans (hsound.reviewing hreviewing).2.1
      · rw [if_neg hreviewing]
        exact h.bounded _
  refine ⟨fun r hr => ?_, h.paid.trans hretries.ge, fun e => (hle e).1, fun e => (hle e).2⟩
  cases hr
  exact hsound

/-- What the calls keep. -/
structure Kept (w : Site) : Prop where
  covers : Covers w.review w.log
  justified : Justified w.log

/-- What happens between the steps of a call: everything but the review may change, and the user
may clear the review. -/
def Disturbs (w w' : Site) : Prop :=
  (w'.review = w.review ∧ w'.log = w.log) ∨ (w'.review = none ∧ w'.log = .cleared :: w.log)

variable {w w' : Site}

theorem Disturbs.grows (h : Disturbs w w') : Grows w.log w'.log := by
  rcases h with ⟨-, hlog⟩ | ⟨-, hlog⟩
  · rw [hlog]
    exact .refl
  · rw [hlog]
    exact .push rfl .refl

theorem Kept.disturbed (h : Kept w) (hd : Disturbs w w') : Kept w' := by
  rcases hd with ⟨hreview, hlog⟩ | ⟨hreview, hlog⟩
  · exact ⟨by rw [hreview, hlog]; exact h.covers, hlog ▸ h.justified⟩
  · refine ⟨by rw [hreview, hlog]; exact covers_cleared, ?_⟩
    rw [hlog]
    exact h.justified

theorem stable_kept : Stable Disturbs Kept := fun _ _ hd h => h.disturbed hd

/-- What is known of the log stays known while the call goes on. -/
def Lasting (pre : Site → Prop) : Prop := ∀ w w', Grows w.log w'.log → pre w → pre w'

theorem lasting_covers (review : Option SupervisorReview) :
    Lasting fun w => Covers review w.log :=
  fun _ _ hgrows h => h.grows hgrows

theorem lasting_seen (event : Event) : Lasting fun w => event ∈ sinceBegan w.log :=
  fun _ _ hgrows h => hgrows.seen h

theorem lasting_true : Lasting fun _ => True := fun _ _ _ h => h

variable {pre pre' : Site → Prop}

theorem Lasting.and (h : Lasting pre) (h' : Lasting pre') : Lasting fun w => pre w ∧ pre' w :=
  fun w w' hgrows hw => ⟨h w w' hgrows hw.1, h' w w' hgrows hw.2⟩

theorem Lasting.stable (h : Lasting pre) : Stable Disturbs pre := fun w w' hd => h w w' hd.grows

theorem SeenIdle.mono {seen seen' : List Event} {session : Text} (h : SeenIdle seen session)
    (hsub : seen ⊆ seen') : SeenIdle seen' session := by
  obtain ⟨control, hseen, hidle⟩ := h
  exact ⟨control, hsub hseen, hidle⟩

theorem lasting_seenIdle (session : Text) : Lasting fun w => SeenIdle (sinceBegan w.log) session :=
  fun _ _ hgrows h => h.mono fun _ => hgrows.seen

/-! ## Steps -/

section

variable {α β : Type} {review : SupervisorReview}

theorem grows_noted (hevent : event.isQuiet = true) : Grows w.log (noted event w).log :=
  .push hevent .refl

theorem kept_noted (h : Kept w) (hevent : event.isQuiet = true) : Kept (noted event w) :=
  ⟨h.covers.grows (grows_noted hevent), (justified_quiet hevent).mpr h.justified⟩

theorem seen_noted (hevent : event.isQuiet = true) : event ∈ sinceBegan (noted event w).log := by
  rw [noted, sinceBegan_quiet hevent]
  exact List.mem_cons_self

theorem guarded_look (hpre : Lasting pre) (f : Site → Option α) :
    Guarded Disturbs Kept pre (look f) fun _ => pre := by
  refine guarded_step stable_kept hpre.stable (fun i w hw _ => ?_) fun i w a _ hp _ => ?_
  · by_cases hfails : i.fails = true
    · rw [if_pos hfails]
      exact hw
    · rw [if_neg hfails]
      exact hw
  · by_cases hfails : i.fails = true
    · rw [if_pos hfails]
      exact hp
    · rw [if_neg hfails]
      exact hp

/-- What is read is noted, and was there when it was read. -/
theorem guarded_observe (hpre : Lasting pre) {f : Site → Option α} {seen : α → Event}
    (hquiet : ∀ a, (seen a).isQuiet = true) :
    Guarded Disturbs Kept pre (observe f seen) fun a w =>
      seen a ∈ sinceBegan w.log ∧ pre w := by
  refine guarded_step stable_kept hpre.stable (fun i w hw _ => ?_) fun i w a _ hp hok => ?_
  · by_cases hfails : i.fails = true
    · rw [if_pos hfails]
      exact hw
    · rw [if_neg hfails]
      cases hf : f w with
      | none => exact hw
      | some a => exact kept_noted hw (hquiet a)
  · by_cases hfails : i.fails = true
    · rw [if_pos hfails] at hok
      cases hok
    · rw [if_neg hfails] at hok ⊢
      cases hf : f w with
      | none =>
        rw [hf] at hok
        cases hok
      | some b =>
        rw [hf] at hok
        cases hok
        exact ⟨seen_noted (hquiet a), hpre w _ (grows_noted (hquiet a)) hp⟩

theorem guarded_readReview (hpre : Lasting pre) :
    Guarded Disturbs Kept pre readReview fun found w =>
      (.review found ∈ sinceBegan w.log ∧ Covers found w.log) ∧ pre w := by
  refine guarded_step stable_kept hpre.stable (fun i w hw _ => ?_) fun i w a hw hp hok => ?_
  · by_cases hfails : i.fails = true
    · rw [if_pos hfails]
      exact hw
    · rw [if_neg hfails]
      exact kept_noted hw rfl
  · by_cases hfails : i.fails = true
    · rw [if_pos hfails] at hok
      cases hok
    · rw [if_neg hfails] at hok ⊢
      cases hok
      exact ⟨⟨seen_noted rfl, hw.covers.grows (grows_noted rfl)⟩,
        hpre w _ (grows_noted rfl) hp⟩

theorem guarded_change (hpre : Lasting pre) (f : Site → Option Site) :
    Guarded Disturbs Kept pre (change f) fun _ => pre := by
  refine guarded_step stable_kept hpre.stable (fun i w hw _ => ?_) fun i w a _ hp hok => ?_
  · cases f w with
    | none => exact hw
    | some after =>
      have hkept : Kept { w with root := after.root } := ⟨hw.covers, hw.justified⟩
      cases i.fails <;> cases i.late <;> first | exact hw | exact hkept
  · cases hf : f w with
    | none =>
      rw [hf] at hok
      cases hok
    | some after =>
      rw [hf] at hok
      dsimp only at hok ⊢
      by_cases hfails : i.fails = true
      · rw [if_pos hfails] at hok
        cases hok
      · rw [if_neg hfails]
        exact hpre w _ .refl hp

/-- A review is written that is sound and pays for what its event counts. -/
theorem guarded_writeReview (hpre : Stable Disturbs pre) {found : Option SupervisorReview}
    {post : Site → Prop}
    (hkept : ∀ w, Kept w → pre w → Kept (noted event { w with review := found }))
    (hpost : ∀ w, Kept w → pre w → post (noted event { w with review := found })) :
    Guarded Disturbs Kept pre (writeReview event found) fun _ => post := by
  refine guarded_step stable_kept hpre (fun i w hw hp => ?_) fun i w a hw hp hok => ?_
  · have hsaved := hkept w hw hp
    dsimp only
    cases i.fails <;> cases i.late <;> first | exact hw | exact hsaved
  · dsimp only at hok ⊢
    by_cases hfails : i.fails = true
    · rw [if_pos hfails] at hok
      cases hok
    · rw [if_neg hfails]
      exact hpost w hw hp

theorem guarded_save (hpre : Lasting pre) {post : Site → Prop}
    (hcovers : ∀ w, pre w → Covers (some review) (.saved review :: w.log))
    (hpost : ∀ w, pre w → post (noted (.saved review) { w with review := some review })) :
    Guarded Disturbs Kept pre (save review) fun _ => post :=
  guarded_writeReview hpre.stable (fun w hw hp => ⟨hcovers w hp, hw.justified⟩)
    fun w _ hp => hpost w hp

theorem guarded_saveDecision (hpre : Lasting pre)
    (hcovers : ∀ w, pre w → Covers (some review) (.decided review :: w.log))
    (hwarranted : ∀ w, pre w → Warranted (sinceBegan w.log) review) :
    Guarded Disturbs Kept pre (saveDecision review) fun _ w => Covers (some review) w.log :=
  guarded_writeReview hpre.stable
    (fun w hw hp => ⟨hcovers w hp, hwarranted w hp, hw.justified⟩) fun w _ hp => hcovers w hp

theorem guarded_saved (hpre : Lasting pre)
    (hcovers : ∀ w, pre w → Covers (some review) (.saved review :: w.log)) :
    Guarded Disturbs Kept pre (save review) fun _ _ => True :=
  guarded_save hpre hcovers fun _ _ => trivial

theorem seen_saved {w : Site} : sinceBegan w.log ⊆
    sinceBegan (noted (.saved review) { w with review := some review }).log := by
  intro event hevent
  rw [noted, sinceBegan, List.takeWhile_cons_of_pos (by simp)]
  exact List.mem_cons_of_mem _ hevent

theorem guarded_clear (hpre : Lasting pre) :
    Guarded Disturbs Kept pre clear fun _ => pre := by
  refine guarded_writeReview hpre.stable (fun w hw _ => ?_) fun w _ hp =>
    hpre w _ (.push rfl .refl) hp
  exact hw.disturbed (.inr ⟨rfl, rfl⟩)

theorem guarded_begin : Guarded Disturbs Kept (fun _ => True) begin fun _ _ => True :=
  guarded_step stable_kept lasting_true.stable
    (fun _ _ hw _ => ⟨⟨hw.covers.sound, hw.covers.paid, hw.covers.counted, hw.covers.bounded⟩,
      hw.justified⟩) fun _ _ _ _ _ _ => trivial

theorem guarded_require {c : Prop} [Decidable c] (message : String) :
    Guarded Disturbs Kept pre (require c message) fun _ w => c ∧ pre w := by
  unfold require Procedure.whenever
  by_cases hc : c
  · rw [if_neg (not_not_intro hc)]
    exact guarded_pure fun _ _ hp => ⟨hc, hp⟩
  · rw [if_pos hc]
    exact guarded_fail

theorem guarded_orFail (a : Option α) (message : String) :
    Guarded Disturbs Kept pre (orFail a message) fun b w => a = some b ∧ pre w := by
  cases a with
  | none => exact guarded_fail
  | some b => exact guarded_pure fun _ _ hp => ⟨rfl, hp⟩

end

end Clt.Supervisor
