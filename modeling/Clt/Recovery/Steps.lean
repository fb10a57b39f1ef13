import Clt.Recovery.Maintenance

/-!
# Steps on the state directory

The rules for the steps of `Clt.Recovery.StateDir`, `Update` and `Maintenance`. A guard is
kept by whatever is written into the recovery marker (`MarkerSafe`); an assertion between two
steps does not look at the marker at all (`Unmarked`), so that what other users of the database
mark meanwhile leaves it as it is.
-/

namespace Clt

open Durable

variable {File α : Type}

/-- The assertion does not look at the recovery marker. -/
def Unmarked (pre : StateDir File → Prop) : Prop :=
  ∀ w required lock found, pre w →
    pre { w with required := required, markerLock := lock, failureFound := found }

/-- The guard holds whatever is marked, where an interrupted update is only marked when
nothing is marked yet. -/
structure MarkerSafe (I : StateDir File → Prop) : Prop where
  lock : ∀ w b, I w → I { w with markerLock := b }
  found : ∀ w reason, storageFailure reason = true → I w →
    I { w with required := some reason, failureFound := true }
  required : ∀ w reason, (reason = interruptedUpdateReason → w.required = none) → I w →
    I { w with required := some reason }

theorem MarkerSafe.stable {I : StateDir File → Prop} (h : MarkerSafe I) : Stable Marks I := by
  rintro w w' (rfl | ⟨-, reason, hreason, rfl⟩) hw
  · exact hw
  · exact h.found w reason hreason hw

theorem Unmarked.stable {pre : StateDir File → Prop} (h : Unmarked pre) : Stable Marks pre := by
  rintro w w' (rfl | ⟨-, reason, -, rfl⟩) hw
  · exact hw
  · exact h w (some reason) w.markerLock true hw

/-- What others mark meanwhile keeps the assertion, and so does the lock of the marker. -/
structure Steady (pre : StateDir File → Prop) : Prop where
  stable : Stable Marks pre
  lock : ∀ w b, pre w → pre { w with markerLock := b }

theorem Unmarked.steady {pre : StateDir File → Prop} (h : Unmarked pre) : Steady pre :=
  ⟨h.stable, fun w b hw => h w w.required b w.failureFound hw⟩

theorem steady_required : Steady fun w : StateDir File => w.required.isSome = true := by
  refine ⟨?_, fun _ _ h => h⟩
  rintro w w' (rfl | ⟨-, reason, -, rfl⟩) hw
  · exact hw
  · rfl

/-- While the marker is locked, nobody else marks anything. -/
theorem stable_locked (pre : StateDir File → Prop) :
    Stable Marks fun w => w.markerLock = true ∧ pre w := by
  rintro w w' (rfl | ⟨hlock, -⟩) hw
  · exact hw
  · exact absurd hw.1 (by rw [hlock]; decide)

section

variable {I pre : StateDir File → Prop} {ok : α → StateDir File → Prop}
  {post : StateDir File → Prop}

theorem guarded_change' {f : StateDir File → StateDir File} (hI : Stable Marks I)
    (hpre : Stable Marks pre) (h : ∀ w, I w → pre w → I (f w) ∧ post (f w)) :
    Guarded Marks I pre (change f) fun _ => post := by
  refine guarded_step hI hpre ?_ ?_
  · intro i w hw hp
    split
    · split
      · exact (h w hw hp).1
      · exact hw
    · exact (h w hw hp).1
  · intro i w a hw hp ha
    split at ha
    · cases ha
    · rw [if_neg ‹_›]
      exact (h w hw hp).2

theorem guarded_query' {f : StateDir File → Option α} (hI : Stable Marks I)
    (hpre : Stable Marks pre) (h : ∀ w a, I w → pre w → f w = some a → ok a w) :
    Guarded Marks I pre (query f) ok := by
  refine guarded_step hI hpre ?_ ?_
  · intro i w hw hp
    split <;> exact hw
  · intro i w a hw hp ha
    split at ha
    · cases ha
    · rw [if_neg ‹_›]
      cases hf : f w with
      | none => rw [hf] at ha; cases ha
      | some b =>
        rw [hf] at ha
        cases ha
        exact h w a hw hp hf

theorem guarded_look' {f : StateDir File → α} (hI : Stable Marks I) (hpre : Stable Marks pre)
    (h : ∀ w, I w → pre w → ok (f w) w) : Guarded Marks I pre (look f) ok :=
  guarded_step hI hpre (fun _ _ hw _ => hw) fun _ w a hw hp ha => by cases ha; exact h w hw hp

theorem guarded_demand' {c : StateDir File → Bool} {text : String} (hI : Stable Marks I)
    (hpre : Stable Marks pre) (h : ∀ w, I w → pre w → c w = true → post w) :
    Guarded Marks I pre (demand c text) fun _ => post := by
  refine guarded_step hI hpre (fun _ _ hw _ => hw) ?_
  intro _ w a hw hp ha
  dsimp only at ha
  split at ha
  · exact h w hw hp ‹_›
  · cases ha

variable (hI : MarkerSafe I) (hpre : Unmarked pre)

include hI hpre

theorem guarded_change {f : StateDir File → StateDir File}
    (h : ∀ w, I w → pre w → I (f w) ∧ post (f w)) : Guarded Marks I pre (change f) fun _ => post :=
  guarded_change' hI.stable hpre.stable h

theorem guarded_query {f : StateDir File → Option α}
    (h : ∀ w a, I w → pre w → f w = some a → ok a w) : Guarded Marks I pre (query f) ok :=
  guarded_query' hI.stable hpre.stable h

theorem guarded_effort : Guarded Marks I pre (effort : RegistryProgram File Unit) fun _ => pre :=
  guarded_query hI hpre fun _ _ _ hp _ => hp

theorem guarded_look {f : StateDir File → α} (h : ∀ w, I w → pre w → ok (f w) w) :
    Guarded Marks I pre (look f) ok :=
  guarded_look' hI.stable hpre.stable h

theorem guarded_demand {c : StateDir File → Bool} {text : String}
    (h : ∀ w, I w → pre w → c w = true → post w) :
    Guarded Marks I pre (demand c text) fun _ => post :=
  guarded_demand' hI.stable hpre.stable h

/-! ## Markers -/

/-- Under its lock the marker may be looked at. -/
theorem guarded_withMarkerLock {p : RegistryProgram File α}
    (h : Guarded Marks I (fun w => w.markerLock = true ∧ pre w) p ok)
    (hok : ∀ a, Steady (ok a)) : Guarded Marks I pre (withMarkerLock p) ok := by
  refine Guarded.through (fun _ w => w.markerLock = true ∧ pre w) ?_ fun _ => ?_
  · refine guarded_step hI.stable hpre.stable ?_ ?_
    · intro i w hw hp
      split
      · exact hw
      · exact hI.lock w true hw
    · intro i w a hw hp ha
      split at ha
      · cases ha
      · rw [if_neg ‹_›]
        exact ⟨rfl, hpre w w.required true w.failureFound hp⟩
  · refine Guarded.through (fun result w => ∀ a, result = .ok a → ok a w)
      h.attempt fun result => ?_
    refine Guarded.through (fun _ w => ∀ a, result = .ok a → ok a w) ?_ fun _ => ?_
    · have hkept : Stable Marks fun w => ∀ a, result = .ok a → ok a w :=
        fun w w' hr hw a ha => (hok a).stable w w' hr (hw a ha)
      refine guarded_step hI.stable hkept (fun _ w hw _ => hI.lock w false hw) ?_
      exact fun _ w _ _ hp _ a ha => (hok a).lock w false (hp a ha)
    · exact guarded_rethrow fun _ a _ hp ha => hp a ha

omit hpre in
/-- Under its lock, the marker is written as the guard allows. -/
theorem guarded_writeRequired {reason : String} (hpre : Stable Marks pre)
    (hreason : ∀ w, pre w → reason = interruptedUpdateReason → w.required = none)
    (hpost : ∀ w, pre w → post { w with required := some reason }) :
    Guarded Marks I pre (writeRequired reason) fun _ => post :=
  guarded_change' hI.stable hpre fun w hw hp =>
    ⟨hI.required w reason (hreason w hp) hw, hpost w hp⟩

theorem guarded_markRequired {reason : String} (h : reason ≠ interruptedUpdateReason) :
    Guarded Marks I pre (markRequired reason) fun _ => pre := by
  refine guarded_withMarkerLock hI hpre ?_ fun _ => hpre.steady
  refine guarded_writeRequired hI (stable_locked pre) (fun _ _ heq => absurd heq h) ?_
  exact fun w hw => hpre w (some reason) w.markerLock w.failureFound hw.2

theorem guarded_markRequired_isSome {reason : String} (h : reason ≠ interruptedUpdateReason) :
    Guarded Marks I pre (markRequired reason) fun _ w => w.required.isSome = true := by
  refine guarded_withMarkerLock hI hpre ?_ fun _ => steady_required
  exact guarded_writeRequired hI (stable_locked pre) (fun _ _ heq => absurd heq h)
    fun _ _ => rfl

omit hpre in
/-- A marked directory does not pass `check_required`. -/
theorem guarded_checkRequired_of_isSome :
    Guarded Marks I (fun w => w.required.isSome = true) checkRequired fun _ _ => False := by
  refine guarded_demand' hI.stable steady_required.stable fun w _ hw hc => ?_
  rw [Bool.and_eq_true, Option.isNone_iff_eq_none] at hc
  rw [hc.1] at hw
  cases hw

theorem guarded_checkRequired :
    Guarded Marks I pre checkRequired fun _ w => pre w ∧ w.progress = none := by
  refine guarded_demand hI hpre fun w _ hp hc => ⟨hp, ?_⟩
  rw [Bool.and_eq_true, Option.isNone_iff_eq_none, Option.isNone_iff_eq_none] at hc
  exact hc.2

omit hpre in
/-- A directory that passes `check_clean` passes `check_required`, and is not dirty. -/
theorem guarded_checkClean (hpost : Unmarked post)
    (h : Guarded Marks I pre checkRequired fun _ => post) :
    Guarded Marks I pre checkClean fun _ w => post w ∧ w.dirty = false := by
  refine Guarded.bind h fun _ => ?_
  refine Guarded.through (fun dirty w => post w ∧ w.dirty = dirty)
    (guarded_look hI hpost fun _ _ hw => ⟨hw, rfl⟩) fun dirty => ?_
  cases dirty with
  | false =>
    rw [Procedure.whenever, if_neg (by decide)]
    exact guarded_pure fun _ _ hw => hw
  | true =>
    rw [Procedure.whenever, if_pos rfl]
    -- The directory is dirty: under the lock, `check_required` fails at the latest when
    -- the marker has been written.
    have hlocked : Stable Marks fun w : StateDir File =>
        w.markerLock = true ∧ w.required = none := stable_locked _
    refine Guarded.within I (fun _ => True) (fun _ _ => False) (fun w hw _ => ⟨hw, trivial⟩) ?_
      (fun _ hw => hw) fun _ _ _ h => h.elim
    refine guarded_withMarkerLock hI (fun _ _ _ _ h => h) ?_ fun _ =>
      ⟨fun _ _ _ h => h, fun _ _ h => h⟩
    refine Guarded.through (fun _ w => w.markerLock = true ∧ w.required = none) ?_ fun _ =>
      Guarded.through (fun _ w => w.markerLock = true ∧ w.required.isSome = true) ?_ fun _ => ?_
    · refine guarded_demand' hI.stable (stable_locked _) fun w _ hw hc => ⟨hw.1, ?_⟩
      rw [Bool.and_eq_true, Option.isNone_iff_eq_none] at hc
      exact hc.1
    · exact guarded_writeRequired hI hlocked (fun _ hw _ => hw.2) fun _ hw => ⟨hw.1, rfl⟩
    · refine guarded_demand' hI.stable (stable_locked _) fun w _ hw hc => ?_
      rw [Bool.and_eq_true, Option.isNone_iff_eq_none] at hc
      rw [hc.1] at hw
      cases hw.2

end

end Clt
