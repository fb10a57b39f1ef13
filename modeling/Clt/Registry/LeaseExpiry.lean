import Clt.Registry.Operation
import Clt.Relational.DecimalText

/-!
# When a lease has expired

Four calls test whether a project's lease has expired. `try_acquire_lease` and the two
registrations compare the timestamps as text; the lease of a Git finalizer compares
them after a cast. `TestsAgree` asks of a pair of timestamps that all four decide as
the numbers do, and `leaseTests_agree_iff` says for which pairs they do.
-/

namespace Clt

open Relational Registry

namespace Registry

variable {db : Registry} {projectId : Int}

/-- A project has one lease. -/
theorem eq_of_lease {l l' : Lease} (hl : l ∈ db.leases) (hl' : l' ∈ db.leases)
    (h : l'.projectId = l.projectId) : l' = l :=
  Table.eq_of_conflict hl' hl (by simp [Keyed.conflict, h])

/-! ## Acquisition -/

theorem clearableLease_eq_false {acquiredAt : String} {l : Lease} (h : l.projectId ≠ projectId) :
    db.clearableLease projectId acquiredAt l = false := by
  simp [clearableLease, h]

/-- What `try_acquire_lease` does: the project's lease stays and the call is refused, or
every lease of the project may be cleared and only that project's row changes. -/
theorem tryAcquireLease_cases (projectId : Int) (holder acquiredAt expiresAt : String) :
    (∃ l ∈ db.leases, l.projectId = projectId ∧ db.clearableLease projectId acquiredAt l = false ∧
      db.tryAcquireLease projectId holder acquiredAt expiresAt = ⟨.ok false, db⟩) ∨
    (∀ l ∈ db.leases, l.projectId = projectId →
      db.clearableLease projectId acquiredAt l = true) ∧
    (db.tryAcquireLease projectId holder acquiredAt expiresAt).result ≠ .ok false ∧
    ∃ leases, (∀ l : Lease, l.projectId ≠ projectId → (l ∈ leases ↔ l ∈ db.leases)) ∧
      (db.tryAcquireLease projectId holder acquiredAt expiresAt).db =
        { db with leases := leases } := by
  let row : Lease := ⟨projectId, holder, acquiredAt, expiresAt⟩
  by_cases hkept : ∃ l ∈ db.leases, l.projectId = projectId ∧
      db.clearableLease projectId acquiredAt l = false
  · obtain ⟨l, hl, hp, hclear⟩ := hkept
    refine .inl ⟨l, hl, hp, hclear, ?_⟩
    -- The kept lease is the only one of its project, so the delete removes nothing.
    have hsame : db.leases.delete (db.clearableLease projectId acquiredAt) = db.leases := by
      refine Table.delete_eq_self (Table.count_eq_zero_iff.mpr fun l' hl' => ?_)
      by_cases hp' : l'.projectId = projectId
      · rwa [eq_of_lease hl hl' (hp'.trans hp.symm)]
      · exact clearableLease_eq_false hp'
    have hconflict : db.leases.any (fun a => Keyed.conflict a row) = true :=
      Table.any_iff.mpr ⟨l, hl, by simp [Keyed.conflict, row, hp]⟩
    have hinsert : db.insertOrIgnoreInto projectId db.leases row = some (db.leases, 0) :=
      if_pos hconflict
    simp only [tryAcquireLease, hsame]
    rw [hinsert]
    rfl
  · have hall : ∀ l ∈ db.leases, l.projectId = projectId →
        db.clearableLease projectId acquiredAt l = true := by
      intro l hl hp
      by_contra hclear
      exact hkept ⟨l, hl, hp, Bool.eq_false_of_not_eq_true hclear⟩
    have hfree : (db.leases.delete (db.clearableLease projectId acquiredAt)).any
        (fun a => Keyed.conflict a row) = false := by
      refine Table.any_eq_false_iff.mpr fun l hl => ?_
      obtain ⟨hl, hclear⟩ := Table.mem_delete.mp hl
      by_contra hp
      rw [Bool.not_eq_false] at hp
      rw [hall l hl (eq_of_beq hp)] at hclear
      cases hclear
    have hinsert : db.insertOrIgnoreInto projectId
        (db.leases.delete (db.clearableLease projectId acquiredAt)) row =
        if db.hasProject projectId then some (Table.append _ row hfree, 1) else none := by
      rw [insertOrIgnoreInto, if_neg (by rw [hfree]; decide), Table.insertOrIgnore_of_fresh hfree]
    have hothers : ∀ l : Lease, l.projectId ≠ projectId →
        (l ∈ db.leases.delete (db.clearableLease projectId acquiredAt) ↔ l ∈ db.leases) := by
      intro l hp
      simp [clearableLease_eq_false hp]
    refine .inr ⟨hall, ?_⟩
    simp only [tryAcquireLease]
    rw [hinsert]
    split_ifs
    · refine ⟨(by rintro ⟨⟩), _, fun l hp => ?_, rfl⟩
      have hne : l ≠ row := fun he => hp (congrArg Lease.projectId he)
      rw [Table.mem_append, hothers l hp, or_iff_left hne]
    · exact ⟨(by rintro ⟨⟩), _, hothers, rfl⟩

/-- A refused acquisition changes nothing. -/
theorem tryAcquireLease_refused {holder acquiredAt expiresAt : String}
    (h : (db.tryAcquireLease projectId holder acquiredAt expiresAt).result = .ok false) :
    (db.tryAcquireLease projectId holder acquiredAt expiresAt).db = db := by
  rcases db.tryAcquireLease_cases projectId holder acquiredAt expiresAt with
    ⟨_, -, -, -, he⟩ | ⟨-, hne, -⟩
  · rw [he]
  · exact absurd h hne

/-- An acquisition changes no lease of another project, and no other table. -/
theorem tryAcquireLease_others (holder acquiredAt expiresAt : String) :
    ∃ leases, (∀ l : Lease, l.projectId ≠ projectId → (l ∈ leases ↔ l ∈ db.leases)) ∧
      (db.tryAcquireLease projectId holder acquiredAt expiresAt).db =
        { db with leases := leases } := by
  rcases db.tryAcquireLease_cases projectId holder acquiredAt expiresAt with
    ⟨_, -, -, -, he⟩ | ⟨-, -, h⟩
  · exact ⟨db.leases, fun _ _ => Iff.rfl, by rw [he]⟩
  · exact h

/-- A lease gives way only when its text is not past the reading. -/
theorem le_of_tryAcquireLease {l : Lease} (hl : l ∈ db.leases) {holder acquiredAt expiresAt : String}
    (h : (db.tryAcquireLease l.projectId holder acquiredAt expiresAt).result = .ok true) :
    ¬ acquiredAt < l.expiresAt := by
  rcases db.tryAcquireLease_cases l.projectId holder acquiredAt expiresAt with
    ⟨_, -, -, -, he⟩ | ⟨hall, -⟩
  · rw [he] at h
    cases h
  · have hclear := hall l hl rfl
    simp only [clearableLease, Bool.and_eq_true, decide_eq_true_eq] at hclear
    exact hclear.1.1.2

/-! ## The lease of a Git finalizer -/

/-- The repaired fences do not depend on the reading of the clock. -/
theorem blocksFinalizer_repairRecoveryFences (now now' : String) :
    (db.repairRecoveryFences projectId now).blocksFinalizer projectId =
      (db.repairRecoveryFences projectId now').blocksFinalizer projectId := by
  refine congrArg₂ (· || ·) rfl ?_
  show (db.sessionControls.rows.map _).any _ = (db.sessionControls.rows.map _).any _
  rw [List.any_map, List.any_map]
  refine congrArg db.sessionControls.rows.any (funext fun sc => ?_)
  simp only [Function.comp_apply, Table.rewrite]
  split <;> rfl

/-- A new lease takes the place of the project's old one when that was cleared. -/
theorem insertLease_cleared {l : Lease} (row : Lease) (hl : l ∈ db.leases)
    (hrow : row.projectId = l.projectId) (clear : Lease → Bool) :
    (db.insertOrIgnoreInto l.projectId (db.leases.delete clear) row).map Prod.snd =
      if clear l then if db.hasProject l.projectId then some 1 else none else some 0 := by
  by_cases hclear : clear l = true
  · have hfree : (db.leases.delete clear).any (fun a => Keyed.conflict a row) = false := by
      refine Table.any_eq_false_iff.mpr fun l' hl' => ?_
      obtain ⟨hl', hkept⟩ := Table.mem_delete.mp hl'
      by_contra hp
      rw [Bool.not_eq_false] at hp
      rw [eq_of_lease hl hl' ((eq_of_beq hp).trans hrow), hclear] at hkept
      cases hkept
    rw [insertOrIgnoreInto, if_neg (by rw [hfree]; decide), Table.insertOrIgnore_of_fresh hfree,
      if_pos hclear]
    split_ifs <;> rfl
  · have hconflict : (db.leases.delete clear).any (fun a => Keyed.conflict a row) = true :=
      Table.any_iff.mpr ⟨l, Table.mem_delete.mpr ⟨hl, Bool.eq_false_of_not_eq_true hclear⟩,
        by simp [Keyed.conflict, hrow]⟩
    rw [insertOrIgnoreInto, if_pos hconflict, if_neg hclear]
    rfl

/-- The lease of a Git finalizer goes to a project with unfinished work that nothing
blocks, once the lease there is expired as a number or the one to be reclaimed. -/
theorem tryAcquireGitFinalizationLease_iff {l : Lease} (hl : l ∈ db.leases)
    {holder acquiredAt expiresAt : String} {reclaimHolder : Option String} :
    (db.tryAcquireGitFinalizationLease l.projectId holder acquiredAt expiresAt
      reclaimHolder).result = .ok true ↔
    (db.hasProject l.projectId = true ∧
      (db.gitFinalizations.any fun g =>
        g.projectId == l.projectId && g.state.isUnfinished) = true ∧
      (db.repairRecoveryFences l.projectId "").blocksFinalizer l.projectId = false) ∧
    (isReattachedHolder l.holder = false ∧ castInteger l.expiresAt ≤ castInteger acquiredAt ∨
      reclaimHolder = some l.holder) := by
  let db' := db.repairRecoveryFences l.projectId acquiredAt
  let row : Lease := ⟨l.projectId, holder, acquiredAt, expiresAt⟩
  have hblocks : db'.blocksFinalizer l.projectId =
      (db.repairRecoveryFences l.projectId "").blocksFinalizer l.projectId :=
    db.blocksFinalizer_repairRecoveryFences acquiredAt ""
  rw [← hblocks]
  let clear := db'.reclaimableLease l.projectId acquiredAt reclaimHolder
  have hclear : clear l = true ↔
      (isReattachedHolder l.holder = false ∧ castInteger l.expiresAt ≤ castInteger acquiredAt ∨
        reclaimHolder = some l.holder) ∧ db'.blocksFinalizer l.projectId = false :=
    reclaimableLease_iff.trans (and_iff_right rfl)
  have hinserted : (db'.insertOrIgnoreInto l.projectId (db'.leases.delete clear) row).map
      Prod.snd = some 1 ↔ clear l = true ∧ db.hasProject l.projectId = true := by
    have hcleared : (db'.insertOrIgnoreInto l.projectId (db'.leases.delete clear) row).map
        Prod.snd = if clear l then if db.hasProject l.projectId then some 1 else none else some 0 :=
      insertLease_cleared row hl rfl clear
    rw [hcleared]
    split_ifs <;> simp [*]
  have hpending : db'.gitFinalizations = db.gitFinalizations := rfl
  have hresult : (db.tryAcquireGitFinalizationLease l.projectId holder acquiredAt expiresAt
      reclaimHolder).result = .ok true ↔
      ((db'.gitFinalizations.any fun g =>
        g.projectId == l.projectId && g.state.isUnfinished) &&
        !(db'.blocksFinalizer l.projectId)) = true ∧
      (db'.insertOrIgnoreInto l.projectId (db'.leases.delete clear) row).map Prod.snd =
        some 1 := by
    show (db.transaction ((db'.insertFinalizerLease l.projectId holder acquiredAt expiresAt
      (db'.leases.delete clear)) >>= _)).result = _ ↔ _
    unfold insertFinalizerLease
    split
    · rename_i hguard
      simp only [hguard, true_and]
      show (db.transaction (fetch (db'.insertOrIgnoreInto l.projectId (db'.leases.delete clear)
        row) _ >>= _)).result = _ ↔ _
      cases db'.insertOrIgnoreInto l.projectId (db'.leases.delete clear) row with
      | none => exact ⟨nofun, nofun⟩
      | some p =>
        show (Except.ok (decide (p.2 = 1)) : Except String Bool) = .ok true ↔ some p.2 = some 1
        simp
    · rename_i hguard
      exact ⟨nofun, fun h => absurd h.1 hguard⟩
  rw [hresult, hinserted, hclear, hpending, Bool.and_eq_true, Bool.not_eq_true']
  -- What blocks the insert also blocks the clearing of the old lease.
  constructor
  · rintro ⟨⟨hpending, hfree⟩, ⟨hexpired, -⟩, hproject⟩
    exact ⟨⟨hproject, hpending, hfree⟩, hexpired⟩
  · rintro ⟨⟨hproject, hpending, hfree⟩, hexpired⟩
    exact ⟨⟨hpending, hfree⟩, ⟨hexpired, hfree⟩, hproject⟩

/-! ## Registrations -/

theorem count_textuallyUnexpired {l : Lease} (hl : l ∈ db.leases) {now : String} :
    db.leases.count (textuallyUnexpired l.projectId l.holder now) = 1 ↔ now < l.expiresAt := by
  rw [Table.count_eq_one_iff (q := Lease.of l.projectId) (r := l) (fun a b ha hb => ?_) hl
    (beq_self_eq_true _) fun a ha => ?_]
  · simp [textuallyUnexpired]
  · simp only [Lease.of, beq_iff_eq] at ha hb
    simp [Keyed.conflict, ha, hb]
  · simp only [textuallyUnexpired, Bool.and_eq_true] at ha
    exact ha.1.1

/-- A guardian's child is registered while the lease is unexpired as text. -/
theorem registerInteractiveGuardianChild_iff {l : Lease} (hl : l ∈ db.leases)
    {codexSessionId now freshExpiry : String} {childPid : Nat}
    {disposition : InteractiveGuardianDisposition}
    (hd : InteractiveGuardianDisposition.fromGuardianHolder l.holder = some disposition)
    (hlease : disposition.holdsProjectLease = true) :
    (db.registerInteractiveGuardianChild l.projectId codexSessionId l.holder childPid now
      freshExpiry).result = .ok true ↔
    now < l.expiresAt ∧
      db.sessionControls.count (awaitsChild l.projectId codexSessionId l.holder) = 1 := by
  have hrenewed : (!disposition.holdsProjectLease || decide (db.leases.count
      (textuallyUnexpired l.projectId l.holder now) = 1)) = true ↔ now < l.expiresAt := by
    rw [hlease, Bool.not_true, Bool.false_or, decide_eq_true_eq, count_textuallyUnexpired hl]
  refine succeeds_fetch.trans ⟨?_, ?_⟩
  · rintro ⟨found, hfound, h⟩
    obtain rfl : disposition = found := Option.some.inj (hd.symm.trans hfound)
    obtain ⟨hnow, h⟩ := succeeds_require.mp h
    obtain ⟨hcontrol, -⟩ := succeeds_require.mp h
    exact ⟨hrenewed.mp hnow, of_decide_eq_true hcontrol⟩
  · rintro ⟨hnow, hcontrol⟩
    refine ⟨disposition, hd, succeeds_require.mpr ⟨hrenewed.mpr hnow, ?_⟩⟩
    exact succeeds_require.mpr ⟨decide_eq_true hcontrol, rfl⟩

/-- The conditions of the registration of a known session, its lease apart. -/
def admitsKnownSession (db : Registry) (q : AgentKnownSessionRegistration) : Bool :=
  !(q.claimPlanningSession && (q.claimRequestedResume ||
    !(db.planningSessionCanStart q.projectId q.codexSessionId))) &&
  if q.claimRequestedResume then
    db.sessionControls.count (fun sc =>
      sc.is q.projectId q.codexSessionId && sc.state = .resumeRequested) = 1
  else
    !(db.sessionControls.any (SessionControl.is q.projectId q.codexSessionId)) ||
      db.sessionControls.count (fun sc => sc.is q.projectId q.codexSessionId &&
        (q.claimPlanningSession && sc.state = .stopped && sc.runToken.isNone && sc.isIdle)) = 1

/-- A known session is registered while the lease is unexpired as text. -/
theorem registerKnownSessionWithChild_iff {l : Lease} (hl : l ∈ db.leases)
    {q : AgentKnownSessionRegistration} {now freshExpiry : String}
    (hproject : q.projectId = l.projectId) (hholder : q.leaseHolder = l.holder) :
    (db.registerKnownSessionWithChild q now freshExpiry).result = .ok true ↔
    now < l.expiresAt ∧ db.admitsKnownSession q = true := by
  have hrenewed : decide (db.leases.count (textuallyUnexpired q.projectId q.leaseHolder now) = 1) =
      true ↔ now < l.expiresAt := by
    rw [hproject, hholder, decide_eq_true_eq, count_textuallyUnexpired hl]
  refine succeeds_require.trans (and_congr hrenewed (succeeds_require.trans ?_))
  rw [admitsKnownSession, Bool.and_eq_true]
  refine and_congr_right fun _ => ?_
  cases q.claimRequestedResume with
  | true => exact succeeds_require.trans (and_iff_left rfl)
  | false =>
    -- The upsert writes one row when the session has no control, or an idle stopped one.
    refine succeeds_require.trans ((and_iff_left rfl).trans (decide_eq_true_iff.trans ?_))
    refine (iff_of_eq (congrArg (· = 1) Table.upsert_snd)).trans ?_
    show (if db.sessionControls.any (SessionControl.is q.projectId q.codexSessionId) = false then 1
      else db.sessionControls.count _) = 1 ↔ _
    split
    · rename_i hnone
      simp [hnone]
    · rename_i hsome
      rw [Bool.not_eq_false] at hsome
      rw [hsome, if_neg Bool.false_ne_true, Bool.not_true, Bool.false_or, decide_eq_true_eq]
      rfl

end Registry

/-! ## The tests of a pair of timestamps -/

/-- All calls that test a lease treat the pair as the numbers do: an acquisition only
takes over a lease that has expired, and any other call whose remaining conditions hold,
in that some reading of the clock would let it through, goes by the number alone. -/
structure TestsAgree (now expires : String) : Prop where
  acquire : ∀ (db : Registry) (holder expiresAt : String), ∀ l ∈ db.leases,
    l.expiresAt = expires → l.holder ≠ holder →
    (db.tryAcquireLease l.projectId holder now expiresAt).result = .ok true →
    decimalValue expires ≤ decimalValue now
  finalization : ∀ (db : Registry) (holder expiresAt : String) (reclaimHolder : Option String),
    ∀ l ∈ db.leases, l.expiresAt = expires → reclaimHolder ≠ some l.holder →
    (∃ reading, (db.tryAcquireGitFinalizationLease l.projectId holder reading expiresAt
      reclaimHolder).result = .ok true) →
    ((db.tryAcquireGitFinalizationLease l.projectId holder now expiresAt
        reclaimHolder).result = .ok true ↔ decimalValue expires ≤ decimalValue now)
  guardianChild : ∀ (db : Registry) (codexSessionId freshExpiry : String) (childPid : Nat)
    (disposition : InteractiveGuardianDisposition), ∀ l ∈ db.leases, l.expiresAt = expires →
    InteractiveGuardianDisposition.fromGuardianHolder l.holder = some disposition →
    disposition.holdsProjectLease = true →
    (∃ reading, (db.registerInteractiveGuardianChild l.projectId codexSessionId l.holder childPid
      reading freshExpiry).result = .ok true) →
    ((db.registerInteractiveGuardianChild l.projectId codexSessionId l.holder childPid now
        freshExpiry).result = .ok true ↔ decimalValue now < decimalValue expires)
  knownSession : ∀ (db : Registry) (q : AgentKnownSessionRegistration) (freshExpiry : String),
    ∀ l ∈ db.leases, l.expiresAt = expires → q.projectId = l.projectId →
    q.leaseHolder = l.holder →
    (∃ reading, (db.registerKnownSessionWithChild q reading freshExpiry).result = .ok true) →
    ((db.registerKnownSessionWithChild q now freshExpiry).result = .ok true ↔
      decimalValue now < decimalValue expires)

/-- A guardian that waits for its child under a lease with this expiry. -/
def guardedRegistry (expires : String) : Registry :=
  { managedRegistry with
    leases := ⟨[
      { projectId := 1, holder := "clt-interactive-worker-9", acquiredAt := "1",
        expiresAt := expires }], List.pairwise_singleton _ _⟩
    sessionControls := ⟨[
      { SessionControl.fresh 1 "s" .interactive "1" with
        interactiveHolder := some "clt-interactive-worker-9"
        interactiveLaunchToken := some "clt-interactive-worker-9" }], by decide⟩ }

/-- An unfinished journal that waits for a lease with this expiry. -/
def unfinishedRegistry (expires : String) : Registry :=
  { managedRegistry with
    leases := ⟨[
      { projectId := 1, holder := "finalizer", acquiredAt := "1", expiresAt := expires }],
      List.pairwise_singleton _ _⟩
    sessionControls := .empty
    gitFinalizations := ⟨[
      { projectId := 1, codexSessionId := "s", state := .working, gitMode := .commit,
        startingHead := none, branchRef := none, upstreamRef := none, worktreeBaseline := "b",
        taskIdentity := none, ownerRunToken := none, commitOid := none, generation := 0,
        lastError := none, createdAt := "1", updatedAt := "1", completedAt := none,
        acknowledgedAt := none, acknowledgedRunId := none }], by decide⟩ }

section Pair

variable {now expires : String}

/-- The cast tells two canonical texts apart below the largest integer. -/
theorem castInteger_le_iff (hnow : CanonicalDecimal now) (hexpires : CanonicalDecimal expires) :
    (castInteger expires ≤ castInteger now ↔ decimalValue expires ≤ decimalValue now) ↔
      decimalValue expires ≤ decimalValue now ∨ (decimalValue now : Int) < maxInteger := by
  rw [hnow.castInteger_eq, hexpires.castInteger_eq]
  omega

theorem TestsAgree.of_agree (htext : now < expires ↔ decimalValue now < decimalValue expires)
    (hcast : castInteger expires ≤ castInteger now ↔ decimalValue expires ≤ decimalValue now) :
    TestsAgree now expires where
  acquire db holder expiresAt l hl he _ h := by
    have hle := le_of_tryAcquireLease hl h
    rw [he, htext, not_lt] at hle
    exact hle
  finalization db holder expiresAt reclaimHolder l hl he hreclaim := by
    rintro ⟨reading, h⟩
    rw [tryAcquireGitFinalizationLease_iff hl, or_iff_left hreclaim] at h ⊢
    rw [he, hcast]
    exact ⟨fun hnow => hnow.2.2, fun hle => ⟨h.1, h.2.1, hle⟩⟩
  guardianChild db codexSessionId freshExpiry childPid disposition l hl he hd hlease := by
    rintro ⟨reading, h⟩
    rw [registerInteractiveGuardianChild_iff hl hd hlease] at h ⊢
    rw [he, htext]
    exact and_iff_left h.2
  knownSession db q freshExpiry l hl he hproject hholder := by
    rintro ⟨reading, h⟩
    rw [registerKnownSessionWithChild_iff hl hproject hholder] at h ⊢
    rw [he, htext]
    exact and_iff_left h.2

/-- A guardian's child tells whether the texts are ordered as the numbers are. -/
theorem TestsAgree.text (h : TestsAgree now expires) (hexpires : CanonicalDecimal expires) :
    now < expires ↔ decimalValue now < decimalValue expires := by
  let l : Lease := ⟨1, "clt-interactive-worker-9", "1", expires⟩
  have hl : l ∈ (guardedRegistry expires).leases := List.mem_singleton.mpr rfl
  have hd : InteractiveGuardianDisposition.fromGuardianHolder l.holder = some .resumeExec := by
    show InteractiveGuardianDisposition.fromGuardianHolder "clt-interactive-worker-9" = _
    decide
  have hwaits : (guardedRegistry expires).sessionControls.count
      (awaitsChild l.projectId "s" l.holder) = 1 := rfl
  have hempty : "" < expires := by
    obtain ⟨d, ds, hs⟩ := List.exists_cons_of_ne_nil hexpires.nonempty
    rw [String.lt_iff, hs]
    exact List.nil_lt_cons d ds
  have hiff : ∀ reading, ((guardedRegistry expires).registerInteractiveGuardianChild l.projectId
      "s" l.holder 3 reading "").result = .ok true ↔ reading < expires := by
    intro reading
    rw [registerInteractiveGuardianChild_iff hl hd rfl]
    exact and_iff_left hwaits
  rw [← hiff now]
  exact h.guardianChild _ "s" "" 3 .resumeExec l hl rfl hd rfl ⟨"", (hiff "").mpr hempty⟩

/-- A finalizer's lease tells whether the casts are ordered as the numbers are. -/
theorem TestsAgree.cast (h : TestsAgree now expires) :
    castInteger expires ≤ castInteger now ↔ decimalValue expires ≤ decimalValue now := by
  let l : Lease := ⟨1, "finalizer", "1", expires⟩
  have hl : l ∈ (unfinishedRegistry expires).leases := List.mem_singleton.mpr rfl
  have hholder : isReattachedHolder l.holder = false := by
    show isReattachedHolder "finalizer" = false
    decide
  have hiff : ∀ reading, ((unfinishedRegistry expires).tryAcquireGitFinalizationLease l.projectId
      "other" reading "" none).result = .ok true ↔
        castInteger expires ≤ castInteger reading := by
    intro reading
    rw [tryAcquireGitFinalizationLease_iff hl, or_iff_left nofun]
    exact ⟨fun hr => hr.2.2, fun hr => ⟨⟨rfl, rfl, rfl⟩, hholder, hr⟩⟩
  rw [← hiff now]
  exact h.finalization _ "other" "" none l hl rfl nofun ⟨expires, (hiff expires).mpr le_rfl⟩

/-- Every lease test goes by the numbers exactly for the pairs whose leading digits agree
with their lengths and whose reading of the clock, if not past the expiry, fits an integer. -/
theorem testsAgree_iff (hnow : CanonicalDecimal now) (hexpires : CanonicalDecimal expires) :
    TestsAgree now expires ↔ LeadingDigitsAgree now expires ∧
      (decimalValue expires ≤ decimalValue now ∨ (decimalValue now : Int) < maxInteger) := by
  rw [← text_lt_iff_digitsValue_lt hnow hexpires, ← castInteger_le_iff hnow hexpires]
  exact ⟨fun h => ⟨h.text hexpires, h.cast⟩, fun h => .of_agree h.1 h.2⟩

/-- An acquisition that is refused changes nothing, and one that is not changes the row of
its project alone; and for a pair of canonical timestamps every lease test goes by the
numbers exactly when their leading digits agree with their lengths and the cast of the
reading does not overflow before the expiry. -/
theorem lease_expiry (hnow : CanonicalDecimal now) (hexpires : CanonicalDecimal expires) :
    (∀ (db : Registry) projectId holder acquiredAt expiresAt,
      ((db.tryAcquireLease projectId holder acquiredAt expiresAt).result = .ok false →
        (db.tryAcquireLease projectId holder acquiredAt expiresAt).db = db) ∧
      ∃ leases, (∀ l : Lease, l.projectId ≠ projectId → (l ∈ leases ↔ l ∈ db.leases)) ∧
        (db.tryAcquireLease projectId holder acquiredAt expiresAt).db =
          { db with leases := leases }) ∧
    (TestsAgree now expires ↔ LeadingDigitsAgree now expires ∧
      (decimalValue expires ≤ decimalValue now ∨ (decimalValue now : Int) < maxInteger)) :=
  ⟨fun _ _ _ _ _ => ⟨tryAcquireLease_refused, tryAcquireLease_others _ _ _⟩,
    testsAgree_iff hnow hexpires⟩

end Pair

/-- Timestamps of one length are safe. -/
theorem lease_expiry_sameLength : TestsAgree "1700000000" "1700000600" :=
  (lease_expiry ⟨List.all_eq_true.mp (by decide), by decide, by decide⟩
    ⟨List.all_eq_true.mp (by decide), by decide, by decide⟩).2.mpr
    ⟨.inl (by decide), .inr (by decide)⟩

/-- A lease that still has 600 seconds to run when timestamps gain a digit is taken over by
another holder. -/
theorem lease_lost_to_longerTimestamp :
    ((unfinishedRegistry "10000000599").tryAcquireLease 1 "other" "9999999999"
      "10000000799").result = .ok true ∧
    decimalValue "9999999999" < decimalValue "10000000599" :=
  ⟨by decide, by decide⟩

end Clt
