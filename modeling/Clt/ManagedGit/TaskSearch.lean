import Clt.ManagedGit.History

/-!
# What the search for a task commit finds

The search finds a commit exactly when it is the one commit on the way from the starting head to
the tip of the branch that carries the session's trailer, it introduces the completion right on top
of the starting head, and the tip still shows it (`findAgentGitTaskCommit_iff`). Journals of version
one ask for more: no copy of the task is left that is still active.
-/

namespace Clt

open Interleave

/-! ## The checks -/

namespace GitObjects

variable {objects : GitObjects} {startingHead branchTip sessionId taskIdentity commit : String}
  {legacy : Bool} {startingCount : Nat}

theorem whenLegacy_eq_ok_false {check : Except String Bool} :
    whenLegacy legacy check = .ok false ↔ (legacy = true → check = .ok false) := by
  cases legacy with
  | false => exact ⟨nofun, fun _ => rfl⟩
  | true => exact ⟨fun h _ => h, fun h => h rfl⟩

theorem containsActiveTaskIdentity_eq_ok_false :
    objects.containsActiveTaskIdentity commit taskIdentity = .ok false ↔
      objects.activeIdentityCount commit taskIdentity = .ok 0 := by
  unfold containsActiveTaskIdentity
  cases objects.activeIdentityCount commit taskIdentity with
  | error e => exact ⟨nofun, nofun⟩
  | ok count => simp [bind, Except.bind, pure, Except.pure]

theorem countDiffers_eq_ok_false :
    objects.countDiffers commit taskIdentity startingCount = .ok false ↔
      objects.activeIdentityCount commit taskIdentity = .ok startingCount := by
  unfold countDiffers
  cases objects.activeIdentityCount commit taskIdentity with
  | error e => exact ⟨nofun, nofun⟩
  | ok count => simp [bind, Except.bind, pure, Except.pure]

/-- A check of the ends that has to be passed. -/
theorem unless_none_eq_ok_some {α : Type} {b : Bool} {r : α} {rest : Except String (Option α)} :
    (if b = true then pure none else rest) = .ok (some r) ↔ b = false ∧ rest = .ok (some r) := by
  cases b with
  | false => simp
  | true => exact ⟨nofun, fun h => nomatch h.1⟩

/-- A check of a commit that has to be passed. -/
theorem unless_false_eq_ok_true {b claims claims' : Bool} {rest : Except String (Bool × Bool)} :
    (if b = true then pure (claims, false) else rest) = .ok (claims', true) ↔
      b = false ∧ rest = .ok (claims', true) := by
  cases b with
  | false => simp
  | true => exact ⟨nofun, fun h => nomatch h.1⟩

/-- What the ends have to be for the search to go on. -/
theorem checkEnds_eq_ok_some :
    objects.checkEnds startingHead branchTip sessionId taskIdentity legacy =
        .ok (some startingCount) ↔
      objects.activeIdentityCount startingHead taskIdentity = .ok startingCount ∧
      (legacy = true → startingCount ≤ 1) ∧
      objects.isFirstParentAncestor startingHead branchTip = .ok true ∧
      objects.completedIdentity branchTip sessionId = .ok (some taskIdentity) ∧
      (legacy = true → objects.activeIdentityCount branchTip taskIdentity = .ok 0) ∧
      objects.completedIdentity startingHead sessionId = .ok none := by
  unfold checkEnds
  rw [← containsActiveTaskIdentity_eq_ok_false, ← whenLegacy_eq_ok_false,
    ← containsCompletedTask_eq_false_iff]
  simp only [bind_eq_ok, unless_none_eq_ok_some]
  constructor
  · rintro ⟨count, hcount, hlegacy, ancestor, hancestor, hisAncestor, shown, hshown, hisShown,
      active, hactive, rfl, completed, hcompleted, rfl, hdone⟩
    cases hdone
    refine ⟨hcount, fun hold => ?_, ?_, ?_, hactive, hcompleted⟩
    · simpa [hold] using hlegacy
    · simpa [hancestor] using hisAncestor
    · rw [hshown]
      simpa using hisShown
  · rintro ⟨hcount, hlegacy, hancestor, hshown, hactive, hcompleted⟩
    refine ⟨_, hcount, ?_, _, hancestor, rfl, _, hshown, by simp, _, hactive, rfl, _, hcompleted,
      rfl, rfl⟩
    cases hold : legacy with
    | false => rfl
    | true => simpa using hlegacy hold

/-- What a commit has to be to have introduced the completion. -/
theorem auditCommit_eq_ok_true {claims : Bool} :
    objects.auditCommit startingHead sessionId taskIdentity legacy startingCount commit =
        .ok (claims, true) ↔
      claims = true ∧
      objects.trailers commit = .ok [taskTrailer sessionId] ∧
      objects.usesAgentIdentity commit = .ok true ∧
      objects.completedIdentity commit sessionId = .ok (some taskIdentity) ∧
      (legacy = true → objects.activeIdentityCount commit taskIdentity = .ok 0) ∧
      objects.parents commit = .ok [startingHead] ∧
      objects.completedIdentity startingHead sessionId = .ok none ∧
      (legacy = true → objects.activeIdentityCount startingHead taskIdentity =
        .ok startingCount) := by
  unfold auditCommit
  rw [← containsActiveTaskIdentity_eq_ok_false, ← whenLegacy_eq_ok_false,
    ← countDiffers_eq_ok_false, ← whenLegacy_eq_ok_false, ← containsCompletedTask_eq_false_iff]
  simp only [bind_eq_ok, unless_false_eq_ok_true]
  constructor
  · rintro ⟨trailers, htrailers, hshape, agent, hagent, hisAgent, completed, hcompleted,
      hisCompleted, active, hactive, rfl, parents, hparents, hisParent, introduced, hintroduced,
      rfl, differs, hdiffers, rfl, hdone⟩
    cases hdone
    have honly : trailers = [taskTrailer sessionId] := by
      match trailers, hshape with
      | [], hshape => simp at hshape
      | [t], hshape => simpa using hshape
      | t :: u :: ts, hshape => simp at hshape
    subst honly
    refine ⟨by simp, htrailers, ?_, ?_, hactive, ?_, hintroduced, hdiffers⟩
    · simpa [hagent] using hisAgent
    · rw [hcompleted]
      simpa using hisCompleted
    · rw [hparents]
      simpa using hisParent
  · rintro ⟨rfl, htrailers, hagent, hcompleted, hactive, hparents, hintroduced, hdiffers⟩
    exact ⟨_, htrailers, by simp, _, hagent, rfl, _, hcompleted, by simp, _, hactive, rfl, _,
      hparents, by simp, _, hintroduced, rfl, _, hdiffers, rfl, by simp [pure, Except.pure]⟩

/-- A commit without the session's trailer is passed over. -/
theorem auditCommit_of_not_mem {trailers : List String}
    (htrailers : objects.trailers commit = .ok trailers)
    (hnone : taskTrailer sessionId ∉ trailers) :
    objects.auditCommit startingHead sessionId taskIdentity legacy startingCount commit =
      .ok (false, false) := by
  unfold auditCommit
  refine bind_eq_ok.mpr ⟨trailers, htrailers, ?_⟩
  have hclaims : trailers.contains (taskTrailer sessionId) = false := by simpa using hnone
  have hshape : (trailers.length != 1 || trailers.head? != some (taskTrailer sessionId)) = true := by
    match trailers, hnone with
    | [], _ => rfl
    | [t], hnone =>
      have hne : t ≠ taskTrailer sessionId := by
        rintro rfl
        exact hnone List.mem_cons_self
      simpa using hne
    | t :: u :: ts, _ => simp
  rw [if_pos hshape, hclaims]
  rfl

/-! ## The search -/

/-- Checks that all answer are the list of their answers. -/
theorem mapM_eq_ok_map {α β : Type} {f : α → Except String β} {g : α → β} {as : List α}
    (h : ∀ a ∈ as, f a = .ok (g a)) : as.mapM f = .ok (as.map g) := by
  induction as with
  | nil => rfl
  | cons a as ih =>
    rw [List.mapM_cons, h a List.mem_cons_self,
      ih fun b hb => h b (List.mem_cons_of_mem a hb)]
    rfl

/-- Two elements that the only counted one is are one. -/
theorem eq_of_countP_eq_one {α : Type} {p : α → Bool} {l : List α} (h : l.countP p = 1) {a b : α}
    (ha : a ∈ l) (hpa : p a = true) (hb : b ∈ l) (hpb : p b = true) : a = b := by
  rw [List.countP_eq_length_filter] at h
  obtain ⟨c, hc⟩ := List.length_eq_one_iff.mp h
  have hac : a ∈ [c] := hc ▸ List.mem_filter.mpr ⟨ha, hpa⟩
  have hbc : b ∈ [c] := hc ▸ List.mem_filter.mpr ⟨hb, hpb⟩
  rw [List.mem_singleton.mp hac, List.mem_singleton.mp hbc]

/-- The audits of a range. -/
def auditAll (objects : GitObjects) (startingHead sessionId taskIdentity : String) (legacy : Bool)
    (startingCount : Nat) (revisions : List String) : Except String (List (String × Bool × Bool)) :=
  revisions.mapM fun commit => do
    let audit ← objects.auditCommit startingHead sessionId taskIdentity legacy startingCount commit
    return (commit, audit)

/-- What the search concludes from the audits. -/
def verdict (audits : List (String × Bool × Bool)) : Option String :=
  let candidates := audits.filter fun a => a.2.2
  if candidates.length != 1 || (audits.countP fun a => a.2.1) != 1 then none
  else candidates.head?.map Prod.fst

/-- Past the ends, the search concludes from the audits of the range. -/
theorem sealedCommit_eq {revisions : List String}
    (hends : objects.checkEnds startingHead branchTip sessionId taskIdentity legacy =
      .ok (some startingCount))
    (hrange : objects.firstParentRange startingHead branchTip = .ok revisions) :
    objects.sealedCommit startingHead branchTip sessionId taskIdentity legacy =
      (objects.auditAll startingHead sessionId taskIdentity legacy startingCount revisions).map
        verdict := by
  unfold sealedCommit
  rw [hends]
  show (objects.firstParentRange startingHead branchTip >>= _) = _
  rw [hrange]
  show (objects.auditAll startingHead sessionId taskIdentity legacy startingCount revisions >>= _) =
    _
  cases objects.auditAll startingHead sessionId taskIdentity legacy startingCount revisions with
  | error e => rfl
  | ok audits =>
    show (if _ then _ else _) = Except.ok (verdict audits)
    unfold verdict
    dsimp only
    split
    · rfl
    · rfl

theorem auditAll_eq_map {revisions : List String} {f : String → Bool × Bool}
    (h : ∀ c ∈ revisions,
      objects.auditCommit startingHead sessionId taskIdentity legacy startingCount c =
        .ok (f c)) :
    objects.auditAll startingHead sessionId taskIdentity legacy startingCount revisions =
      .ok (revisions.map fun c => (c, f c)) := by
  refine mapM_eq_ok_map fun c hc => ?_
  rw [h c hc]
  rfl

/-- A commit that is passed over adds nothing to the verdict. -/
theorem verdict_append_passed (audits : List (String × Bool × Bool)) (passed : List String) :
    verdict (audits ++ passed.map fun c => (c, (false, false))) = verdict audits := by
  have hfilter : ((passed.map fun c => (c, (false, false))).filter fun a => a.2.2) = [] := by
    simp [List.filter_map]
  have hcount : (passed.map fun c => (c, (false, false))).countP (fun a => a.2.1) = 0 := by
    simp [List.countP_map]
  unfold verdict
  rw [List.filter_append, hfilter, List.append_nil, List.countP_append, hcount, Nat.add_zero]

/-- The search finds a commit that is the only one of the range with the session's trailer, once
the ends and the commit pass their checks. -/
theorem sealedCommit_of_audits {revisions : List String}
    (hends : objects.checkEnds startingHead branchTip sessionId taskIdentity legacy =
      .ok (some startingCount))
    (hrange : objects.firstParentRange startingHead branchTip = .ok revisions)
    (hnodup : revisions.Nodup) (hmem : commit ∈ revisions)
    (haudit : objects.auditCommit startingHead sessionId taskIdentity legacy startingCount commit =
      .ok (true, true))
    (hothers : ∀ c ∈ revisions, c ≠ commit →
      objects.auditCommit startingHead sessionId taskIdentity legacy startingCount c =
        .ok (false, false)) :
    objects.sealedCommit startingHead branchTip sessionId taskIdentity legacy =
      .ok (some commit) := by
  have haudits := auditAll_eq_map (f := fun c => (c == commit, c == commit)) fun c hc => by
    by_cases hcommit : c = commit
    · rw [hcommit, haudit, beq_self_eq_true]
    · rw [hothers c hc hcommit, beq_eq_false_iff_ne.mpr hcommit]
  have hone : revisions.filter (fun c => c == commit) = [commit] := by
    rw [List.filter_beq, List.count_eq_one_of_mem hnodup hmem]
    rfl
  have hfilter : ((revisions.map fun c => (c, (c == commit, c == commit))).filter fun a => a.2.2) =
      [(commit, (true, true))] := by
    rw [List.filter_map]
    show (revisions.filter fun c => c == commit).map _ = _
    rw [hone, List.map_singleton, beq_self_eq_true]
  have hcount : (revisions.map fun c => (c, (c == commit, c == commit))).countP (fun a => a.2.1) =
      1 := by
    rw [List.countP_map, List.countP_eq_length_filter]
    show (revisions.filter fun c => c == commit).length = 1
    rw [hone]
    rfl
  rw [sealedCommit_eq hends hrange, haudits]
  show Except.ok (verdict _) = _
  unfold verdict
  rw [hfilter, hcount]
  rfl

/-- What the search has checked of the commit that it finds. -/
theorem checks_of_sealedCommit
    (h : objects.sealedCommit startingHead branchTip sessionId taskIdentity legacy =
      .ok (some commit)) :
    ∃ startingCount, objects.checkEnds startingHead branchTip sessionId taskIdentity legacy =
        .ok (some startingCount) ∧
      objects.auditCommit startingHead sessionId taskIdentity legacy startingCount commit =
        .ok (true, true) := by
  unfold sealedCommit at h
  obtain ⟨ends, hends, h⟩ := bind_eq_ok.mp h
  match ends, h with
  | none, h => cases h
  | some startingCount, h =>
    obtain ⟨revisions, -, h⟩ := bind_eq_ok.mp h
    obtain ⟨audits, hmap, h⟩ := bind_eq_ok.mp h
    simp only at h
    split at h
    · cases h
    · obtain ⟨a, ha, rfl⟩ := Option.map_eq_some_iff.mp (Except.ok.inj h)
      obtain ⟨hmem, hintroduced⟩ := List.mem_filter.mp (List.mem_of_head? ha)
      have haudit := (audits_of_mapM hmap).2 a hmem
      have hclaims : a.2 = (true, true) := by
        obtain ⟨oid, claims, introduced⟩ := a
        simp only at hintroduced
        subst hintroduced
        rw [(auditCommit_eq_ok_true.mp haudit).1]
      exact ⟨startingCount, hends, hclaims ▸ haudit⟩

/-- The ends of two searches from one starting head are checked alike when Git answers alike. -/
theorem checkEnds_congr {branchTip' : String}
    (hancestor : objects.isFirstParentAncestor startingHead branchTip' =
      objects.isFirstParentAncestor startingHead branchTip)
    (hshown : objects.completedIdentity branchTip' sessionId =
      objects.completedIdentity branchTip sessionId)
    (hactive : objects.activeIdentityCount branchTip' taskIdentity =
      objects.activeIdentityCount branchTip taskIdentity) :
    objects.checkEnds startingHead branchTip' sessionId taskIdentity legacy =
      objects.checkEnds startingHead branchTip sessionId taskIdentity legacy := by
  unfold checkEnds containsActiveTaskIdentity
  rw [hancestor, hshown, hactive]

/-- Nothing goes wrong at the ends once everything about them can be read. -/
theorem checkEnds_of_readable {count active : Nat} {isAncestor : Bool}
    {shown completed : Option String}
    (hcount : objects.activeIdentityCount startingHead taskIdentity = .ok count)
    (hancestor : objects.isFirstParentAncestor startingHead branchTip = .ok isAncestor)
    (hshown : objects.completedIdentity branchTip sessionId = .ok shown)
    (hactive : objects.activeIdentityCount branchTip taskIdentity = .ok active)
    (hcompleted : objects.completedIdentity startingHead sessionId = .ok completed) :
    ∃ ends, objects.checkEnds startingHead branchTip sessionId taskIdentity legacy = .ok ends := by
  have hlegacy : ∃ b, whenLegacy legacy (objects.containsActiveTaskIdentity branchTip
      taskIdentity) = .ok b := by
    unfold containsActiveTaskIdentity
    rw [hactive]
    cases legacy with
    | false => exact ⟨_, rfl⟩
    | true => exact ⟨_, rfl⟩
  obtain ⟨b, hb⟩ := hlegacy
  unfold checkEnds containsCompletedTask
  simp only [hcount, hancestor, hshown, hb, hcompleted, bind, Except.bind, pure, Except.pure]
  split_ifs <;> exact ⟨_, rfl⟩

/-- A search that cannot read the starting head fails. -/
theorem sealedCommit_of_unreadable {error : String}
    (hcount : objects.activeIdentityCount startingHead taskIdentity = .error error) :
    objects.sealedCommit startingHead branchTip sessionId taskIdentity legacy = .error error := by
  unfold sealedCommit checkEnds
  rw [hcount]
  rfl

/-- A search below the starting head finds nothing. -/
theorem sealedCommit_of_not_ancestor
    (hcount : objects.activeIdentityCount startingHead taskIdentity = .ok startingCount)
    (hancestor : objects.isFirstParentAncestor startingHead branchTip = .ok false) :
    objects.sealedCommit startingHead branchTip sessionId taskIdentity legacy = .ok none := by
  have hends : objects.checkEnds startingHead branchTip sessionId taskIdentity legacy =
      .ok none := by
    unfold checkEnds
    simp only [hcount, hancestor, bind, Except.bind, pure, Except.pure]
    split
    · rfl
    · rfl
  unfold sealedCommit
  rw [hends]
  rfl

/-- Commits that are passed over at the end of a range make no difference. -/
theorem sealedCommit_append {branchTip' : String} {revisions more : List String}
    (hends : objects.checkEnds startingHead branchTip sessionId taskIdentity legacy =
      .ok (some startingCount))
    (hends' : objects.checkEnds startingHead branchTip' sessionId taskIdentity legacy =
      .ok (some startingCount))
    (hrange : objects.firstParentRange startingHead branchTip = .ok revisions)
    (hrange' : objects.firstParentRange startingHead branchTip' = .ok (revisions ++ more))
    (hmore : ∀ c ∈ more,
      objects.auditCommit startingHead sessionId taskIdentity legacy startingCount c =
        .ok (false, false)) :
    objects.sealedCommit startingHead branchTip' sessionId taskIdentity legacy =
      objects.sealedCommit startingHead branchTip sessionId taskIdentity legacy := by
  have hall : objects.auditAll startingHead sessionId taskIdentity legacy startingCount
      (revisions ++ more) = (objects.auditAll startingHead sessionId taskIdentity legacy
        startingCount revisions).map fun audits =>
          audits ++ more.map fun c => (c, (false, false)) := by
    have hpassed := auditAll_eq_map hmore
    unfold auditAll at hpassed ⊢
    rw [List.mapM_append, hpassed]
    generalize revisions.mapM (_ : String → Except String (String × Bool × Bool)) = audits
    cases audits with
    | error e => rfl
    | ok audits => rfl
  rw [sealedCommit_eq hends hrange, sealedCommit_eq hends' hrange', hall]
  cases objects.auditAll startingHead sessionId taskIdentity legacy startingCount revisions with
  | error e => rfl
  | ok audits => exact congrArg Except.ok (verdict_append_passed audits more)

/-- A range that is passed over holds no task commit. -/
theorem sealedCommit_eq_ok_none {ends : Option Nat} {revisions : List String}
    (hends : objects.checkEnds startingHead branchTip sessionId taskIdentity legacy = .ok ends)
    (hrange : objects.firstParentRange startingHead branchTip = .ok revisions)
    (hpassed : ∀ count, ∀ c ∈ revisions,
      objects.auditCommit startingHead sessionId taskIdentity legacy count c =
        .ok (false, false)) :
    objects.sealedCommit startingHead branchTip sessionId taskIdentity legacy = .ok none := by
  cases ends with
  | none =>
    unfold sealedCommit
    rw [hends]
    rfl
  | some count =>
    rw [sealedCommit_eq hends hrange, auditAll_eq_map (hpassed count)]
    exact congrArg Except.ok (verdict_append_passed [] revisions)

end GitObjects

/-! ## Histories -/

namespace GitHistory

variable {g : GitHistory} {others : GitObjects}
  {startingHead tip sessionId taskIdentity commit : String}

/-- The commit carries the session's trailer. -/
def Carries (g : GitHistory) (sessionId oid : String) : Prop :=
  ∃ c, g.commit oid = some c ∧ taskTrailer sessionId ∈ c.taskTrailers

theorem read_eq_ok {α : Type} {oid : String} {f : GitCommit → Except String α} {r : α} :
    g.read oid f = .ok r ↔ ∃ c, g.commit oid = some c ∧ f c = .ok r := by
  unfold read
  cases g.commit oid with
  | none => exact ⟨nofun, fun ⟨_, h, _⟩ => nomatch h⟩
  | some c => simp

/-- Every commit of a path to an existing tip exists. -/
theorem exists_of_mem_path {path : List String}
    (hpath : g.graph.MainlinePath startingHead tip path) (htip : (g.commit tip).isSome = true)
    {oid : String} (hoid : oid ∈ path) : ∃ c, g.commit oid = some c := by
  induction hpath with
  | refl => cases hoid
  | step parent below ih =>
    rename_i tip p path
    obtain ⟨c, hc⟩ := Option.isSome_iff_exists.mp htip
    rcases List.mem_append.mp hoid with hoid | hoid
    · refine ih (g.parents_exist tip c hc p ?_) hoid
      have hmem := List.mem_of_head? parent
      simpa [graph, hc] using hmem
    · exact ⟨c, List.mem_singleton.mp hoid ▸ hc⟩

theorem exists_of_taskEntries {oid : String} {entries : List GitTaskProofEntry}
    (h : g.taskEntries oid = .ok entries) : (g.commit oid).isSome = true := by
  obtain ⟨c, hc, -⟩ := read_eq_ok.mp h
  rw [hc]
  rfl

theorem completedIdentity_eq_ok {oid : String} {r : Option String} :
    g.completedIdentity oid sessionId = .ok r ↔ ∃ entries, g.taskEntries oid = .ok entries ∧
      (completedTaskIdentity sessionId.toList entries).map String.ofList = r := by
  unfold completedIdentity
  rw [bind_eq_ok]
  simp only [pure, Except.pure, Except.ok.injEq]

theorem activeIdentityCount_eq_ok {oid : String} {count : Nat} :
    g.activeIdentityCount oid taskIdentity = .ok count ↔ ∃ entries,
      g.taskEntries oid = .ok entries ∧
        activeTaskIdentityCount taskIdentity.toList entries = count := by
  unfold activeIdentityCount
  rw [bind_eq_ok]
  simp only [pure, Except.pure, Except.ok.injEq]

/-- Git calls the starting head a first-parent ancestor when a path leads from it to the tip. -/
theorem isFirstParentAncestor_iff (htip : (g.commit tip).isSome = true) :
    (g.objects others).isFirstParentAncestor startingHead tip = .ok true ↔
      ∃ path, g.graph.MainlinePath startingHead tip path := by
  obtain ⟨c, hc⟩ := Option.isSome_iff_exists.mp htip
  unfold objects
  dsimp only
  split
  · rename_i hsame
    exact ⟨fun _ => ⟨[], hsame ▸ .refl⟩, fun _ => rfl⟩
  · rw [read_eq_ok]
    constructor
    · rintro ⟨-, -, hmem⟩
      exact Graph.History.exists_path_of_mem (by simpa using hmem)
    · rintro ⟨path, hpath⟩
      exact ⟨c, hc, by simpa using hpath.start_mem⟩

theorem isFirstParentAncestor_eq_ok_false (htip : (g.commit tip).isSome = true)
    (hnone : ¬∃ path, g.graph.MainlinePath startingHead tip path) :
    (g.objects others).isFirstParentAncestor startingHead tip = .ok false := by
  have hnot : ¬(g.objects others).isFirstParentAncestor startingHead tip = .ok true :=
    mt (isFirstParentAncestor_iff htip).mp hnone
  obtain ⟨c, hc⟩ := Option.isSome_iff_exists.mp htip
  unfold objects at hnot ⊢
  dsimp only at hnot ⊢
  split at hnot
  · exact absurd rfl hnot
  · rename_i hne
    rw [if_neg hne]
    refine read_eq_ok.mpr ⟨c, hc, ?_⟩
    rw [read_eq_ok] at hnot
    refine congrArg Except.ok (Bool.eq_false_iff.mpr fun hmem => hnot ⟨c, hc, ?_⟩)
    rw [hmem]

/-! ## The commit that is found -/

/-- What makes a commit the task commit: it is the one commit of the path that carries the
session's trailer, it carries no other, it is the agent's, it completes the task right on top of
the starting head, which does not, and the tip still shows the completion. -/
structure IsTaskCommit (g : GitHistory) (startingHead tip sessionId taskIdentity commit : String) :
    Prop where
  path : ∃ path, g.graph.MainlinePath startingHead tip path ∧ commit ∈ path ∧
    ∀ c ∈ path, g.Carries sessionId c → c = commit
  made : ∃ c, g.commit commit = some c ∧ c.taskTrailers = [taskTrailer sessionId] ∧
    c.usesAgentIdentity = true ∧ c.parents = [startingHead]
  completes : g.completedIdentity commit sessionId = .ok (some taskIdentity)
  introduces : g.completedIdentity startingHead sessionId = .ok none
  shown : g.completedIdentity tip sessionId = .ok (some taskIdentity)

/-- What a journal of version one asks for besides: the task was active at most once at the
starting head, and is not any more in the commit and at the tip. -/
structure LegacyChecks (g : GitHistory) (startingHead tip taskIdentity commit : String) : Prop where
  atStart : ∃ count, g.activeIdentityCount startingHead taskIdentity = .ok count ∧ count ≤ 1
  atCommit : g.activeIdentityCount commit taskIdentity = .ok 0
  atTip : g.activeIdentityCount tip taskIdentity = .ok 0

theorem exists_of_completedIdentity {oid : String} {r : Option String}
    (h : g.completedIdentity oid sessionId = .ok r) : (g.commit oid).isSome = true := by
  obtain ⟨entries, hentries, -⟩ := completedIdentity_eq_ok.mp h
  exact exists_of_taskEntries hentries

theorem claimsSession_eq_true {oid : String} :
    (g.objects others).claimsSession sessionId oid = true ↔ g.Carries sessionId oid := by
  unfold GitObjects.claimsSession objects read Carries
  dsimp only
  cases g.commit oid with
  | none => simp
  | some c => simp

/-- The search between two commits finds exactly the task commit. -/
theorem sealedCommit_iff {legacy : Bool} :
    (g.objects others).sealedCommit startingHead tip sessionId taskIdentity legacy =
        .ok (some commit) ↔
      g.IsTaskCommit startingHead tip sessionId taskIdentity commit ∧
        (legacy = true → g.LegacyChecks startingHead tip taskIdentity commit) := by
  constructor
  · intro h
    obtain ⟨startingCount, hends, haudit⟩ := GitObjects.checks_of_sealedCommit h
    obtain ⟨hcount, hfew, hancestor, hshown, hinactive, hintroduces⟩ :=
      GitObjects.checkEnds_eq_ok_some.mp hends
    obtain ⟨-, htrailers, hagent, hcompletes, hgone, hparents, -, -⟩ :=
      GitObjects.auditCommit_eq_ok_true.mp haudit
    obtain ⟨revisions, hrange, hmem, hone⟩ := (GitObjects.sealed_of_sealedCommit h).unique
    have htip := exists_of_completedIdentity hshown
    obtain ⟨path, hpath⟩ := (isFirstParentAncestor_iff htip).mp hancestor
    have hrevisions : revisions = path := by
      obtain ⟨-, -, hrange⟩ := read_eq_ok.mp hrange
      obtain ⟨-, -, hrange⟩ := read_eq_ok.mp hrange
      rw [← Except.ok.inj hrange, hpath.between_eq]
    subst hrevisions
    obtain ⟨c, hc, htrailers⟩ := read_eq_ok.mp htrailers
    have hread {α : Type} {f : GitCommit → Except String α} {r : α}
        (hr : g.read commit f = .ok r) : f c = .ok r := by
      obtain ⟨c', hc', hr⟩ := read_eq_ok.mp hr
      rw [hc] at hc'
      cases hc'
      exact hr
    have htrailer : c.taskTrailers = [taskTrailer sessionId] := Except.ok.inj htrailers
    have hcarries : g.Carries sessionId commit := ⟨c, hc, htrailer ▸ List.mem_cons_self⟩
    refine ⟨⟨⟨revisions, hpath, hmem, fun oid hoid hoidCarries => ?_⟩, ⟨c, hc, htrailer,
      Except.ok.inj (hread hagent), Except.ok.inj (hread hparents)⟩, hcompletes, hintroduces,
      hshown⟩, fun hold => ⟨⟨_, hcount, hfew hold⟩, hgone hold, hinactive hold⟩⟩
    exact GitObjects.eq_of_countP_eq_one hone hoid (claimsSession_eq_true.mpr hoidCarries) hmem
      (claimsSession_eq_true.mpr hcarries)
  · rintro ⟨htask, hlegacy⟩
    obtain ⟨path, hpath, hmem, honly⟩ := htask.path
    obtain ⟨c, hc, htrailer, hagent, hparents⟩ := htask.made
    have htip := exists_of_completedIdentity htask.shown
    obtain ⟨starting, hstarting, -⟩ := completedIdentity_eq_ok.mp htask.introduces
    obtain ⟨s, hs⟩ := Option.isSome_iff_exists.mp (exists_of_taskEntries hstarting)
    obtain ⟨t, ht⟩ := Option.isSome_iff_exists.mp htip
    have hcount : g.activeIdentityCount startingHead taskIdentity =
        .ok (activeTaskIdentityCount taskIdentity.toList starting) :=
      activeIdentityCount_eq_ok.mpr ⟨starting, hstarting, rfl⟩
    have hfew (hold : legacy = true) :
        activeTaskIdentityCount taskIdentity.toList starting ≤ 1 := by
      obtain ⟨count, hcount', hle⟩ := (hlegacy hold).atStart
      rw [hcount] at hcount'
      cases hcount'
      exact hle
    refine GitObjects.sealedCommit_of_audits
      (GitObjects.checkEnds_eq_ok_some.mpr ⟨hcount, hfew,
        (isFirstParentAncestor_iff htip).mpr ⟨path, hpath⟩, htask.shown,
        fun hold => (hlegacy hold).atTip, htask.introduces⟩)
      (read_eq_ok.mpr ⟨s, hs, read_eq_ok.mpr ⟨t, ht, congrArg Except.ok hpath.between_eq⟩⟩)
      hpath.nodup hmem ?_ fun oid hoid hne => ?_
    · exact GitObjects.auditCommit_eq_ok_true.mpr ⟨rfl,
        read_eq_ok.mpr ⟨c, hc, congrArg Except.ok htrailer⟩,
        read_eq_ok.mpr ⟨c, hc, congrArg Except.ok hagent⟩, htask.completes,
        fun hold => (hlegacy hold).atCommit,
        read_eq_ok.mpr ⟨c, hc, congrArg Except.ok hparents⟩, htask.introduces, fun _ => hcount⟩
    · obtain ⟨d, hd⟩ := exists_of_mem_path hpath htip hoid
      exact GitObjects.auditCommit_of_not_mem (read_eq_ok.mpr ⟨d, hd, rfl⟩)
        fun htrailer => hne (honly oid hoid ⟨d, hd, htrailer⟩)

/-! ## A branch that goes on -/

/-- The branch went on from one tip to another: no commit on the way carries the session's
trailer, and the entries of the session and of the task's identity are as they were. -/
structure GoesOn (g : GitHistory) (sessionId taskIdentity tip tip' : String) : Prop where
  path : ∃ path, g.graph.MainlinePath tip tip' path ∧ ∀ c ∈ path, ¬g.Carries sessionId c
  entries : ∃ entries entries', g.taskEntries tip = .ok entries ∧ g.taskEntries tip' = .ok entries' ∧
    (mentioning sessionId.toList taskIdentity.toList entries').Perm
      (mentioning sessionId.toList taskIdentity.toList entries)

/-- The search finds the same after the branch went on. -/
theorem sealedCommit_goesOn {legacy : Bool} {tip' : String}
    (h : g.GoesOn sessionId taskIdentity tip tip') :
    (g.objects others).sealedCommit startingHead tip' sessionId taskIdentity legacy =
      (g.objects others).sealedCommit startingHead tip sessionId taskIdentity legacy := by
  obtain ⟨more, hmore, hnone⟩ := h.path
  obtain ⟨entries, entries', hentries, hentries', hsame⟩ := h.entries
  have htip := exists_of_taskEntries hentries
  have htip' := exists_of_taskEntries hentries'
  have hshown : g.completedIdentity tip' sessionId = g.completedIdentity tip sessionId := by
    unfold completedIdentity
    rw [hentries, hentries']
    exact congrArg (fun r => Except.ok (Option.map String.ofList r))
      (completedTaskIdentity_congr hsame)
  have hactive : g.activeIdentityCount tip' taskIdentity =
      g.activeIdentityCount tip taskIdentity := by
    unfold activeIdentityCount
    rw [hentries, hentries']
    exact congrArg Except.ok (activeTaskIdentityCount_congr hsame)
  have hpassed (count : Nat) (oid : String) (hoid : oid ∈ more) :
      (g.objects others).auditCommit startingHead sessionId taskIdentity legacy count oid =
        .ok (false, false) := by
    obtain ⟨c, hc⟩ := exists_of_mem_path hmore htip' hoid
    exact GitObjects.auditCommit_of_not_mem (read_eq_ok.mpr ⟨c, hc, rfl⟩)
      fun htrailer => hnone oid hoid ⟨c, hc, htrailer⟩
  by_cases hstart : ∃ path, g.graph.MainlinePath startingHead tip path
  · -- The starting head lies below both tips, so the range only gets longer at its end.
    obtain ⟨path, hpath⟩ := hstart
    have hlonger := hpath.trans hmore
    have hends : (g.objects others).checkEnds startingHead tip' sessionId taskIdentity legacy =
        (g.objects others).checkEnds startingHead tip sessionId taskIdentity legacy := by
      refine GitObjects.checkEnds_congr ?_ hshown hactive
      rw [(isFirstParentAncestor_iff htip).mpr ⟨path, hpath⟩,
        (isFirstParentAncestor_iff htip').mpr ⟨_, hlonger⟩]
    cases hresult : (g.objects others).checkEnds startingHead tip sessionId taskIdentity legacy with
    | error e =>
      rw [hresult] at hends
      unfold GitObjects.sealedCommit
      rw [hends, hresult]
      rfl
    | ok ends =>
      rw [hresult] at hends
      cases ends with
      | none =>
        unfold GitObjects.sealedCommit
        rw [hends, hresult]
        rfl
      | some count =>
        obtain ⟨starting, hstarting, -⟩ :=
          activeIdentityCount_eq_ok.mp (GitObjects.checkEnds_eq_ok_some.mp hresult).1
        obtain ⟨s, hs⟩ := Option.isSome_iff_exists.mp (exists_of_taskEntries hstarting)
        obtain ⟨t, ht⟩ := Option.isSome_iff_exists.mp htip
        obtain ⟨t', ht'⟩ := Option.isSome_iff_exists.mp htip'
        exact GitObjects.sealedCommit_append hresult hends
          (read_eq_ok.mpr ⟨s, hs, read_eq_ok.mpr ⟨t, ht, congrArg Except.ok hpath.between_eq⟩⟩)
          (read_eq_ok.mpr ⟨s, hs, read_eq_ok.mpr ⟨t', ht', congrArg Except.ok hlonger.between_eq⟩⟩)
          (hpassed count)
  · -- Below the old tip there is nothing to find, and above it nothing is looked at.
    have hbelow : (g.objects others).isFirstParentAncestor startingHead tip = .ok false :=
      isFirstParentAncestor_eq_ok_false htip hstart
    cases hcount : g.activeIdentityCount startingHead taskIdentity with
    | error e =>
      rw [GitObjects.sealedCommit_of_unreadable hcount, GitObjects.sealedCommit_of_unreadable hcount]
    | ok count =>
      rw [GitObjects.sealedCommit_of_not_ancestor hcount hbelow]
      by_cases hstart' : ∃ path, g.graph.MainlinePath startingHead tip' path
      · obtain ⟨path', hpath'⟩ := hstart'
        have hlater : ∀ c ∈ path', c ∈ more := by
          rcases hpath'.comparable hmore with ⟨r, hr, -⟩ | ⟨r, -, rfl⟩
          · exact absurd ⟨r, hr⟩ hstart
          · exact fun c hc => List.mem_append_right r hc
        obtain ⟨starting, hstarting, -⟩ := activeIdentityCount_eq_ok.mp hcount
        obtain ⟨s, hs⟩ := Option.isSome_iff_exists.mp (exists_of_taskEntries hstarting)
        obtain ⟨t', ht'⟩ := Option.isSome_iff_exists.mp htip'
        have hreadable : ∃ ends, (g.objects others).checkEnds startingHead tip' sessionId
            taskIdentity legacy = .ok ends :=
          GitObjects.checkEnds_of_readable hcount
            ((isFirstParentAncestor_iff htip').mpr ⟨path', hpath'⟩)
            (completedIdentity_eq_ok.mpr ⟨entries', hentries', rfl⟩)
            (activeIdentityCount_eq_ok.mpr ⟨entries', hentries', rfl⟩)
            (completedIdentity_eq_ok.mpr ⟨starting, hstarting, rfl⟩)
        obtain ⟨ends, hends⟩ := hreadable
        exact GitObjects.sealedCommit_eq_ok_none hends
          (read_eq_ok.mpr ⟨s, hs, read_eq_ok.mpr ⟨t', ht', congrArg Except.ok hpath'.between_eq⟩⟩)
          fun count c hc => hpassed count c (hlater c hc)
      · exact GitObjects.sealedCommit_of_not_ancestor hcount
          (isFirstParentAncestor_eq_ok_false htip' hstart')

/-- The search for a task commit, while no reference moves: it finds exactly the task commit
between the starting head and the tip of the branch, and it finds the same after the branch went on
without touching the task. -/
theorem findAgentGitTaskCommit_iff (g : GitHistory) (others : GitObjects)
    (refs : String → Option String) (startingHead : String) (branchRef : Option String)
    (sessionId taskIdentity : String) (legacy : Bool) :
    (∀ commit, g.findAgentGitTaskCommit others refs startingHead branchRef sessionId taskIdentity
        legacy = .ok (some commit) ↔
      ∃ tip, g.resolveGitCommit refs (branchRef.getD "HEAD") = .ok tip ∧
        g.IsTaskCommit startingHead tip sessionId taskIdentity commit ∧
        (legacy = true → g.LegacyChecks startingHead tip taskIdentity commit)) ∧
    ∀ refs' tip tip', g.resolveGitCommit refs (branchRef.getD "HEAD") = .ok tip →
      g.resolveGitCommit refs' (branchRef.getD "HEAD") = .ok tip' →
      g.GoesOn sessionId taskIdentity tip tip' →
      g.findAgentGitTaskCommit others refs' startingHead branchRef sessionId taskIdentity legacy =
        g.findAgentGitTaskCommit others refs startingHead branchRef sessionId taskIdentity
          legacy := by
  -- The tip is read a second time at the end, and is still there.
  have hfind (refs : String → Option String) {tip : String}
      (htip : g.resolveGitCommit refs (branchRef.getD "HEAD") = .ok tip) :
      g.findAgentGitTaskCommit others refs startingHead branchRef sessionId taskIdentity legacy =
        (g.objects others).sealedCommit startingHead tip sessionId taskIdentity legacy := by
    unfold findAgentGitTaskCommit
    simp only [htip, bind, Except.bind]
    cases (g.objects others).sealedCommit startingHead tip sessionId taskIdentity legacy with
    | error e => rfl
    | ok found =>
      cases found with
      | none => rfl
      | some candidate => simp [pure, Except.pure]
  constructor
  · intro commit
    constructor
    · intro h
      obtain ⟨tip, htip, -⟩ := bind_eq_ok.mp h
      rw [hfind refs htip] at h
      exact ⟨tip, htip, sealedCommit_iff.mp h⟩
    · rintro ⟨tip, htip, hcommit⟩
      rw [hfind refs htip]
      exact sealedCommit_iff.mpr hcommit
  · intro refs' tip tip' htip htip' hgoesOn
    rw [hfind refs htip, hfind refs' htip', sealedCommit_goesOn hgoesOn]

end GitHistory

/-- A commit of the agent with one list of tasks. -/
def listCommit (parents : List String) (path tasks trailers : String) : GitCommit where
  parents := parents
  tree := [⟨"100644".toList, "blob".toList, path.toList, tasks.toList⟩]
  trailers := trailers.toList
  authorName := agentGitIdentityName
  authorEmail := agentGitIdentityEmail
  committerName := agentGitIdentityName
  committerEmail := agentGitIdentityEmail

/-- A task that stands in Doing at the commit `a`, so often as `tasks` says, is finished in `b`, and
`c` adds another one. -/
def taskHistory (tasks : String) : GitHistory where
  commit oid :=
    if oid = "a" then some (listCommit [] "tasks/doing.md" tasks "")
    else if oid = "b" then
      some (listCommit ["a"] "tasks/done.md" "- Fix COMPLETED 2026-01-01: done codex:s" "codex:s")
    else if oid = "c" then
      some (listCommit ["b"] "tasks/done.md"
        "- Fix COMPLETED 2026-01-01: done codex:s\n- Other" "")
    else none
  rank oid := if oid = "c" then 2 else if oid = "b" then 1 else 0
  parents_exist := by
    intro oid c hc p hp
    split_ifs at hc with ha hb hc'
    · cases hc
      cases hp
    · cases hc
      obtain rfl := List.mem_singleton.mp hp
      rfl
    · cases hc
      obtain rfl := List.mem_singleton.mp hp
      rfl
  rank_lt := by
    intro oid c hc p hp
    split_ifs at hc with ha hb hc'
    · cases hc
      cases hp
    · cases hc
      obtain rfl := List.mem_singleton.mp hp
      rw [hb]
      decide
    · cases hc
      obtain rfl := List.mem_singleton.mp hp
      rw [hc']
      decide

/-- Git without answers to anything else. -/
def noObjects : GitObjects where
  parents _ := .error ""
  tree _ := .error ""
  trailers _ := .error ""
  usesAgentIdentity _ := .error ""
  completedIdentity _ _ := .error ""
  activeIdentityCount _ _ := .error ""
  isAncestor _ _ := .error ""
  isFirstParentAncestor _ _ := .error ""
  firstParentRange _ _ := .error ""
  isOnlySelectedOrder _ _ _ := .error ""

theorem taskHistory_path (tasks : String) :
    (taskHistory tasks).graph.MainlinePath "a" "b" ["b"] := .step rfl .refl

theorem taskHistory_isTaskCommit {tasks : String}
    (hstart : (taskHistory tasks).completedIdentity "a" "s" = .ok none) :
    (taskHistory tasks).IsTaskCommit "a" "b" "s" "v2\nFix" "b" where
  path := ⟨["b"], taskHistory_path tasks, List.mem_cons_self,
    fun _ hc _ => List.mem_singleton.mp hc⟩
  made := ⟨_, rfl, by decide, by decide, rfl⟩
  completes := rfl
  introduces := hstart
  shown := rfl

theorem taskHistory_goesOn (tasks : String) :
    (taskHistory tasks).GoesOn "s" "v2\nFix" "b" "c" where
  path := by
    refine ⟨["c"], .step rfl .refl, fun oid hoid => ?_⟩
    obtain rfl := List.mem_singleton.mp hoid
    rintro ⟨c, hc, htrailer⟩
    cases hc
    exact absurd htrailer (by decide)
  entries := ⟨_, _, rfl, rfl, .of_eq (by decide)⟩

/-- The task that is finished in `b` is found there, before and after `c`. -/
theorem findAgentGitTaskCommit_taskHistory :
    (taskHistory "- Fix").findAgentGitTaskCommit noObjects (fun _ => some "b") "a" none "s"
      "v2\nFix" false = .ok (some "b") ∧
    (taskHistory "- Fix").findAgentGitTaskCommit noObjects (fun _ => some "c") "a" none "s"
      "v2\nFix" false =
        (taskHistory "- Fix").findAgentGitTaskCommit noObjects (fun _ => some "b") "a" none "s"
          "v2\nFix" false := by
  have hsearch := GitHistory.findAgentGitTaskCommit_iff (taskHistory "- Fix") noObjects
    (fun _ => some "b") "a" none "s" "v2\nFix" false
  exact ⟨(hsearch.1 "b").mpr ⟨"b", rfl, taskHistory_isTaskCommit rfl, nofun⟩,
    hsearch.2 (fun _ => some "c") "b" "c" rfl rfl (taskHistory_goesOn "- Fix")⟩

/-- A journal of version one does not accept a task that stood in Doing twice. -/
theorem doubled_task_not_found :
    ¬∀ (g : GitHistory) (others : GitObjects) (refs : String → Option String)
      (startingHead : String) (branchRef : Option String) (sessionId taskIdentity : String)
      (legacy : Bool) (commit : String),
      g.findAgentGitTaskCommit others refs startingHead branchRef sessionId taskIdentity legacy =
          .ok (some commit) ↔
        ∃ tip, g.resolveGitCommit refs (branchRef.getD "HEAD") = .ok tip ∧
          g.IsTaskCommit startingHead tip sessionId taskIdentity commit := by
  intro h
  have hfound := (h (taskHistory "- Fix\n- Fix") noObjects (fun _ => some "b") "a" none "s"
    "v2\nFix" true "b").mpr ⟨"b", rfl, taskHistory_isTaskCommit rfl⟩
  have hnone : (taskHistory "- Fix\n- Fix").findAgentGitTaskCommit noObjects (fun _ => some "b") "a"
      none "s" "v2\nFix" true = .ok none := by rfl
  rw [hnone] at hfound
  cases hfound

end Clt
