import Clt.Interleave.Program

/-!
# The task commit

The proof that a commit finishes a task, from `managed_git.rs`. What Git answers about an
object named by its id is taken as given: an id names the same object for ever. The search
`find_agent_git_task_commit_with_policy` then returns a commit only if it is the one commit
of the range that claims the session (`sealed_of_sealedCommit`).
-/

namespace Clt

open Interleave

/-- `AgentGitWorktreeBaseline`, as far as a proof reads it. -/
structure AgentGitWorktreeBaseline where
  version : Nat
  stagedNonTaskPatchIds : Option (List (String × String))
  stagedIndexTree : Option String
  manifestParentHead : Option String

/-- `CODEX_TASK_SESSION_PREFIX` before a session: the trailer of its task commit. -/
def taskTrailer (sessionId : String) : String := "codex:" ++ sessionId

/-- A check that only journals of version one make. -/
def whenLegacy (legacy : Bool) (check : Except String Bool) : Except String Bool :=
  if legacy then check else .ok false

/-- What Git answers about commits and trees that are named by their ids. -/
structure GitObjects where
  /-- `git show -s --format=%P`. -/
  parents : String → Except String (List String)
  /-- `git rev-parse --verify <commit>^{tree}`. -/
  tree : String → Except String String
  /-- `git_commit_task_trailers`. -/
  trailers : String → Except String (List String)
  /-- `git_commit_uses_agent_identity`. -/
  usesAgentIdentity : String → Except String Bool
  /-- `git_ref_completed_task_identity`. -/
  completedIdentity : String → String → Except String (Option String)
  /-- `git_ref_active_task_identity_count`. -/
  activeIdentityCount : String → String → Except String Nat
  /-- `git_commit_is_ancestor`. -/
  isAncestor : String → String → Except String Bool
  /-- `git_commit_is_first_parent_ancestor`. -/
  isFirstParentAncestor : String → String → Except String Bool
  /-- `git rev-list --first-parent --reverse <start>..<tip>`. -/
  firstParentRange : String → String → Except String (List String)
  /-- `is_only_selected_order`. -/
  isOnlySelectedOrder : String → String → String → Except String Bool

namespace GitObjects

variable (objects : GitObjects)

/-- `git_ref_contains_completed_task`. -/
def containsCompletedTask (reference sessionId : String) : Except String Bool := do
  let identity ← objects.completedIdentity reference sessionId
  return identity.isSome

/-- `git_ref_contains_active_task_identity`. -/
def containsActiveTaskIdentity (reference taskIdentity : String) : Except String Bool := do
  let count ← objects.activeIdentityCount reference taskIdentity
  return decide (0 < count)

/-- `git_ref_active_task_identity_count(..)? != starting_identity_count`. -/
def countDiffers (reference taskIdentity : String) (startingCount : Nat) : Except String Bool := do
  let count ← objects.activeIdentityCount reference taskIdentity
  return count != startingCount

/-- The check on one commit of the range: whether its trailers name the session, and whether
it introduced the completion. -/
def auditCommit (startingHead sessionId taskIdentity : String) (legacy : Bool)
    (startingCount : Nat) (commit : String) : Except String (Bool × Bool) := do
  let trailers ← objects.trailers commit
  let claims := trailers.contains (taskTrailer sessionId)
  if trailers.length != 1 || trailers.head? != some (taskTrailer sessionId) then
    return (claims, false)
  if !(← objects.usesAgentIdentity commit) then return (claims, false)
  if (← objects.completedIdentity commit sessionId) != some taskIdentity then
    return (claims, false)
  if ← whenLegacy legacy (objects.containsActiveTaskIdentity commit taskIdentity) then
    return (claims, false)
  let parents ← objects.parents commit
  if parents != [startingHead] then return (claims, false)
  if ← objects.containsCompletedTask startingHead sessionId then return (claims, false)
  if ← whenLegacy legacy (objects.countDiffers startingHead taskIdentity startingCount) then
    return (claims, false)
  return (claims, true)

/-- The checks of `find_agent_git_task_commit_with_policy` on the starting head and on the tip
of the branch; `none` when one refuses, else the starting head's count of the identity. -/
def checkEnds (startingHead branchTip sessionId taskIdentity : String) (legacy : Bool) :
    Except String (Option Nat) := do
  let startingCount ← objects.activeIdentityCount startingHead taskIdentity
  if legacy && decide (1 < startingCount) then return none
  if !(← objects.isFirstParentAncestor startingHead branchTip) then return none
  if (← objects.completedIdentity branchTip sessionId) != some taskIdentity then return none
  if ← whenLegacy legacy (objects.containsActiveTaskIdentity branchTip taskIdentity) then
    return none
  if ← objects.containsCompletedTask startingHead sessionId then return none
  return some startingCount

/-- The candidate of `find_agent_git_task_commit_with_policy` for a tip that it has read. -/
def sealedCommit (startingHead branchTip sessionId taskIdentity : String) (legacy : Bool) :
    Except String (Option String) := do
  let some startingCount ← objects.checkEnds startingHead branchTip sessionId taskIdentity legacy
    | return none
  let revisions ← objects.firstParentRange startingHead branchTip
  let audits ← revisions.mapM fun commit => do
    let audit ← objects.auditCommit startingHead sessionId taskIdentity legacy startingCount commit
    return (commit, audit)
  let candidates := audits.filter fun a => a.2.2
  if candidates.length != 1 || (audits.countP fun a => a.2.1) != 1 then return none
  return candidates.head?.map Prod.fst

/-- `git_commit_matches_agent_staged_manifest`. -/
def commitMatchesStagedManifest (commit sessionId taskIdentity : String)
    (baseline : AgentGitWorktreeBaseline) (requireManifestParent : Bool) : Except String Bool :=
  match baseline.stagedNonTaskPatchIds, baseline.stagedIndexTree with
  | some _, some sealedCommitTree => do
    let parents ← objects.parents commit
    match parents with
    | [parent] => do
      if requireManifestParent && baseline.manifestParentHead != some parent then return false
      if (← objects.tree commit) != sealedCommitTree then return false
      return (← objects.completedIdentity commit sessionId) == some taskIdentity
    | _ => return false
  -- Journals of version one predate staged manifests.
  | _, _ => return baseline.version == 1

/-- `agent_git_upstream_tip_proves_task_commit`. -/
def upstreamTipProvesTaskCommit (upstreamTip commit sessionId taskIdentity : String)
    (legacy : Bool) : Except String Bool := do
  if !(← objects.isAncestor commit upstreamTip) then return false
  if (← objects.completedIdentity upstreamTip sessionId) != some taskIdentity then return false
  return !(← whenLegacy legacy (objects.containsActiveTaskIdentity upstreamTip taskIdentity))

/-- The commit's trailers name the session. -/
def claimsSession (sessionId commit : String) : Bool :=
  match objects.trailers commit with
  | .ok trailers => trailers.contains (taskTrailer sessionId)
  | .error _ => false

/-- What makes a commit the task commit between two ends: it is the one commit of the range
that claims the session, it claims nothing else, it is the agent's, and it completes the task
right on top of the starting head, which does not. -/
structure Sealed (startingHead branchTip sessionId taskIdentity commit : String) : Prop where
  unique : ∃ revisions, objects.firstParentRange startingHead branchTip = .ok revisions ∧
    commit ∈ revisions ∧ revisions.countP (objects.claimsSession sessionId) = 1
  trailers : objects.trailers commit = .ok [taskTrailer sessionId]
  agent : objects.usesAgentIdentity commit = .ok true
  completes : objects.completedIdentity commit sessionId = .ok (some taskIdentity)
  parent : objects.parents commit = .ok [startingHead]
  introduces : objects.completedIdentity startingHead sessionId = .ok none

variable {objects} {startingHead branchTip sessionId taskIdentity commit : String}
  {legacy : Bool} {startingCount : Nat}

/-! ## What the search proves -/

theorem containsCompletedTask_eq_false_iff :
    objects.containsCompletedTask commit sessionId = .ok false ↔
      objects.completedIdentity commit sessionId = .ok none := by
  unfold containsCompletedTask
  cases objects.completedIdentity commit sessionId with
  | error e => simp [bind, Except.bind]
  | ok identity => cases identity <;> simp [bind, Except.bind, pure, Except.pure]

/-- A commit introduced the completion only if it passed every check on the way. -/
theorem auditCommit_eq_ok {claims introduced : Bool}
    (h : objects.auditCommit startingHead sessionId taskIdentity legacy startingCount commit =
      .ok (claims, introduced)) :
    objects.claimsSession sessionId commit = claims ∧ (introduced = true →
      objects.trailers commit = .ok [taskTrailer sessionId] ∧
      objects.usesAgentIdentity commit = .ok true ∧
      objects.completedIdentity commit sessionId = .ok (some taskIdentity) ∧
      objects.parents commit = .ok [startingHead] ∧
      objects.completedIdentity startingHead sessionId = .ok none) := by
  unfold auditCommit at h
  obtain ⟨trailers, htrailers, h⟩ := bind_eq_ok.mp h
  have hclaims : objects.claimsSession sessionId commit =
      trailers.contains (taskTrailer sessionId) := by
    rw [claimsSession, htrailers]
  rw [hclaims]
  simp only at h
  split at h
  · cases h
    exact ⟨rfl, nofun⟩
  rename_i hshape
  obtain ⟨agent, hagent, h⟩ := bind_eq_ok.mp h
  split at h
  · cases h
    exact ⟨rfl, nofun⟩
  rename_i hisAgent
  obtain ⟨identity, hidentity, h⟩ := bind_eq_ok.mp h
  split at h
  · cases h
    exact ⟨rfl, nofun⟩
  rename_i hcompletes
  obtain ⟨active, -, h⟩ := bind_eq_ok.mp h
  split at h
  · cases h
    exact ⟨rfl, nofun⟩
  obtain ⟨parents, hparents, h⟩ := bind_eq_ok.mp h
  split at h
  · cases h
    exact ⟨rfl, nofun⟩
  rename_i hparent
  obtain ⟨completed, hcompleted, h⟩ := bind_eq_ok.mp h
  split at h
  · cases h
    exact ⟨rfl, nofun⟩
  rename_i hintroduces
  obtain ⟨differs, -, h⟩ := bind_eq_ok.mp h
  split at h
  · cases h
    exact ⟨rfl, nofun⟩
  cases h
  refine ⟨rfl, fun _ => ⟨?_, ?_, ?_, ?_, ?_⟩⟩
  · rw [htrailers]
    match trailers, hshape with
    | [], hshape => simp at hshape
    | [t], hshape => simpa using hshape
    | t :: u :: ts, hshape => simp at hshape
  · simpa [hagent] using hisAgent
  · rw [hidentity]
    simpa using hcompletes
  · rw [hparents]
    simpa using hparent
  · rw [Bool.not_eq_true] at hintroduces
    exact containsCompletedTask_eq_false_iff.mp (hintroduces ▸ hcompleted)

/-- The audits name the commits of the range, each with what its check returned. -/
theorem audits_of_mapM {revisions : List String} {audits : List (String × Bool × Bool)}
    (h : revisions.mapM (fun c => do
        let audit ← objects.auditCommit startingHead sessionId taskIdentity legacy startingCount c
        return (c, audit)) = Except.ok audits) :
    audits.map Prod.fst = revisions ∧ ∀ a ∈ audits,
      objects.auditCommit startingHead sessionId taskIdentity legacy startingCount a.1 = .ok a.2 := by
  have hall := mapM_eq_ok.mp h
  clear h
  induction hall with
  | nil => exact ⟨rfl, nofun⟩
  | cons hhead _ ih =>
    obtain ⟨audit, haudit, heq⟩ := bind_eq_ok.mp hhead
    cases heq
    refine ⟨by rw [List.map_cons, ih.1], ?_⟩
    intro a ha
    rcases List.mem_cons.mp ha with rfl | hrest
    · exact haudit
    · exact ih.2 a hrest

/-- The commit that the search returns is the task commit. -/
theorem sealed_of_sealedCommit
    (h : objects.sealedCommit startingHead branchTip sessionId taskIdentity legacy =
      .ok (some commit)) :
    objects.Sealed startingHead branchTip sessionId taskIdentity commit := by
  unfold sealedCommit at h
  obtain ⟨ends, hends, h⟩ := bind_eq_ok.mp h
  match ends, h with
  | none, h => cases h
  | some startingCount, h =>
    obtain ⟨revisions, hrange, h⟩ := bind_eq_ok.mp h
    obtain ⟨audits, hmap, h⟩ := bind_eq_ok.mp h
    obtain ⟨hrevisions, haudits⟩ := audits_of_mapM hmap
    simp only at h
    split at h
    · cases h
    rename_i hone
    have hclaims : (audits.filter fun a => a.2.2).length = 1 ∧
        audits.countP (fun a => a.2.1) = 1 := by
      simpa using hone
    have hhead : (audits.filter fun a => a.2.2).head?.map Prod.fst = some commit :=
      Except.ok.inj h
    obtain ⟨a, ha, rfl⟩ := Option.map_eq_some_iff.mp hhead
    have hmem := List.mem_filter.mp (List.mem_of_head? ha)
    obtain ⟨-, hsealed⟩ := auditCommit_eq_ok (haudits a hmem.1)
    obtain ⟨htrailers, hagent, hcompletes, hparent, hintroduces⟩ := hsealed hmem.2
    refine ⟨⟨revisions, hrange, ?_, ?_⟩, htrailers, hagent, hcompletes, hparent, hintroduces⟩
    · rw [← hrevisions]
      exact List.mem_map_of_mem hmem.1
    · -- Each audit repeats whether its commit claims the session.
      rw [← hrevisions, List.countP_map, ← hclaims.2]
      refine List.countP_congr fun b hb => ?_
      rw [Function.comp_apply, (auditCommit_eq_ok (haudits b hb)).1]

/-! ## A commit on top of its manifest parent -/

/-- What Git documents about a commit with one parent: the parent is a first-parent ancestor,
and nothing but the commit lies between them. -/
structure OnParent (objects : GitObjects) : Prop where
  ancestor : ∀ commit parent, objects.parents commit = .ok [parent] →
    objects.isFirstParentAncestor parent commit = .ok true
  range : ∀ commit parent, objects.parents commit = .ok [parent] →
    objects.firstParentRange parent commit = .ok [commit]

/-- What a search that found a commit has read of the starting head. -/
theorem ends_of_sealedCommit
    (h : objects.sealedCommit startingHead branchTip sessionId taskIdentity false =
      .ok (some commit)) :
    (∃ count, objects.activeIdentityCount startingHead taskIdentity = .ok count) ∧
      objects.completedIdentity startingHead sessionId = .ok none := by
  refine ⟨?_, (sealed_of_sealedCommit h).introduces⟩
  obtain ⟨ends, hends, -⟩ := bind_eq_ok.mp h
  obtain ⟨count, hcount, -⟩ := bind_eq_ok.mp hends
  exact ⟨count, hcount⟩

/-- A tip that is a task commit right on top of the starting head is the one that the search
finds. -/
theorem sealedCommit_onParent (hgit : objects.OnParent) {count : Nat}
    (hcount : objects.activeIdentityCount startingHead taskIdentity = .ok count)
    (hintroduces : objects.completedIdentity startingHead sessionId = .ok none)
    (hparent : objects.parents commit = .ok [startingHead])
    (htrailers : objects.trailers commit = .ok [taskTrailer sessionId])
    (hagent : objects.usesAgentIdentity commit = .ok true)
    (hcompletes : objects.completedIdentity commit sessionId = .ok (some taskIdentity)) :
    objects.sealedCommit startingHead commit sessionId taskIdentity false = .ok (some commit) := by
  have hstart := containsCompletedTask_eq_false_iff.mpr hintroduces
  have hends : objects.checkEnds startingHead commit sessionId taskIdentity false =
      .ok (some count) := by
    simp [checkEnds, hcount, hgit.ancestor _ _ hparent, hcompletes, hstart, whenLegacy, bind,
      Except.bind, pure, Except.pure]
  have haudit : objects.auditCommit startingHead sessionId taskIdentity false count commit =
      .ok (true, true) := by
    simp [auditCommit, htrailers, hagent, hcompletes, hparent, hstart, whenLegacy, bind,
      Except.bind, pure, Except.pure]
  simp [sealedCommit, hends, hgit.range _ _ hparent, haudit, bind, Except.bind, pure, Except.pure]

/-- What the match with a staged manifest says about a commit. -/
theorem of_commitMatchesStagedManifest {baseline : AgentGitWorktreeBaseline}
    (hversion : baseline.version ≠ 1)
    (h : objects.commitMatchesStagedManifest commit sessionId taskIdentity baseline true =
      .ok true) :
    ∃ parent, baseline.manifestParentHead = some parent ∧ objects.parents commit = .ok [parent] ∧
      objects.completedIdentity commit sessionId = .ok (some taskIdentity) := by
  unfold commitMatchesStagedManifest at h
  split at h
  · obtain ⟨parents, hparents, h⟩ := bind_eq_ok.mp h
    match parents, h with
    | [], h => cases h
    | [parent], h =>
      simp only at h
      split at h
      · cases h
      rename_i hmanifest
      obtain ⟨tree, -, h⟩ := bind_eq_ok.mp h
      split at h
      · cases h
      obtain ⟨identity, hidentity, h⟩ := bind_eq_ok.mp h
      refine ⟨parent, by simpa using hmanifest, hparents, ?_⟩
      rw [hidentity]
      simpa using Except.ok.inj h
    | _ :: _ :: _, h => cases h
  · have : baseline.version = 1 := by simpa using Except.ok.inj h
    exact absurd this hversion

end GitObjects

end Clt
