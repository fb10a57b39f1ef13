import Clt.Graph.Mainline
import Clt.ManagedGit.TaskCommit
import Clt.ManagedGit.TaskEvidence

/-!
# The task commit in a history

Here the commits of a repository are data: their parents, their boards, their trailers and who
made them. What Git answers about them is computed from it (`GitHistory.objects`), and the search
`find_agent_git_task_commit_with_policy` runs on these answers.
-/

namespace Clt

open Interleave

/-- A commit: its parents, what `git ls-tree -r` lists of its tasks, its `CLT-Task` trailers as
`git show` prints them, and its author and committer. -/
structure GitCommit where
  parents : List String
  tree : List GitTreeEntry
  trailers : Text
  authorName : Text
  authorEmail : Text
  committerName : Text
  committerEmail : Text

/-- The commits of a repository by their ids. A commit is made after its parents. -/
structure GitHistory where
  commit : String → Option GitCommit
  rank : String → Nat
  parents_exist : ∀ oid c, commit oid = some c → ∀ p ∈ c.parents, (commit p).isSome = true
  rank_lt : ∀ oid c, commit oid = some c → ∀ p ∈ c.parents, rank p < rank oid

/-- `AGENT_GIT_IDENTITY_NAME`. -/
def agentGitIdentityName : Text := "CLT Agent".toList

/-- `AGENT_GIT_IDENTITY_EMAIL`. -/
def agentGitIdentityEmail : Text := "clt-agent@localhost".toList

namespace GitCommit

variable (c : GitCommit)

/-- `git_commit_task_trailers`, with the trim of `git_stdout`. -/
def taskTrailers : List String :=
  (((Text.lines (Text.trim c.trailers)).map Text.trim).filter fun value => !value.isEmpty).map
    String.ofList

/-- `git_commit_uses_agent_identity`, with the trim of `git_stdout`. -/
def usesAgentIdentity : Bool :=
  let identity := Text.trim (c.authorName ++ '\x00' :: c.authorEmail ++
    '\x00' :: c.committerName ++ '\x00' :: c.committerEmail)
  identity.splitOn '\x00' ==
    [agentGitIdentityName, agentGitIdentityEmail, agentGitIdentityName, agentGitIdentityEmail]

end GitCommit

namespace GitHistory

variable (g : GitHistory)

/-- The graph of the commits. -/
def graph : Graph.History String where
  parents oid := (g.commit oid).elim [] GitCommit.parents
  rank := g.rank
  rank_lt oid p hp := by
    cases hc : g.commit oid with
    | none =>
      rw [hc] at hp
      cases hp
    | some c =>
      rw [hc] at hp
      exact g.rank_lt oid c hc p hp

/-- An object that Git reads. -/
def read {α : Type} (oid : String) (f : GitCommit → Except String α) : Except String α :=
  match g.commit oid with
  | some c => f c
  | none => .error ("fatal: bad object " ++ oid)

/-- `git_ref_task_entries`. -/
def taskEntries (oid : String) : Except String (List GitTaskProofEntry) :=
  g.read oid fun c =>
    match gitRefTaskEntries c.tree with
    | some entries => .ok entries
    | none => .error "Git returned a non-UTF-8 tree entry while proving finalization"

/-- `git_ref_completed_task_identity`. -/
def completedIdentity (oid sessionId : String) : Except String (Option String) := do
  let entries ← g.taskEntries oid
  return (completedTaskIdentity sessionId.toList entries).map String.ofList

/-- `git_ref_active_task_identity_count`. -/
def activeIdentityCount (oid taskIdentity : String) : Except String Nat := do
  let entries ← g.taskEntries oid
  return activeTaskIdentityCount taskIdentity.toList entries

/-- What Git answers about the commits of the history; `others` is what it answers to questions
that the search does not ask. -/
def objects (others : GitObjects) : GitObjects where
  parents oid := g.read oid fun c => .ok c.parents
  tree := others.tree
  trailers oid := g.read oid fun c => .ok c.taskTrailers
  usesAgentIdentity oid := g.read oid fun c => .ok c.usesAgentIdentity
  completedIdentity := g.completedIdentity
  activeIdentityCount := g.activeIdentityCount
  isAncestor ancestor descendant := g.read ancestor fun _ => g.read descendant fun _ =>
    .ok (g.graph.comesFrom descendant ancestor)
  isFirstParentAncestor ancestor descendant :=
    if ancestor = descendant then .ok true
    else g.read descendant fun _ => .ok ((g.graph.mainline descendant).contains ancestor)
  firstParentRange start tip := g.read start fun _ => g.read tip fun _ =>
    .ok (g.graph.between start tip)
  isOnlySelectedOrder := others.isOnlySelectedOrder

/-- `resolve_git_commit`, over what the references point to. -/
def resolveGitCommit (refs : String → Option String) (reference : String) : Except String String :=
  match refs reference with
  | some oid => g.read oid fun _ => .ok oid
  | none => .error "fatal: Needed a single revision"

/-- `find_agent_git_task_commit_with_policy`, while no reference moves. -/
def findAgentGitTaskCommit (others : GitObjects) (refs : String → Option String)
    (startingHead : String) (branchRef : Option String) (sessionId taskIdentity : String)
    (legacyIdentityChecks : Bool) : Except String (Option String) := do
  let branchTip ← g.resolveGitCommit refs (branchRef.getD "HEAD")
  match ← (g.objects others).sealedCommit startingHead branchTip sessionId taskIdentity
      legacyIdentityChecks with
  | none => return none
  | some candidate => do
    let tip ← g.resolveGitCommit refs (branchRef.getD "HEAD")
    return if tip = branchTip then some candidate else none

end GitHistory

end Clt
