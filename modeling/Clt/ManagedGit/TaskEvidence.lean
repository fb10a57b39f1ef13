import Clt.ManagedGit.TreeEntries
import Clt.Task.Note

/-!
# What a committed board says of a task

The completion of a task is read from the entries of a committed board: one marker of the session
in all of them, in a Done entry with a completion note that ends with the session's link
(`git_ref_completed_task_identity`). Entries that mention neither the session nor the task's
identity do not count (`completedTaskIdentity_congr`).
-/

namespace Clt

open Text

/-- `task_content_has_completed_note`. -/
def taskContentHasCompletedNote (content : Text) : Bool :=
  !taskContentIsBlocked content && (lines content).any fun line =>
    let uppercase := line.map Char.toUpper
    (matchIndices "COMPLETED ".toList uppercase).any (isNoteAt "COMPLETED ".toList uppercase)

namespace GitTaskProofEntry

variable (e : GitTaskProofEntry)

/-- `matching_markers`. -/
def matchingMarkers (sessionId : Text) : Nat :=
  (codexSessionMarkersInTaskContent e.content).countP fun (candidate, _) => candidate == sessionId

/-- An entry that counts as the completion of the session's task. -/
def isCompletion (sessionId : Text) : Bool :=
  e.matchingMarkers sessionId == 1 && codexSessionIdFromTaskContent e.content == some sessionId &&
    e.status == "done".toList && taskContentHasCompletedNote e.content

/-- An entry in Todo or Doing with the identity. -/
def isActive (taskIdentity : Text) : Bool :=
  (e.status == "todo".toList || e.status == "doing".toList) &&
    durableTaskIdentity e.content == some taskIdentity

/-- The entry has a marker of the session, or the identity. -/
def mentions (sessionId taskIdentity : Text) : Bool :=
  e.matchingMarkers sessionId != 0 || durableTaskIdentity e.content == some taskIdentity

end GitTaskProofEntry

open GitTaskProofEntry

/-- The loop of `git_ref_completed_task_identity` over the entries. -/
def completedTaskIdentity (sessionId : Text) (entries : List GitTaskProofEntry) : Option Text :=
  let completions := entries.filter fun e => e.isCompletion sessionId
  if (entries.map fun e => e.matchingMarkers sessionId).sum = 1 ∧ completions.length = 1 then
    completions.head?.bind fun e => durableTaskIdentity e.content
  else none

/-- The count of `git_ref_active_task_identity_count`. -/
def activeTaskIdentityCount (taskIdentity : Text) (entries : List GitTaskProofEntry) : Nat :=
  entries.countP fun e => e.isActive taskIdentity

section Mentions

variable {sessionId taskIdentity : Text} {entries entries' : List GitTaskProofEntry}

/-- The entries that a proof of completion looks at. -/
def mentioning (sessionId taskIdentity : Text) (entries : List GitTaskProofEntry) :
    List GitTaskProofEntry :=
  entries.filter fun e => e.mentions sessionId taskIdentity

theorem sum_matchingMarkers_mentioning (sessionId taskIdentity : Text)
    (entries : List GitTaskProofEntry) :
    ((mentioning sessionId taskIdentity entries).map fun e => e.matchingMarkers sessionId).sum =
      (entries.map fun e => e.matchingMarkers sessionId).sum := by
  induction entries with
  | nil => rfl
  | cons e entries ih =>
    unfold mentioning at ih ⊢
    by_cases hmentions : e.mentions sessionId taskIdentity = true
    · rw [List.filter_cons_of_pos (p := fun e => mentions e sessionId taskIdentity) hmentions]
      simp only [List.map_cons, List.sum_cons, ih]
    · rw [List.filter_cons_of_neg (p := fun e => mentions e sessionId taskIdentity) hmentions]
      -- An entry that is passed over has no marker of the session.
      have hnone : e.matchingMarkers sessionId = 0 := by
        simp only [mentions, Bool.or_eq_true, bne_iff_ne, ne_eq, not_or, not_not] at hmentions
        exact hmentions.1
      simp only [List.map_cons, List.sum_cons, ih, hnone, Nat.zero_add]

theorem filter_mentioning {p : GitTaskProofEntry → Bool}
    (hp : ∀ e, p e = true → e.mentions sessionId taskIdentity = true)
    (entries : List GitTaskProofEntry) :
    (mentioning sessionId taskIdentity entries).filter p = entries.filter p := by
  rw [mentioning, List.filter_filter]
  refine List.filter_congr fun e _ => ?_
  cases h : p e with
  | false => rfl
  | true => exact (Bool.true_and _).trans (hp e h)

theorem mentions_of_isCompletion (taskIdentity : Text) {e : GitTaskProofEntry}
    (h : e.isCompletion sessionId = true) :
    e.mentions sessionId taskIdentity = true := by
  simp only [isCompletion, Bool.and_eq_true, beq_iff_eq] at h
  simp [mentions, h.1.1.1]

theorem mentions_of_isActive (sessionId : Text) {e : GitTaskProofEntry}
    (h : e.isActive taskIdentity = true) :
    e.mentions sessionId taskIdentity = true := by
  simp only [isActive, Bool.and_eq_true] at h
  simp only [mentions, h.2, Bool.or_true]

/-- Boards with the same entries for a task show the same completion. -/
theorem completedTaskIdentity_congr
    (h : (mentioning sessionId taskIdentity entries).Perm
      (mentioning sessionId taskIdentity entries')) :
    completedTaskIdentity sessionId entries = completedTaskIdentity sessionId entries' := by
  have hsum : (entries.map fun e => e.matchingMarkers sessionId).sum =
      (entries'.map fun e => e.matchingMarkers sessionId).sum := by
    rw [← sum_matchingMarkers_mentioning sessionId taskIdentity entries,
      ← sum_matchingMarkers_mentioning sessionId taskIdentity entries']
    exact (h.map _).sum_nat
  have hperm : (entries.filter fun e => e.isCompletion sessionId).Perm
      (entries'.filter fun e => e.isCompletion sessionId) := by
    rw [← filter_mentioning (fun _ => mentions_of_isCompletion taskIdentity) entries,
      ← filter_mentioning (fun _ => mentions_of_isCompletion taskIdentity) entries']
    exact h.filter _
  unfold completedTaskIdentity
  dsimp only
  rw [hsum, hperm.length_eq]
  split
  · rename_i hone
    obtain ⟨e, he⟩ := List.length_eq_one_iff.mp hone.2
    have hsame : (entries.filter fun e => e.isCompletion sessionId) = [e] :=
      List.perm_singleton.mp (he ▸ hperm)
    rw [hsame, he]
  · rfl

theorem activeTaskIdentityCount_congr
    (h : (mentioning sessionId taskIdentity entries).Perm
      (mentioning sessionId taskIdentity entries')) :
    activeTaskIdentityCount taskIdentity entries =
      activeTaskIdentityCount taskIdentity entries' := by
  unfold activeTaskIdentityCount
  rw [List.countP_eq_length_filter, List.countP_eq_length_filter,
    ← filter_mentioning (fun _ => mentions_of_isActive sessionId) entries,
    ← filter_mentioning (fun _ => mentions_of_isActive sessionId) entries']
  exact (h.filter _).length_eq

end Mentions

end Clt
