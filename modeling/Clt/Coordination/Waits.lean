import Clt.Coordination.DependencyGraph
import Clt.Task.Note

/-!
# What a task waits for

A task waits for its prerequisites, and for the active tasks whose declared scope or named code
meets its own (`Snapshot::waits`). The search for an active task that waits for this one returns
(`dependsOn_returns`), since it enters no id twice.
-/

namespace Clt

open Text

namespace Task

variable (task : Task)

/-- `Task::complete`. -/
def complete : Bool := task.status == .done && task.completionWait.isNone

/-- `Task::active`. -/
def active : Bool := task.status == .doing || (task.status == .done && !task.complete)

end Task

/-! ## Overlaps -/

/-- `trim_start_matches("./")`. -/
def trimDotSlash : Text → Text
  | '.' :: '/' :: t => trimDotSlash t
  | t => t

/-- `path_overlap`: the paths are the same, or one lies below the other. -/
def pathOverlap (a b : String) : Bool :=
  let a := trimDotSlash (a.toList.rdropWhile (· == '/'))
  let b := trimDotSlash (b.toList.rdropWhile (· == '/'))
  a == b || (stripPrefix b a).any (fun rest => rest.head? == some '/') ||
    (stripPrefix a b).any (fun rest => rest.head? == some '/')

/-- A code symbol or a path, and no generic word. -/
def isNamedSymbol (symbol : Text) : Bool :=
  3 < (String.ofList symbol).utf8ByteSize && !symbol.any isWhitespace &&
    (symbol.contains '/' || (findText "::".toList symbol).isSome || symbol.contains '_' ||
      "sr.".toList.isPrefixOf symbol.reverse)

/-- `inferred_symbols`: what stands between backticks. -/
def inferredSymbols (task : Task) : List Text :=
  let pieces := (coordinationStrip task.content).splitOn '`'
  (pieces.zipIdx.filterMap fun (symbol, i) =>
    if i % 2 = 1 then some (trim symbol) else none).filter isNamedSymbol

/-- A line of `Snapshot::waits`. -/
inductive Wait where
  | metadata (error : String)
  | dependency (error : VisitError)
  | prerequisite (other : Task)
  | behavior (other : Task) (key value otherValue : String)
  | incompatible (other : Task) (reason : String)
  | potential (other : Task) (concerns : List String)

/-- The review that one task has of the other, if the tasks did not change since. -/
def currentReview (stamp : String) (owner peer : Task) : Option Review :=
  if peer.metadata.id = "" then none
  else owner.metadata.reviews.find? fun review =>
    review.other == peer.metadata.id && review.evidence == stamp

/-- What one task's scope declares and the other's requirements name. -/
def declaredSymbols (scope : Scope) (named : List Text) : List Text :=
  named.filter fun symbol =>
    (scope.files.any fun file => pathOverlap file (String.ofList symbol)) ||
      (scope.modules ++ scope.interfaces ++ scope.resources).any fun name =>
        name.toList == symbol || (name.toList ++ "::".toList).isPrefixOf symbol

/-- The concerns of `overlap`. -/
def overlapConcerns (task other : Task) (changed : List String) : List String :=
  let ours := task.metadata.scope
  let theirs := other.metadata.scope
  let shared (kind : String) (ours theirs : List String) : List String :=
    (ours.filter theirs.contains).map (kind ++ " " ++ ·)
  let files := (ours.files.filter fun file => theirs.files.any (pathOverlap file)).map fun file =>
    "file " ++ file ++ if changed.any (pathOverlap file) then " (has current edits)" else ""
  let named := (inferredSymbols task).filter (inferredSymbols other).contains
  let declared := declaredSymbols ours (inferredSymbols other) ++
    declaredSymbols theirs (inferredSymbols task)
  shared "module" ours.modules theirs.modules ++
    shared "interface" ours.interfaces theirs.interfaces ++
    shared "resource" ours.resources theirs.resources ++ files ++
    named.map (fun symbol => "requirements name " ++ String.ofList symbol) ++
    declared.map fun symbol => "declared scope meets requirement " ++ String.ofList symbol

/-- `overlap`; `evidence` stamps what the two tasks require. -/
def overlap (evidence : Task → Task → String) (task other : Task) (changed : List String) :
    Option Wait :=
  let behavior := task.metadata.scope.behavior.findSome? fun (key, value) =>
    (other.metadata.scope.behavior.lookup key).bind fun otherValue =>
      if value ≠ otherValue then some (Wait.behavior other key value otherValue) else none
  match behavior with
  | some wait => some wait
  | none =>
    let stamp := evidence task other
    let reviews := [(task, other), (other, task)].filterMap fun (owner, peer) =>
      currentReview stamp owner peer
    match reviews.find? fun review => !review.compatible with
    | some review => some (.incompatible other review.reason)
    | none =>
      -- A compatible assessment on either side settles every other concern.
      if reviews ≠ [] then none
      else
        let concerns := overlapConcerns task other changed
        if concerns = [] then none else some (.potential other concerns)

/-! ## Waits -/

namespace Snapshot

/-- One dependency of `Snapshot::depends_on`, with whether the id was found and the ids that were
seen. -/
def dependsOnStep (s : Snapshot) (search : Task → List String → Option (Bool × List String))
    (id : String) (state : Bool × List String) (dependency : String) :
    Option (Bool × List String) :=
  if state.1 || dependency == id then some (true, state.2)
  else if state.2.contains dependency then some (false, state.2)
  else
    match s.referenced dependency with
    | .error _ => some (false, dependency :: state.2)
    | .ok other => search other (dependency :: state.2)

/-- `Snapshot::depends_on`; `none` is out of fuel. -/
def dependsOn (s : Snapshot) : Nat → Task → String → List String → Option (Bool × List String)
  | 0, _, _, _ => none
  | fuel + 1, task, id, seen =>
    task.metadata.dependsOn.foldlM
      (s.dependsOnStep (fun other seen => dependsOn s fuel other id seen) id) (false, seen)

/-- An active task that waits for this one is no reason to wait. -/
def isConsumer (s : Snapshot) (task other : Task) : Bool :=
  task.metadata.id ≠ "" &&
    (s.dependsOn (s.tasks.length + 1) other task.metadata.id []).any Prod.fst

/-- `Snapshot::waits`. -/
def waits (evidence : Task → Task → String) (s : Snapshot) (task : Task) : List Wait :=
  if task.complete then []
  else
    match task.error with
    | some error => [.metadata error]
    | none =>
      match s.visit s.searchDepth task [] [] with
      | .error error => [.dependency error]
      | .ok _ =>
        let prerequisites := task.metadata.dependsOn.filterMap fun id =>
          match s.referenced id with
          | .ok other => if other.complete then none else some (.prerequisite other)
          | .error _ => none
        let others := s.tasks.filter fun other => other.active && !sameTask task other
        prerequisites ++ others.filterMap fun other =>
          if s.isConsumer task other then none else overlap evidence task other s.changedFiles

/-! ## The search for a consumer returns -/

section DependsOn

variable {s : Snapshot} {task other : Task} {id : String} {seen : List String}

/-- The tasks whose ids were not seen. -/
def unseen (s : Snapshot) (seen : List String) : Nat :=
  (s.tasks.filter fun t => !seen.contains t.metadata.id).length

theorem unseen_cons_lt (hother : s.referenced id = .ok other) (hid : id ∉ seen) :
    s.unseen (id :: seen) < s.unseen seen := by
  obtain ⟨hmem, rfl, -⟩ := mem_of_referenced hother
  have hsplit : (s.tasks.filter fun t => !(other.metadata.id :: seen).contains t.metadata.id) =
      (s.tasks.filter fun t => !seen.contains t.metadata.id).filter fun t =>
        t.metadata.id != other.metadata.id := by
    rw [List.filter_filter]
    refine List.filter_congr fun t _ => ?_
    rw [List.contains_cons, Bool.not_or]
    rfl
  rw [unseen, unseen, hsplit, List.length_filter_lt_length_iff_exists]
  refine ⟨other, List.mem_filter.mpr ⟨hmem, ?_⟩, ?_⟩
  · simpa using hid
  · simp

theorem unseen_mono {seen' : List String} (h : seen ⊆ seen') :
    s.unseen seen' ≤ s.unseen seen := by
  refine (List.monotone_filter_right s.tasks fun t ht => ?_).length_le
  simp only [Bool.not_eq_true', List.contains_eq_mem, decide_eq_false_iff_not] at ht ⊢
  exact fun hseen => ht (h hseen)

/-- A step over a dependency returns where the search below it does, and forgets nothing. -/
theorem dependsOnStep_returns (search : Task → List String → Option (Bool × List String))
    (dependency : String) (found : Bool)
    (hsearch : ∀ other, s.referenced dependency = .ok other → dependency ∉ seen →
      ∃ found' seen', search other (dependency :: seen) = some (found', seen') ∧
        dependency :: seen ⊆ seen') :
    ∃ found' seen', s.dependsOnStep search id (found, seen) dependency = some (found', seen') ∧
      seen ⊆ seen' := by
  unfold dependsOnStep
  split
  · exact ⟨true, seen, rfl, List.Subset.refl _⟩
  · split
    · exact ⟨false, seen, rfl, List.Subset.refl _⟩
    · rename_i hunseen
      cases hother : s.referenced dependency with
      | error e => exact ⟨false, dependency :: seen, rfl, List.subset_cons_self _ _⟩
      | ok other =>
        have hnew : dependency ∉ seen := by simpa using hunseen
        obtain ⟨found', seen', hfound, hsub⟩ := hsearch other hother hnew
        exact ⟨found', seen', hfound, List.Subset.trans (List.subset_cons_self _ _) hsub⟩

/-- The search returns: every call that it makes leaves fewer tasks unseen. -/
theorem dependsOn_returns {fuel : Nat} (hfuel : s.unseen seen < fuel) :
    ∃ found seen', s.dependsOn fuel task id seen = some (found, seen') ∧ seen ⊆ seen' := by
  induction fuel generalizing task seen with
  | zero => omega
  | succ fuel ih =>
    -- Along the dependencies what was seen only grows, so that the fuel stays enough.
    have hfold : ∀ (deps : List String) (found : Bool) (now : List String), seen ⊆ now →
        ∃ found' seen', deps.foldlM
            (s.dependsOnStep (fun other seen => s.dependsOn fuel other id seen) id) (found, now) =
          some (found', seen') ∧ now ⊆ seen' := by
      intro deps
      induction deps with
      | nil =>
        intro found now _
        exact ⟨found, now, rfl, List.Subset.refl _⟩
      | cons dependency deps ihdeps =>
        intro found now hnow
        obtain ⟨found', next, hnext, hsub⟩ : ∃ found' next, s.dependsOnStep
            (fun other seen => s.dependsOn fuel other id seen) id (found, now) dependency =
              some (found', next) ∧ now ⊆ next := by
          refine dependsOnStep_returns _ dependency found fun other hother hnew => ?_
          have hless := unseen_cons_lt hother hnew
          have hle := unseen_mono (s := s) hnow
          exact ih (by omega)
        obtain ⟨last, seen', hrest, hkeep⟩ := ihdeps found' next (List.Subset.trans hnow hsub)
        refine ⟨last, seen', ?_, List.Subset.trans hsub hkeep⟩
        rw [List.foldlM_cons, hnext]
        exact hrest
    exact hfold _ false seen (List.Subset.refl _)

theorem isConsumer_returns (s : Snapshot) (task other : Task) :
    ∃ found seen, s.dependsOn (s.tasks.length + 1) other task.metadata.id [] =
      some (found, seen) := by
  have hfuel : s.unseen [] < s.tasks.length + 1 := Nat.lt_succ_of_le (List.length_filter_le _ _)
  obtain ⟨found, seen, h, -⟩ : ∃ found seen, s.dependsOn (s.tasks.length + 1) other
      task.metadata.id [] = some (found, seen) ∧ [] ⊆ seen := dependsOn_returns hfuel
  exact ⟨found, seen, h⟩

end DependsOn

end Snapshot

end Clt
