import Mathlib.Data.Multiset.AddSub
import Mathlib.Data.List.Perm.Subperm
import Clt.Task.Attachment

/-!
# What two listings differ in

The task that a run added is the one that a later listing has more than an earlier one. Removing
it gives the earlier listing, in its order or, where no single removal does that, as a multiset;
of the blocked tasks, the others are among the earlier ones.
-/

namespace Clt

open Files

section Unmatched

variable {α β : Type} [BEq β] [LawfulBEq β] {key : α → β} {remaining : List β} {l : List α} {x : α}

theorem unmatched_cons_of_mem {rest : List α} (h : key x ∈ remaining) :
    unmatched key remaining (x :: rest) = unmatched key (remaining.erase (key x)) rest := by
  rw [unmatched, if_pos (List.contains_iff_mem.mpr h)]

theorem unmatched_cons_of_notMem {rest : List α} (h : key x ∉ remaining) :
    unmatched key remaining (x :: rest) = x :: unmatched key remaining rest := by
  rw [unmatched, if_neg (fun hmem => h (List.contains_iff_mem.mp hmem))]

theorem eq_of_sole {l : List α} (h : sole l = some x) : l = [x] := by
  unfold sole at h
  split at h
  · rw [Option.some.inj h]
  · cases h

/-- A listed item is taken away with its equal. -/
theorem cons_subperm_iff {k : β} {ks : List β} (h : k ∈ remaining) :
    (k :: ks).Subperm remaining ↔ ks.Subperm (remaining.erase k) := by
  rw [(List.perm_cons_erase h).subperm_left, List.subperm_cons]

theorem unmatched_eq_nil_iff :
    unmatched key remaining l = [] ↔ (l.map key).Subperm remaining := by
  induction l generalizing remaining with
  | nil => exact iff_of_true rfl List.nil_subperm
  | cons x rest ih =>
    rw [List.map_cons]
    by_cases h : key x ∈ remaining
    · rw [unmatched_cons_of_mem h, ih, cons_subperm_iff h]
    · rw [unmatched_cons_of_notMem h]
      exact iff_of_false (List.cons_ne_nil _ _) fun hsub => h (hsub.subset List.mem_cons_self)

/-- The items but one are matched, and that one is not. -/
def Excess (key : α → β) (remaining : List β) (l : List α) (i : Nat) : Prop :=
  ((l.eraseIdx i).map key).Subperm remaining ∧ ¬ (l.map key).Subperm remaining

theorem excess_of_unmatched (h : unmatched key remaining l = [x]) :
    ∃ i, l[i]? = some x ∧ Excess key remaining l i := by
  induction l generalizing remaining with
  | nil => cases h
  | cons y rest ih =>
    by_cases hy : key y ∈ remaining
    · rw [unmatched_cons_of_mem hy] at h
      obtain ⟨i, hi, hothers, hall⟩ := ih h
      refine ⟨i + 1, hi, ?_, ?_⟩
      · rw [List.eraseIdx_cons_succ, List.map_cons, cons_subperm_iff hy]
        exact hothers
      · rw [List.map_cons, cons_subperm_iff hy]
        exact hall
    · rw [unmatched_cons_of_notMem hy] at h
      obtain ⟨rfl, hrest⟩ := List.cons.inj h
      refine ⟨0, rfl, unmatched_eq_nil_iff.mp hrest, fun hsub => ?_⟩
      exact hy (hsub.subset List.mem_cons_self)

/-- What is left is the difference of the two listings as multisets. -/
theorem coe_map_unmatched [DecidableEq β] (key : α → β) (remaining : List β) (l : List α) :
    ((unmatched key remaining l).map key : Multiset β) =
      (l.map key : Multiset β) - (remaining : Multiset β) := by
  induction l generalizing remaining with
  | nil => exact (Multiset.zero_sub _).symm
  | cons y rest ih =>
    by_cases hy : key y ∈ remaining
    · have hsplit : (remaining : Multiset β) = key y ::ₘ (remaining.erase (key y) : List β) :=
        Multiset.coe_eq_coe.mpr (List.perm_cons_erase hy)
      rw [unmatched_cons_of_mem hy, ih, hsplit, Multiset.sub_cons, List.map_cons,
        ← Multiset.cons_coe, Multiset.erase_cons_head]
    · rw [unmatched_cons_of_notMem hy, List.map_cons, ← Multiset.cons_coe, ih, List.map_cons,
        ← Multiset.cons_coe]
      ext k
      have hnone : Multiset.count (key y) (remaining : Multiset β) = 0 :=
        Multiset.count_eq_zero.mpr hy
      rw [Multiset.count_sub, Multiset.count_cons, Multiset.count_cons, Multiset.count_sub]
      by_cases hk : k = key y
      · rw [hk, hnone, if_pos rfl, Nat.sub_zero, Nat.sub_zero]
      · rw [if_neg hk, Nat.add_zero, Nat.add_zero]

/-- Where the items but one are matched, a single item is left. -/
theorem exists_unmatched_of_excess {i : Nat} (h : Excess key remaining l i) :
    ∃ x, unmatched key remaining l = [x] := by
  classical
  obtain ⟨hothers, hall⟩ := h
  have hnonempty : unmatched key remaining l ≠ [] := fun h => hall (unmatched_eq_nil_iff.mp h)
  have hi : i < l.length := by
    by_contra hi
    rw [List.eraseIdx_of_length_le (Nat.le_of_not_lt hi)] at hothers
    exact hall hothers
  have hsplit : (l.map key : Multiset β) = key l[i] ::ₘ ((l.eraseIdx i).map key : List β) :=
    Multiset.coe_eq_coe.mpr ((List.getElem_cons_eraseIdx_perm hi).symm.map key)
  have hbound : (l.map key : Multiset β) - (remaining : Multiset β) ≤ {key l[i]} := by
    rw [Multiset.sub_le_iff_le_add, hsplit, Multiset.singleton_add, Multiset.cons_le_cons_iff]
    exact hothers
  rw [← coe_map_unmatched] at hbound
  have hlength := Multiset.card_le_card hbound
  rw [Multiset.coe_card, List.length_map, Multiset.card_singleton] at hlength
  match hleft : unmatched key remaining l, hnonempty, hlength with
  | [x], _, _ => exact ⟨x, rfl⟩

/-- No other index has the property. -/
def OnlyAt (P : Nat → Prop) (i : Nat) : Prop := P i ∧ ∀ j, P j → j = i

/-- The item that is left over is the one that can be removed, when it is the only one. -/
theorem unmatched_of_onlyAt {i : Nat} (hi : l[i]? = some x)
    (h : OnlyAt (Excess key remaining l) i) : unmatched key remaining l = [x] := by
  obtain ⟨y, hy⟩ := exists_unmatched_of_excess h.1
  obtain ⟨j, hj, hexcess⟩ := excess_of_unmatched hy
  rw [h.2 j hexcess, hi] at hj
  rw [hy, Option.some.inj hj]

end Unmatched

/-! ## The task that is new in a listing -/

section Added

variable {contentsBefore : List Text} {entriesAfter : List TaskEntry} {i : Nat} {entry : TaskEntry}

/-- Without the entry the listing is the earlier one, in its order. -/
def GivesInOrder (contentsBefore : List Text) (entriesAfter : List TaskEntry) (i : Nat) : Prop :=
  i < entriesAfter.length ∧ (entriesAfter.eraseIdx i).map TaskEntry.content = contentsBefore

/-- Without the entry the listing is the earlier one as a multiset. -/
def GivesAsMultiset (contentsBefore : List Text) (entriesAfter : List TaskEntry) (i : Nat) : Prop :=
  i < entriesAfter.length ∧
    ((entriesAfter.eraseIdx i).map TaskEntry.content).Perm contentsBefore

/-- What is asked of the entry that is new in a listing. -/
structure IsAddedEntry (contentsBefore : List Text) (entriesAfter : List TaskEntry)
    (result : Option TaskEntry) : Prop where
  sound : ∀ entry, result = some entry → ∃ i, entriesAfter[i]? = some entry ∧
    (OnlyAt (GivesInOrder contentsBefore entriesAfter) i ∨
      (∀ j, ¬ GivesInOrder contentsBefore entriesAfter j) ∧
        GivesAsMultiset contentsBefore entriesAfter i)
  complete : ∀ i entry, entriesAfter[i]? = some entry →
    OnlyAt (GivesInOrder contentsBefore entriesAfter) i ∨
      (∀ j, ¬ GivesInOrder contentsBefore entriesAfter j) ∧
        OnlyAt (GivesAsMultiset contentsBefore entriesAfter) i →
    result = some entry

theorem GivesInOrder.asMultiset (h : GivesInOrder contentsBefore entriesAfter i) :
    GivesAsMultiset contentsBefore entriesAfter i := ⟨h.1, .of_eq h.2⟩

/-- Without one entry the listing has one entry less. -/
theorem GivesAsMultiset.length_eq (h : GivesAsMultiset contentsBefore entriesAfter i) :
    entriesAfter.length = contentsBefore.length + 1 := by
  have hlength := h.2.length_eq
  rw [List.length_map, List.length_eraseIdx_of_lt h.1] at hlength
  have hi := h.1
  omega

/-- With one entry more, the entries but one are matched exactly when they are the earlier
ones. -/
theorem givesAsMultiset_iff (h : entriesAfter.length = contentsBefore.length + 1) :
    GivesAsMultiset contentsBefore entriesAfter i ↔
      Excess TaskEntry.content contentsBefore entriesAfter i := by
  constructor
  · rintro ⟨hi, hperm⟩
    refine ⟨hperm.subperm, fun hsub => ?_⟩
    have hle := hsub.length_le
    rw [List.length_map] at hle
    omega
  · rintro ⟨hothers, hall⟩
    have hi : i < entriesAfter.length := by
      by_contra hi
      rw [List.eraseIdx_of_length_le (Nat.le_of_not_lt hi)] at hothers
      exact hall hothers
    refine ⟨hi, hothers.perm_of_length_le ?_⟩
    rw [List.length_map, List.length_eraseIdx_of_lt hi]
    omega

/-- The removals that are tried in order. -/
theorem mem_candidates_iff {candidates : List Nat} (hlength : entriesAfter.length =
      contentsBefore.length + 1)
    (h : (if entriesAfter.length = contentsBefore.length + 1 then
        (List.range entriesAfter.length).filter fun skipped =>
          (entriesAfter.eraseIdx skipped).map TaskEntry.content == contentsBefore
      else []) = candidates) :
    i ∈ candidates ↔ GivesInOrder contentsBefore entriesAfter i := by
  rw [← h, if_pos hlength, List.mem_filter, List.mem_range, beq_iff_eq, GivesInOrder]

/-- Where no removal gives the earlier listing, no entry is asked for. -/
theorem isAddedEntry_none (h : ∀ i, ¬ GivesAsMultiset contentsBefore entriesAfter i) :
    IsAddedEntry contentsBefore entriesAfter none where
  sound := nofun
  complete i _ _ hlaw := by
    rcases hlaw with hlaw | hlaw
    · exact absurd hlaw.1.asMultiset (h i)
    · exact absurd hlaw.2.1 (h i)

/-- The entry that is left over, where no removal gives the earlier listing in its order. -/
theorem isAddedEntry_sole (hlength : entriesAfter.length = contentsBefore.length + 1)
    (hnone : ∀ j, ¬ GivesInOrder contentsBefore entriesAfter j) :
    IsAddedEntry contentsBefore entriesAfter
      (sole (unmatched TaskEntry.content contentsBefore entriesAfter)) where
  sound entry h := by
    obtain ⟨i, hi, hexcess⟩ := excess_of_unmatched (eq_of_sole h)
    exact ⟨i, hi, .inr ⟨hnone, (givesAsMultiset_iff hlength).mpr hexcess⟩⟩
  complete i entry hi hlaw := by
    rcases hlaw with hlaw | ⟨-, hgives, honly⟩
    · exact absurd hlaw.1 (hnone i)
    · have hleft := unmatched_of_onlyAt hi ⟨(givesAsMultiset_iff hlength).mp hgives,
        fun j hexcess => honly j ((givesAsMultiset_iff hlength).mpr hexcess)⟩
      rw [hleft, sole]

theorem newlyAddedTaskEntry_isAdded (contentsBefore : List Text) (entriesAfter : List TaskEntry) :
    IsAddedEntry contentsBefore entriesAfter
      (newlyAddedTaskEntry contentsBefore entriesAfter) := by
  unfold newlyAddedTaskEntry
  dsimp only
  split
  · rename_i hshort
    refine isAddedEntry_none fun i hgives => ?_
    have hlength := hgives.length_eq
    omega
  · by_cases hlength : entriesAfter.length = contentsBefore.length + 1
    · generalize hcandidates : (if entriesAfter.length = contentsBefore.length + 1 then
        (List.range entriesAfter.length).filter fun skipped =>
          (entriesAfter.eraseIdx skipped).map TaskEntry.content == contentsBefore
        else []) = candidates
      have hmem (i : Nat) := mem_candidates_iff (i := i) hlength hcandidates
      have hnodup : candidates.Nodup := by
        rw [← hcandidates, if_pos hlength]
        exact List.nodup_range.filter _
      match candidates, hmem, hnodup with
      | [], hmem, _ =>
        exact isAddedEntry_sole hlength fun j hj => List.not_mem_nil ((hmem j).mpr hj)
      | [index], hmem, _ =>
        have honly : OnlyAt (GivesInOrder contentsBefore entriesAfter) index :=
          ⟨(hmem index).mp List.mem_cons_self,
            fun j hj => List.mem_singleton.mp ((hmem j).mpr hj)⟩
        refine ⟨fun entry h => ⟨index, h, .inl honly⟩, fun i entry hi hlaw => ?_⟩
        rcases hlaw with hlaw | hlaw
        · rw [← honly.2 i hlaw.1]
          exact hi
        · exact absurd honly.1 (hlaw.1 index)
      | first :: second :: _, hmem, hnodup =>
        have hfirst := (hmem first).mp List.mem_cons_self
        have hsecond := (hmem second).mp (List.mem_cons_of_mem _ List.mem_cons_self)
        have hne : first ≠ second := fun h =>
          (List.nodup_cons.mp hnodup).1 (h ▸ List.mem_cons_self)
        refine ⟨nofun, fun i entry _ hlaw => ?_⟩
        rcases hlaw with hlaw | hlaw
        · exact absurd ((hlaw.2 first hfirst).trans (hlaw.2 second hsecond).symm) hne
        · exact absurd hfirst (hlaw.1 first)
    · rw [if_neg hlength]
      have hnone (i : Nat) : ¬ GivesAsMultiset contentsBefore entriesAfter i :=
        fun hgives => hlength hgives.length_eq
      have hsole : sole (unmatched TaskEntry.content contentsBefore entriesAfter) = none := by
        cases hleft : sole (unmatched TaskEntry.content contentsBefore entriesAfter) with
        | none => rfl
        | some entry =>
          obtain ⟨i, hi, hexcess⟩ := excess_of_unmatched (eq_of_sole hleft)
          have hi := (List.getElem?_eq_some_iff.mp hi).1
          have hle := hexcess.1.length_le
          rw [List.length_map, List.length_eraseIdx_of_lt hi] at hle
          omega
      dsimp only
      rw [hsole]
      exact isAddedEntry_none hnone

end Added

/-! ## The task that a run left blocked -/

section Blocked

variable {snapshotsBefore : List BlockedTaskSnapshot} {tasksAfter : List (TaskStatus × TaskEntry)}

/-- The snapshot of a blocked task. -/
def blockedTaskSnapshot (task : TaskStatus × TaskEntry) : BlockedTaskSnapshot :=
  ⟨task.1, Text.trimEnd task.2.content⟩

/-- What is asked of the task that a run left blocked: it is the one that the earlier snapshots
do not account for, or the only blocked task where that is allowed. -/
structure IsBlockedTask (snapshotsBefore : List BlockedTaskSnapshot)
    (tasksAfter : List (TaskStatus × TaskEntry)) (allowUnchangedSingleTask : Bool)
    (result : Option (TaskStatus × TaskEntry)) : Prop where
  sound : ∀ task, result = some task →
    (∃ i, tasksAfter[i]? = some task ∧
      Excess blockedTaskSnapshot snapshotsBefore tasksAfter i) ∨
    allowUnchangedSingleTask = true ∧ tasksAfter = [task] ∧
      blockedTaskSnapshot task ∈ snapshotsBefore
  complete : ∀ i task, tasksAfter[i]? = some task →
    OnlyAt (Excess blockedTaskSnapshot snapshotsBefore tasksAfter) i → result = some task
  fallback : ∀ task, allowUnchangedSingleTask = true → tasksAfter = [task] → result = some task

theorem blockedTaskAfterRun_isBlocked {toLowercase : Text → Text} {board : Folder}
    (h : blockedTasks toLowercase board = some tasksAfter)
    (snapshotsBefore : List BlockedTaskSnapshot) (allowUnchangedSingleTask : Bool) :
    ∃ result, blockedTaskAfterRun toLowercase board snapshotsBefore allowUnchangedSingleTask =
        some result ∧
      IsBlockedTask snapshotsBefore tasksAfter allowUnchangedSingleTask result := by
  refine ⟨(sole (unmatched blockedTaskSnapshot snapshotsBefore tasksAfter)).or
    (if allowUnchangedSingleTask then sole tasksAfter else none), ?_, ?_⟩
  · rw [blockedTaskAfterRun, h]
    rfl
  constructor
  · intro task htask
    rcases Option.or_eq_some_iff.mp htask with hchanged | ⟨hunchanged, hsingle⟩
    · exact .inl (excess_of_unmatched (eq_of_sole hchanged))
    · split at hsingle
      · rename_i hallow
        have htasks : tasksAfter = [task] := eq_of_sole hsingle
        refine .inr ⟨hallow, htasks, ?_⟩
        by_contra hmem
        rw [htasks, unmatched_cons_of_notMem hmem] at hunchanged
        cases hunchanged
      · cases hsingle
  · intro i task hi hexcess
    rw [unmatched_of_onlyAt hi hexcess]
    rfl
  · intro task hallow htasks
    rw [htasks]
    cases hchanged : sole (unmatched blockedTaskSnapshot snapshotsBefore [task]) with
    | none => rw [Option.none_or, if_pos hallow, sole]
    | some other =>
      obtain ⟨i, hi, -⟩ := excess_of_unmatched (eq_of_sole hchanged)
      rw [List.mem_singleton.mp (List.mem_of_getElem? hi), Option.some_or]

end Blocked

/-- The task that a session is given to is the one that the later listing has more than the
earlier one. -/
theorem added_task (contentsBefore : List Text) (entriesAfter : List TaskEntry)
    (toLowercase : Text → Text) (board : Folder) (snapshotsBefore : List BlockedTaskSnapshot)
    (allowUnchangedSingleTask : Bool) :
    IsAddedEntry contentsBefore entriesAfter (newlyAddedTaskEntry contentsBefore entriesAfter) ∧
      ∀ tasksAfter, blockedTasks toLowercase board = some tasksAfter →
        ∃ result, blockedTaskAfterRun toLowercase board snapshotsBefore
            allowUnchangedSingleTask = some result ∧
          IsBlockedTask snapshotsBefore tasksAfter allowUnchangedSingleTask result :=
  ⟨newlyAddedTaskEntry_isAdded contentsBefore entriesAfter,
    fun _ h => blockedTaskAfterRun_isBlocked h snapshotsBefore allowUnchangedSingleTask⟩

/-- A board with one blocked task. -/
def blockedBoard : Folder :=
  [("todo.md".toList, .file "# To Do Tasks\n- Ship BLOCKED 2026-02-03: no key\n".toList),
    ("doing.md".toList, .file []), ("done.md".toList, .file []), ("backlog.md".toList, .file [])]

/-- Its blocked task. -/
def blockedTask : TaskStatus × TaskEntry :=
  (.todo, ⟨.markdownLine 1, "Ship BLOCKED 2026-02-03: no key".toList, false⟩)

theorem blockedTasks_blockedBoard :
    blockedTasks (List.map Char.toLower) blockedBoard = some [blockedTask] := by decide

theorem added_task_blocked :
    IsAddedEntry ["Ship".toList] [blockedTask.2]
        (newlyAddedTaskEntry ["Ship".toList] [blockedTask.2]) ∧
      ∃ result, blockedTaskAfterRun (List.map Char.toLower) blockedBoard [] true = some result ∧
        IsBlockedTask [] [blockedTask] true result :=
  have h := added_task ["Ship".toList] [blockedTask.2] (List.map Char.toLower) blockedBoard [] true
  ⟨h.1, h.2 _ blockedTasks_blockedBoard⟩

/-- A task that is blocked again for another reason is the one that is left blocked, though the
earlier snapshot is not what remains without it. -/
theorem blocked_again :
    ¬ ∀ (toLowercase : Text → Text) (board : Folder) (snapshotsBefore : List BlockedTaskSnapshot)
        (tasksAfter : List (TaskStatus × TaskEntry)) (task : TaskStatus × TaskEntry),
      blockedTasks toLowercase board = some tasksAfter →
      blockedTaskAfterRun toLowercase board snapshotsBefore false = some (some task) →
      ∃ i, tasksAfter[i]? = some task ∧
        ((tasksAfter.eraseIdx i).map blockedTaskSnapshot).Perm snapshotsBefore := by
  intro h
  have hresult : blockedTaskAfterRun (List.map Char.toLower) blockedBoard
      [⟨.todo, "Ship BLOCKED 2026-02-01: no review".toList⟩] false = some (some blockedTask) := by
    decide
  obtain ⟨i, hi, hperm⟩ := h _ _ _ _ _ blockedTasks_blockedBoard hresult
  have hlength := hperm.length_eq
  rw [List.length_map, List.length_eraseIdx_of_lt (List.getElem?_eq_some_iff.mp hi).1] at hlength
  cases hlength

end Clt
