import Clt.Coordination.Collect

/-!
# The tasks that are ready

`scan_agent_project` counts what `ready_tasks` would return. Both ask for an entry the first task
of the snapshot with its source and text, which lies on another board when that has a line like it.
-/

namespace Clt

open Files

/-! ## The scan of a project -/

/-- `AgentProjectScanStatus`. -/
inductive AgentProjectScanStatus where
  | pending
  | blocked
  | empty
  | missing
  | uninitialized
  | unavailable
  deriving DecidableEq, Repr

/-- `AgentProjectScan`. -/
structure AgentProjectScan where
  status : AgentProjectScanStatus
  todoCount : Nat := 0
  manualTodoCount : Nat := 0
  coordinationWaitCount : Nat := 0
  blockedTodoCount : Nat := 0
  stoppedTodoCount : Nat := 0
  doingCount : Nat := 0
  blockedDoingCount : Nat := 0
  deriving DecidableEq, Repr

namespace AgentProjectScan

/-- `AgentProjectScan::from_counts`. -/
def fromCounts (todoCount blockedTodoCount stoppedTodoCount doingCount blockedDoingCount : Nat) :
    AgentProjectScan :=
  let availableTodoCount := todoCount - blockedTodoCount - stoppedTodoCount
  let taskCount := todoCount + doingCount
  let blockedTaskCount := blockedTodoCount + blockedDoingCount
  { status :=
      if availableTodoCount > 0 then .pending
      else if taskCount > 0 ∧ blockedTaskCount = taskCount then .blocked
      else .empty
    todoCount := todoCount, blockedTodoCount := blockedTodoCount
    stoppedTodoCount := stoppedTodoCount, doingCount := doingCount
    blockedDoingCount := blockedDoingCount }

/-- `AgentProjectScan::available_todo_count`. -/
def availableTodoCount (scan : AgentProjectScan) : Nat :=
  scan.todoCount - scan.manualTodoCount - scan.blockedTodoCount - scan.stoppedTodoCount -
    scan.coordinationWaitCount

theorem fromCounts_pending_iff {todo blocked stopped doing blockedDoing : Nat} :
    (fromCounts todo blocked stopped doing blockedDoing).status = .pending ↔
      0 < todo - blocked - stopped := by
  unfold fromCounts
  dsimp only
  split
  · exact iff_of_true rfl (by assumption)
  · split
    · exact iff_of_false (by decide) (by assumption)
    · exact iff_of_false (by decide) (by assumption)

end AgentProjectScan

/-- `ensure_existing_board`; a file in the place of the board is an error. -/
def ensureExistingBoard (project : Folder) : Option (Option Folder) :=
  match node? project "tasks".toList with
  | none => some none
  | some (.file _) => none
  | some (.folder board) =>
    if boardHasAnyStatusStore board then (ensureBoardStore board).map fun _ => some board
    else some none

/-- `get_tasks_dir`. -/
def getTasksDir (project : List Text) : List Text := project ++ ["tasks".toList]

/-- The paths of the entries that wait in a board. -/
def todoStore (project : List Text) : List Text := getTasksDir project ++ [TaskStatus.todo.dirName]

namespace Admission

variable (context : Admission)

/-- The end of `scan_agent_project`, from what it read. -/
def scanEntries (tasks : List LoadedTask) (store : List Text) (todo doing : List TaskEntry) :
    AgentProjectScan :=
  let coordinationWaitCount :=
    todo.countP fun entry => taskEntryIsReady entry && !context.ready tasks store entry
  let ownTodo := todo.filter fun entry => !taskContentIsManual entry.content
  let ownDoing := doing.filter fun entry => !taskContentIsManual entry.content
  let isBlocked := fun entry : TaskEntry =>
    taskContentIsBlocked entry.content && !taskContentIsStopped entry.content
  let scan := AgentProjectScan.fromCounts ownTodo.length (ownTodo.countP isBlocked)
    (ownTodo.countP fun entry => taskContentIsStopped entry.content) ownDoing.length
    (ownDoing.countP isBlocked)
  let scan : AgentProjectScan := { scan with coordinationWaitCount := coordinationWaitCount }
  let scan : AgentProjectScan :=
    if scan.availableTodoCount = 0 ∧ scan.status = .pending then { scan with status := .empty }
    else scan
  { scan with
    manualTodoCount := todo.length - ownTodo.length
    todoCount := todo.length
    doingCount := doing.length }

/-- `scan_agent_project`. -/
def scanAgentProject (root : Folder) (project : List Text) : AgentProjectScan :=
  match folderAtPath root project with
  | none => { status := .missing }
  | some folder =>
    match ensureExistingBoard folder with
    | none => { status := .unavailable }
    | some none => { status := .uninitialized }
    | some (some board) =>
      let scan := do
        let todo ← readTaskEntries context.toLowercase board .todo
        let doing ← readTaskEntries context.toLowercase board .doing
        let tasks ← context.load root (getTasksDir project)
        some (context.scanEntries tasks (todoStore project) todo doing)
      scan.getD { status := .unavailable }

/-- What `ready_tasks` reads: the entries that wait in a board, and the snapshot. -/
def readBoard (root : Folder) (project : List Text) : Option (List TaskEntry × List LoadedTask) := do
  let board ← (folderAtPath root (getTasksDir project)).filter boardHasAnyStatusStore
  let tasks ← context.load root (getTasksDir project)
  let todo ← readTaskEntries context.toLowercase board .todo
  some (todo, tasks)

/-- `ready_tasks`. -/
def readyTasks (root : Folder) (project : List Text) : Option (List TaskEntry) :=
  match (folderAtPath root (getTasksDir project)).filter boardHasAnyStatusStore with
  | none => some []
  | some board => do
    let tasks ← context.load root (getTasksDir project)
    let todo ← readTaskEntries context.toLowercase board .todo
    some (todo.filter (context.ready tasks (todoStore project)))

/-! ## What is counted -/

section Counts

variable {tasks : List LoadedTask} {store : List Text} {todo doing : List TaskEntry}

/-- An entry that is not manual is blocked, stopped, waiting or ready, and counted once. -/
theorem length_eq_counts (tasks : List LoadedTask) (store : List Text) (todo : List TaskEntry) :
    let own := todo.filter fun entry => !taskContentIsManual entry.content
    own.length =
      own.countP (fun entry => taskContentIsBlocked entry.content &&
        !taskContentIsStopped entry.content) +
      own.countP (fun entry => taskContentIsStopped entry.content) +
      todo.countP (fun entry => taskEntryIsReady entry && !context.ready tasks store entry) +
      (todo.filter (context.ready tasks store)).length := by
  induction todo with
  | nil => rfl
  | cons entry todo ih =>
    have hready : context.ready tasks store entry = true → taskEntryIsReady entry = true := by
      intro h
      exact (Bool.and_eq_true_iff.mp h).1
    dsimp only at ih ⊢
    rw [taskEntryIsReady] at hready
    -- A manual task is counted nowhere; any other is stopped, blocked, waiting or ready.
    cases hmanual : taskContentIsManual entry.content with
    | true =>
      rw [hmanual, Bool.not_true, Bool.and_false] at hready
      have hunready : context.ready tasks store entry = false := by
        rw [← Bool.not_eq_true]
        exact fun h => absurd (hready h) Bool.false_ne_true
      rw [List.filter_cons_of_neg (by rw [hmanual]; decide), List.countP_cons_of_neg
        (by rw [taskEntryIsReady, hmanual]; simp), List.filter_cons_of_neg (by rw [hunready]; decide)]
      exact ih
    | false =>
      rw [List.filter_cons_of_pos (by rw [hmanual]; decide)]
      rw [List.length_cons, List.countP_cons, List.countP_cons, List.countP_cons, List.filter_cons,
        taskEntryIsReady, hmanual]
      cases hstopped : taskContentIsStopped entry.content <;>
        cases hblocked : taskContentIsBlocked entry.content <;>
        cases hentry : context.ready tasks store entry <;>
        simp [hstopped, hblocked, hentry, hmanual] at hready ⊢ <;> omega

/-- The scan of a board that is read counts what is ready. -/
theorem scanEntries_counts (tasks : List LoadedTask) (store : List Text)
    (todo doing : List TaskEntry) :
    let scan := context.scanEntries tasks store todo doing
    let ready := todo.filter (context.ready tasks store)
    scan.availableTodoCount = ready.length ∧ (scan.status = .pending ↔ ready ≠ []) := by
  have hcounts := context.length_eq_counts tasks store todo
  have hown := List.length_filter_le (fun entry : TaskEntry => !taskContentIsManual entry.content)
    todo
  dsimp only at hcounts ⊢
  rw [← List.length_pos_iff]
  unfold scanEntries
  dsimp only
  -- From here on only the four counts matter.
  generalize todo.filter (fun entry => !taskContentIsManual entry.content) = own at *
  generalize todo.countP _ = waiting at *
  generalize own.countP _ = blocked at *
  generalize own.countP _ = stopped at *
  constructor
  · rw [AgentProjectScan.availableTodoCount]
    split <;> simp only [AgentProjectScan.fromCounts] <;> omega
  · split
    · rename_i hnone
      have hzero := hnone.1
      rw [AgentProjectScan.availableTodoCount, AgentProjectScan.fromCounts] at hzero
      dsimp only at hzero
      exact iff_of_false (by intro h; cases h) (by omega)
    · rename_i hsome
      rw [AgentProjectScan.availableTodoCount, AgentProjectScan.fromCounts_pending_iff] at hsome
      dsimp only [AgentProjectScan.fromCounts] at hsome
      rw [AgentProjectScan.fromCounts_pending_iff]
      omega

end Counts

/-! ## What is read -/

section Reads

variable {context : Admission} {root : Folder} {project : List Text} {todo : List TaskEntry}
  {tasks : List LoadedTask}

theorem folderAtPath_append (F : Folder) (path : List Text) (name : Text) :
    folderAtPath F (path ++ [name]) = (folderAtPath F path).bind fun G => folderAt G name := by
  induction path generalizing F with
  | nil =>
    rw [List.nil_append, folderAtPath, folderAtPath, Option.bind_some]
    cases folderAt F name with
    | none => rfl
    | some G => rfl
  | cons first path ih =>
    rw [List.cons_append, folderAtPath, folderAtPath]
    cases folderAt F first with
    | none => rfl
    | some G => exact ih G

theorem readyTasks_of_readBoard (h : context.readBoard root project = some (todo, tasks)) :
    context.readyTasks root project =
      some (todo.filter (context.ready tasks (todoStore project))) := by
  obtain ⟨board, hboard, h⟩ := Option.bind_eq_some_iff.mp h
  obtain ⟨loaded, hload, h⟩ := Option.bind_eq_some_iff.mp h
  obtain ⟨entries, hread, h⟩ := Option.bind_eq_some_iff.mp h
  cases h
  rw [readyTasks, hboard]
  dsimp only
  rw [hload, hread]
  rfl

/-- Where no board is read, nothing is ready or nothing is returned. -/
theorem readyTasks_of_readBoard_eq_none (h : context.readBoard root project = none) :
    (folderAtPath root (getTasksDir project)).filter boardHasAnyStatusStore = none ∧
        context.readyTasks root project = some [] ∨
      context.readyTasks root project = none := by
  unfold readyTasks
  unfold readBoard at h
  cases hboard : (folderAtPath root (getTasksDir project)).filter boardHasAnyStatusStore with
  | none => exact .inl ⟨rfl, rfl⟩
  | some board =>
    rw [hboard] at h
    replace h : ((context.load root (getTasksDir project)).bind fun tasks =>
        (readTaskEntries context.toLowercase board .todo).bind fun todo => some (todo, tasks)) =
          none := h
    refine .inr ?_
    dsimp only
    cases hload : context.load root (getTasksDir project) with
    | none => rfl
    | some tasks =>
      cases hread : readTaskEntries context.toLowercase board .todo with
      | none => rfl
      | some todo =>
        rw [hload, Option.bind_some, hread] at h
        cases h

/-- The store of the tasks in progress can be read. -/
def doingEntries (context : Admission) (root : Folder) (project : List Text) :
    Option (List TaskEntry) :=
  (folderAtPath root (getTasksDir project)).bind fun board =>
    readTaskEntries context.toLowercase board .doing

/-- A scan that has no board to read has nothing to count. -/
theorem scanAgentProject_of_no_board
    (h : (folderAtPath root (getTasksDir project)).filter boardHasAnyStatusStore = none) :
    (context.scanAgentProject root project).availableTodoCount = 0 ∧
      (context.scanAgentProject root project).status ≠ .pending := by
  unfold scanAgentProject
  rw [getTasksDir, folderAtPath_append] at h
  cases hfolder : folderAtPath root project with
  | none => exact ⟨rfl, by intro h; cases h⟩
  | some folder =>
    rw [hfolder, Option.bind_some, folderAt] at h
    dsimp only
    rw [ensureExistingBoard]
    cases hnode : node? folder "tasks".toList with
    | none => exact ⟨rfl, by intro h; cases h⟩
    | some node =>
      rw [hnode] at h
      cases node with
      | file content => exact ⟨rfl, by intro h; cases h⟩
      | folder board =>
        dsimp only at h ⊢
        -- A folder without a status store is not taken for a board.
        have hstore : ¬ boardHasAnyStatusStore board = true := by
          intro hstore
          rw [Option.filter_some, if_pos hstore] at h
          cases h
        rw [if_neg hstore]
        exact ⟨rfl, by intro h; cases h⟩

theorem scanAgentProject_of_readBoard (h : context.readBoard root project = some (todo, tasks)) :
    context.scanAgentProject root project =
      ((context.doingEntries root project).map
        (context.scanEntries tasks (todoStore project) todo)).getD { status := .unavailable } := by
  obtain ⟨board, hboard, h⟩ := Option.bind_eq_some_iff.mp h
  obtain ⟨loaded, hload, h⟩ := Option.bind_eq_some_iff.mp h
  obtain ⟨entries, hread, h⟩ := Option.bind_eq_some_iff.mp h
  cases h
  obtain ⟨hfound, hstore⟩ := Option.filter_eq_some_iff.mp hboard
  have hpath := hfound
  rw [getTasksDir, folderAtPath_append] at hpath
  obtain ⟨folder, hfolder, hchild⟩ := Option.bind_eq_some_iff.mp hpath
  have hnode : node? folder "tasks".toList = some (.folder board) := by
    rw [folderAt] at hchild
    split at hchild
    · rename_i children hnode
      rw [← Option.some.inj hchild]
      exact hnode
    · cases hchild
  -- A board whose entries are read has had its stores ensured.
  obtain ⟨ensured, hensured⟩ : ∃ ensured, ensureBoardStore board = some ensured := by
    obtain ⟨found, hfound, -⟩ := Option.bind_eq_some_iff.mp hread
    obtain ⟨ensured, hensured, -⟩ := Option.bind_eq_some_iff.mp hfound
    exact ⟨ensured, hensured⟩
  have hexisting : ensureExistingBoard folder = some (some board) := by
    rw [ensureExistingBoard, hnode]
    dsimp only
    rw [if_pos hstore, hensured, Option.map_some]
  unfold scanAgentProject
  rw [hfolder]
  dsimp only
  rw [hexisting, doingEntries, hfound, Option.bind_some]
  dsimp only
  rw [hread, hload]
  cases readTaskEntries context.toLowercase board .doing with
  | none => rfl
  | some doing => rfl

end Reads

/-! ## The promise -/

/-- `Snapshot::waits` of the task at a place of the board is empty. -/
def selectedAdmitted (context : Admission) (tasks : List LoadedTask) (board : List Text)
    (index : Nat) : Bool :=
  match (context.snapshot tasks).selected (pathString board) .todo index with
  | .ok task => context.isAdmitted tasks task
  | .error _ => false

/-- What is asked for an entry: the first task with its source and text does not wait. -/
def foundAdmitted (context : Admission) (tasks : List LoadedTask) (store : List Text)
    (entry : TaskEntry) : Bool :=
  (foundTask tasks (entry.sourceIn store) entry.content).any fun loaded =>
    context.isAdmitted tasks loaded.task

/-- The scan counts the ready tasks, and an entry is ready when its own task does not wait. -/
def CountsOwnTasks (context : Admission) (root : Folder) (project : List Text) : Prop :=
  (∀ ready, context.readyTasks root project = some ready →
    (context.scanAgentProject root project).availableTodoCount = ready.length ∧
      ((context.scanAgentProject root project).status = .pending ↔ ready ≠ [])) ∧
  ∀ todo tasks, context.readBoard root project = some (todo, tasks) →
    ∀ ready, context.readyTasks root project = some ready →
      ∀ numbered ∈ todo.zipIdx, numbered.1 ∈ ready ↔ taskEntryIsReady numbered.1 = true ∧
        context.selectedAdmitted tasks (getTasksDir project) (numbered.2 + 1) = true

/-- The first task with the source and text of an entry is as free as the entry's own, for every
entry that is neither stopped, blocked nor manual; where one is free, the tasks in progress can be
read. -/
def FindsOwnTasks (context : Admission) (root : Folder) (project : List Text) : Prop :=
  ∀ todo tasks, context.readBoard root project = some (todo, tasks) →
    (∀ numbered ∈ todo.zipIdx, taskEntryIsReady numbered.1 = true →
      context.foundAdmitted tasks (todoStore project) numbered.1 =
        context.selectedAdmitted tasks (getTasksDir project) (numbered.2 + 1)) ∧
    ((∃ entry ∈ todo, context.ready tasks (todoStore project) entry = true) →
      (context.doingEntries root project).isSome)

section Promise

variable {context : Admission} {root : Folder} {project : List Text} {todo : List TaskEntry}
  {tasks : List LoadedTask}

theorem ready_eq (store : List Text) (entry : TaskEntry) : context.ready tasks store entry =
    (taskEntryIsReady entry && context.foundAdmitted tasks store entry) := rfl

/-- The counts agree unless an entry is ready in a board whose tasks in progress are not read. -/
theorem counts_iff (h : context.readBoard root project = some (todo, tasks)) :
    (∀ ready, context.readyTasks root project = some ready →
      (context.scanAgentProject root project).availableTodoCount = ready.length ∧
        ((context.scanAgentProject root project).status = .pending ↔ ready ≠ [])) ↔
      ((∃ entry ∈ todo, context.ready tasks (todoStore project) entry = true) →
        (context.doingEntries root project).isSome) := by
  have hnonempty : (∃ entry ∈ todo, context.ready tasks (todoStore project) entry = true) ↔
      0 < (todo.filter (context.ready tasks (todoStore project))).length := by
    rw [List.length_pos_iff_exists_mem]
    simp only [List.mem_filter]
  rw [readyTasks_of_readBoard h, scanAgentProject_of_readBoard h, hnonempty]
  -- Without the Doing list the scan gives up and counts nothing.
  cases hdoing : context.doingEntries root project with
  | some doing =>
    refine iff_of_true (fun ready hready => ?_) fun _ => rfl
    rw [← Option.some.inj hready]
    exact context.scanEntries_counts tasks (todoStore project) todo doing
  | none =>
    constructor
    · intro hcounts hpos
      have hzero := (hcounts _ rfl).1
      exact absurd hzero (Nat.ne_of_lt hpos)
    · intro hnone ready hready
      have hempty : ¬ 0 < ready.length := by
        rw [← Option.some.inj hready]
        exact fun hpos => absurd (hnone hpos) Bool.false_ne_true
      refine ⟨(Nat.eq_zero_of_not_pos hempty).symm, iff_of_false (by intro h; cases h) ?_⟩
      exact fun hne => hempty (List.length_pos_iff.mpr hne)

/-- An entry is among the ready ones when it is one of those that the board has. -/
theorem mem_ready_iff {numbered : TaskEntry × Nat} (hmem : numbered ∈ todo.zipIdx) :
    numbered.1 ∈ todo.filter (context.ready tasks (todoStore project)) ↔
      taskEntryIsReady numbered.1 = true ∧
        context.foundAdmitted tasks (todoStore project) numbered.1 = true := by
  have hentry : numbered.1 ∈ todo := by
    obtain ⟨entry, index⟩ := numbered
    exact List.fst_mem_of_mem_zipIdx hmem
  rw [List.mem_filter, ready_eq, Bool.and_eq_true_iff]
  exact ⟨fun h => h.2, fun h => ⟨hentry, h⟩⟩

/-- The scan and `ready_tasks` keep their promise on exactly the boards whose entries are found. -/
theorem countsOwnTasks_iff (context : Admission) (root : Folder) (project : List Text) :
    context.CountsOwnTasks root project ↔ context.FindsOwnTasks root project := by
  cases hread : context.readBoard root project with
  | none =>
    refine iff_of_true ⟨fun ready hready => ?_, fun todo tasks h => ?_⟩ fun todo tasks h => ?_
    · rcases readyTasks_of_readBoard_eq_none hread with ⟨hboard, hempty⟩ | hnone
      · have hscan : (context.scanAgentProject root project).availableTodoCount = 0 ∧
            (context.scanAgentProject root project).status ≠ .pending :=
          scanAgentProject_of_no_board hboard
        obtain ⟨hzero, hstatus⟩ := hscan
        rw [hempty] at hready
        rw [← Option.some.inj hready]
        exact ⟨hzero, iff_of_false hstatus fun h => h rfl⟩
      · rw [hnone] at hready
        cases hready
    · rw [hread] at h
      cases h
    · rw [hread] at h
      cases h
  | some read =>
    obtain ⟨todo, tasks⟩ := read
    have hready := readyTasks_of_readBoard hread
    -- An entry of the board is ready by itself, and admitted by what is found for it.
    rw [CountsOwnTasks, counts_iff hread]
    constructor
    · rintro ⟨hdoing, hown⟩ todo' tasks' hread'
      rw [hread] at hread'
      cases hread'
      refine ⟨fun numbered hmem hcandidate => ?_, hdoing⟩
      have hiff := hown todo tasks hread _ hready numbered hmem
      rw [mem_ready_iff hmem, and_congr_right_iff] at hiff
      exact Bool.eq_iff_iff.mpr (hiff hcandidate)
    · intro hfinds
      obtain ⟨hfound, hdoing⟩ := hfinds todo tasks hread
      refine ⟨hdoing, fun todo' tasks' hread' ready hready' numbered hmem => ?_⟩
      rw [hread] at hread'
      cases hread'
      rw [hready] at hready'
      rw [← Option.some.inj hready', mem_ready_iff hmem, and_congr_right_iff]
      intro hcandidate
      rw [hfound numbered hmem hcandidate]

end Promise

/-! ## A task with a twin -/

/-- No metadata, no registry and no changes. -/
def plainAdmission : Admission where
  toLowercase name := name
  decode _ := .error "no metadata"
  evidence _ _ := ""
  proofs := some ⟨fun _ => none, fun _ => false, fun _ => none⟩
  changedFiles := []

/-- Two tasks of an outer board have boards of their own. A line of the first one is in progress;
the second one, whose board is that of a project, has the same line waiting. -/
def twinBoards : Folder :=
  [("todo".toList, .folder
    [("a".toList, .folder
      [("doing.md".toList, .file "# Doing Tasks\n- Fix `src/main.rs`\n".toList)]),
     ("tasks".toList, .folder
      [("todo.md".toList, .file "# To Do Tasks\n- Fix `src/main.rs`\n".toList)])])]

theorem twinBoards_read :
    (plainAdmission.readBoard twinBoards ["todo".toList]).any (fun read =>
      read.1.zipIdx.any fun numbered =>
        taskEntryIsReady numbered.1 &&
          plainAdmission.foundAdmitted read.2 (todoStore ["todo".toList]) numbered.1 &&
          !plainAdmission.selectedAdmitted read.2 (getTasksDir ["todo".toList])
            (numbered.2 + 1)) = true := by
  decide

/-- The waiting line is ready, since the line in progress waits for nothing. -/
theorem twin_is_ready : ¬ plainAdmission.CountsOwnTasks twinBoards ["todo".toList] := by
  intro h
  obtain ⟨⟨todo, tasks⟩, hread, hany⟩ := (Option.any_eq_true _ _).mp twinBoards_read
  obtain ⟨numbered, hmem, hboth⟩ := List.any_eq_true.mp hany
  simp only [Bool.and_eq_true, Bool.not_eq_true'] at hboth
  obtain ⟨⟨hcandidate, hfound⟩, hselected⟩ := hboth
  have hready := (mem_ready_iff hmem).mpr ⟨hcandidate, hfound⟩
  have hown := (h.2 todo tasks hread _ (readyTasks_of_readBoard hread) numbered hmem).mp hready
  rw [hselected] at hown
  exact absurd hown.2 Bool.false_ne_true

end Admission

end Clt
