import Clt.Coordination.ReadyTasks

/-!
# Boards that lie in no other

On an outermost board every entry is found: what comes before its task in the snapshot has another
source, or lies on a board below.
-/

namespace Clt

open Files

/-! ## Finding an entry -/

/-- What is asked of the tasks with a source and a text. -/
def LoadedTask.isOf (source : EntrySource) (content : Text) (loaded : LoadedTask) : Bool :=
  loaded.source == source && loaded.task.content == content

/-- What is asked of the task at a place. -/
def LoadedTask.isAt (board : String) (status : TaskStatus) (index : Nat) (loaded : LoadedTask) :
    Bool :=
  loaded.task.board == board && loaded.task.status == status && loaded.task.index == index

namespace Admission

section Finding

variable {context : Admission} {collect : List Text → Folder → Option (List LoadedTask)}
  {path : List Text} {board : Folder} {status : TaskStatus} {entries : List TaskEntry}
  {lists : List (List LoadedTask)} {p : LoadedTask → Bool}

/-- The task that is pushed for an entry. -/
def ownTask (context : Admission) (path : List Text) (status : TaskStatus)
    (numbered : TaskEntry × Nat) : Option LoadedTask :=
  context.loadTask path status (numbered.2 + 1)
    (numbered.1.sourceIn (path ++ [status.dirName])) numbered.1

theorem collectEntry_eq_some {numbered : TaskEntry × Nat} {list : List LoadedTask} :
    context.collectEntry collect path board status numbered = some list ↔
      ∃ nested task, nestedTasks collect path board status numbered.1 = some nested ∧
        context.ownTask path status numbered = some task ∧ nested ++ [task] = list := by
  unfold collectEntry
  constructor
  · intro h
    obtain ⟨nested, hnested, h⟩ := Option.bind_eq_some_iff.mp h
    obtain ⟨task, htask, h⟩ := Option.bind_eq_some_iff.mp h
    exact ⟨nested, task, hnested, htask, Option.some.inj h⟩
  · rintro ⟨nested, task, hnested, htask, rfl⟩
    rw [ownTask] at htask
    rw [hnested, htask]
    rfl

theorem mapM_cons_eq_some {α β : Type} {f : α → Option β} {a : α} {as : List α} {bs : List β} :
    (a :: as).mapM f = some bs ↔
      ∃ b rest, f a = some b ∧ as.mapM f = some rest ∧ bs = b :: rest := by
  rw [List.mapM_cons]
  constructor
  · intro h
    obtain ⟨b, hb, h⟩ := Option.bind_eq_some_iff.mp h
    obtain ⟨rest, hrest, h⟩ := Option.bind_eq_some_iff.mp h
    exact ⟨b, rest, hb, hrest, (Option.some.inj h).symm⟩
  · rintro ⟨b, rest, hb, hrest, rfl⟩
    rw [hb, hrest]
    rfl

/-- The first task that meets `p` is that of an entry, when no task before it does. -/
theorem find_collectEntries {k i : Nat} {entry : TaskEntry}
    (h : (entries.zipIdx k).mapM (context.collectEntry collect path board status) = some lists)
    (hmem : (entry, i) ∈ entries.zipIdx k)
    (hnested : ∀ other ∈ entries, ∀ nested,
      nestedTasks collect path board status other = some nested → ∀ t ∈ nested, p t = false)
    (hbefore : ∀ numbered ∈ entries.zipIdx k, numbered.2 < i → ∀ t,
      context.ownTask path status numbered = some t → p t = false)
    (hown : ∀ t, context.ownTask path status (entry, i) = some t → p t = true) :
    ∃ task, context.ownTask path status (entry, i) = some task ∧
      lists.flatten.find? p = some task := by
  induction entries generalizing k lists with
  | nil => cases hmem
  | cons first entries ih =>
    rw [List.zipIdx_cons] at h hmem hbefore
    obtain ⟨list, rest, hlist, hrest, rfl⟩ := mapM_cons_eq_some.mp h
    obtain ⟨nested, task, hnest, htask, rfl⟩ := collectEntry_eq_some.mp hlist
    have hskip : nested.find? p = none := by
      rw [List.find?_eq_none]
      intro t ht
      rw [hnested first List.mem_cons_self nested hnest t ht]
      exact Bool.false_ne_true
    -- The tasks below an entry come before the entry itself, and none of them is found.
    rw [List.flatten_cons, List.find?_append, List.find?_append, hskip, Option.none_or]
    rcases List.mem_cons.mp hmem with heq | hlater
    · obtain ⟨rfl, rfl⟩ := Prod.mk.inj heq
      refine ⟨task, htask, ?_⟩
      rw [List.find?_cons_of_pos (hown task htask), Option.some_or]
    · have hless : k < i := List.le_snd_of_mem_zipIdx hlater
      have hfirst := hbefore (first, k) List.mem_cons_self hless task htask
      have hneg : ¬ p task = true := by
        rw [hfirst]
        exact Bool.false_ne_true
      rw [List.find?_cons_of_neg hneg, List.find?_nil, Option.none_or]
      refine ih hrest hlater (fun other hother => ?_) (fun numbered hnumbered => ?_)
      · exact hnested other (List.mem_cons_of_mem _ hother)
      · exact hbefore numbered (List.mem_cons_of_mem _ hnumbered)

end Finding

/-! ## Depth -/

section Depth

variable {context : Admission} {path : List Text} {board : Folder} {status : TaskStatus} {n m : Nat}

theorem depth_boardOfEntry {entry : TaskEntry} {name : Text} {children : Folder}
    (h : boardOfEntry board status entry = some (name, children)) :
    depth children + 2 ≤ depth board := by
  unfold boardOfEntry at h
  split at h
  · split at h
    · obtain ⟨inner, hinner, heq⟩ := Option.map_eq_some_iff.mp h
      cases heq
      obtain ⟨tasks, htasks, hchild⟩ := Option.bind_eq_some_iff.mp hinner
      have hpath : folderAtPath board [status.dirName, name] = some children := by
        rw [folderAtPath, htasks, Option.bind_some, folderAtPath, hchild]
        rfl
      exact depth_folderAtPath hpath
    · cases h
  · cases h

/-- Every board below is collected: more depth finds nothing else. -/
theorem collect_depth (hn : depth board < n) (hm : depth board < m) :
    context.collect n path board = context.collect m path board := by
  induction n generalizing path board m with
  | zero => omega
  | succ n ih =>
    cases m with
    | zero => omega
    | succ m =>
      -- A board below is two levels less deep, so both depths reach it.
      have hnested (status : TaskStatus) (entry : TaskEntry) :
          nestedTasks (context.collect n) path board status entry =
            nestedTasks (context.collect m) path board status entry := by
        unfold nestedTasks
        cases hboard : boardOfEntry board status entry with
        | none => rfl
        | some found =>
          obtain ⟨name, children⟩ := found
          have hdepth := depth_boardOfEntry hboard
          exact ih (by omega) (by omega)
      have hstatus : context.collectStatus (context.collect n) path board =
          context.collectStatus (context.collect m) path board := by
        funext status
        have hentry : context.collectEntry (context.collect n) path board status =
            context.collectEntry (context.collect m) path board status := by
          funext numbered
          rw [collectEntry, collectEntry, hnested]
        rw [collectStatus, collectStatus, hentry]
      rw [collect, collect, hstatus]

end Depth

/-! ## Where the tasks lie -/

/-- The task lies on the board or on a board below it. -/
structure LiesIn (path : List Text) (loaded : LoadedTask) : Prop where
  board : ∃ more, loaded.task.board = pathString (path ++ more)
  source : ∀ {at_ : List Text} {isDir : Bool}, loaded.source = .path at_ isDir →
    path.length + 2 ≤ at_.length

section Lying

variable {context : Admission} {collect : List Text → Folder → Option (List LoadedTask)}
  {path : List Text} {board : Folder} {status : TaskStatus} {loaded : LoadedTask}
  {tasks : List LoadedTask}

theorem LiesIn.below {more : List Text} (h : LiesIn (path ++ more) loaded) : LiesIn path loaded := by
  obtain ⟨⟨further, hboard⟩, hsource⟩ := h
  refine ⟨⟨more ++ further, ?_⟩, fun hpath => ?_⟩
  · rw [hboard, List.append_assoc]
  · have hlength := hsource hpath
    rw [List.length_append] at hlength
    omega

theorem liesIn_loadTask {index : Nat} {store : Text} {entry : TaskEntry}
    (h : context.loadTask path status index (entry.sourceIn (path ++ [store])) entry =
      some loaded) : LiesIn path loaded := by
  obtain ⟨metadata, -, rfl⟩ := Option.map_eq_some_iff.mp h
  refine ⟨⟨[], ?_⟩, fun hpath => ?_⟩
  · rw [List.append_nil]
  · dsimp only at hpath
    rw [TaskEntry.sourceIn] at hpath
    split at hpath
    · cases hpath
    · cases hpath
      simp

/-- What lies on the board of an entry. -/
theorem liesIn_nested (hcollect : ∀ {path board tasks}, collect path board = some tasks →
      ∀ t ∈ tasks, LiesIn path t) {entry : TaskEntry} {nested : List LoadedTask}
    (h : nestedTasks collect path board status entry = some nested) :
    ∀ t ∈ nested, ∃ name, entry.source = .path name true ∧
      LiesIn (path ++ [status.dirName, name]) t := by
  unfold nestedTasks at h
  split at h
  · rename_i name children hboard
    intro t ht
    refine ⟨name, ?_, hcollect h t ht⟩
    unfold boardOfEntry at hboard
    split at hboard
    · rename_i other hsource
      split at hboard
      · obtain ⟨_, -, heq⟩ := Option.map_eq_some_iff.mp hboard
        rw [hsource, (Prod.mk.inj heq).1]
      · cases hboard
    · cases hboard
  · cases h
    intro t ht
    cases ht

theorem exists_of_mapM_eq_some {α β : Type} {f : α → Option β} {as : List α} {bs : List β}
    (h : as.mapM f = some bs) {b : β} (hb : b ∈ bs) : ∃ a ∈ as, f a = some b := by
  induction as generalizing bs with
  | nil =>
    cases h
    cases hb
  | cons a as ih =>
    obtain ⟨first, rest, hfirst, hrest, rfl⟩ := mapM_cons_eq_some.mp h
    rcases List.mem_cons.mp hb with rfl | hmem
    · exact ⟨a, List.mem_cons_self, hfirst⟩
    · obtain ⟨a', ha', heq⟩ := ih hrest hmem
      exact ⟨a', List.mem_cons_of_mem _ ha', heq⟩

theorem liesIn_collectStatus (hcollect : ∀ {path board tasks}, collect path board = some tasks →
      ∀ t ∈ tasks, LiesIn path t)
    (h : context.collectStatus collect path board status = some tasks) :
    ∀ t ∈ tasks, LiesIn path t := by
  obtain ⟨entries, -, h⟩ := Option.bind_eq_some_iff.mp h
  obtain ⟨lists, hlists, h⟩ := Option.bind_eq_some_iff.mp h
  cases h
  intro t ht
  obtain ⟨list, hlist, ht⟩ := List.mem_flatten.mp ht
  obtain ⟨numbered, -, hentry⟩ := exists_of_mapM_eq_some hlists hlist
  obtain ⟨nested, task, hnested, htask, rfl⟩ := collectEntry_eq_some.mp hentry
  rcases List.mem_append.mp ht with hmem | hmem
  · obtain ⟨name, -, hlies⟩ := liesIn_nested hcollect hnested t hmem
    exact hlies.below
  · rw [List.mem_singleton.mp hmem]
    exact liesIn_loadTask htask

theorem liesIn_collectArchived (h : context.collectArchived path board = some tasks) :
    ∀ t ∈ tasks, LiesIn path t := by
  obtain ⟨all, hall, h⟩ := Option.bind_eq_some_iff.mp h
  cases h
  intro t ht
  obtain ⟨loaded, hloaded, rfl⟩ := List.mem_map.mp ht
  obtain ⟨entry, -, hentry⟩ := exists_of_mapM_eq_some hall (List.mem_filter.mp hloaded).1
  obtain ⟨hboard, hsource⟩ := liesIn_loadTask hentry
  exact ⟨hboard, hsource⟩

/-- By induction on the depth of the boards. -/
theorem liesIn_collect {fuel : Nat} (h : context.collect fuel path board = some tasks) :
    ∀ t ∈ tasks, LiesIn path t := by
  induction fuel generalizing path board tasks with
  | zero => cases h
  | succ fuel ih =>
    obtain ⟨lists, hlists, h⟩ := Option.bind_eq_some_iff.mp h
    obtain ⟨archived, harchived, h⟩ := Option.bind_eq_some_iff.mp h
    cases h
    intro t ht
    rcases List.mem_append.mp ht with hmem | hmem
    · obtain ⟨list, hlist, ht⟩ := List.mem_flatten.mp hmem
      obtain ⟨status, -, hstatus⟩ := exists_of_mapM_eq_some hlists hlist
      exact liesIn_collectStatus ih hstatus t ht
    · exact liesIn_collectArchived harchived t hmem

/-- A board below has another path. -/
theorem pathString_below_ne (path more : List Text) (name : Text) :
    pathString (path ++ name :: more) ≠ pathString path := by
  intro h
  have hchars := congrArg List.length (String.ofList_inj.mp h)
  rw [List.flatMap_append, List.flatMap_cons, List.length_append, List.length_append,
    List.length_cons] at hchars
  omega

end Lying

/-! ## The entries of a store -/

section Sources

variable {toLowercase : Text → Text} {board : Folder} {status : TaskStatus}

/-- The entries of a list are lines, and those of a folder are paths. -/
theorem source_storeEntries (toLowercase : Text → Text) (content : StoreContent) :
    (∀ entry ∈ storeEntries toLowercase content, ∃ line, entry.source = .markdownLine line) ∨
      ∀ entry ∈ storeEntries toLowercase content, ∃ name isDir, entry.source = .path name isDir := by
  cases content with
  | tasks tasks =>
    refine .inr fun entry hentry => ?_
    obtain ⟨task, -, rfl⟩ := List.mem_map.mp hentry
    unfold directoryEntry
    split
    · exact ⟨_, _, rfl⟩
    · exact ⟨_, _, rfl⟩
  | list text =>
    refine .inl fun entry hentry => ?_
    obtain ⟨⟨line, index⟩, -, hline⟩ := List.mem_filterMap.mp hentry
    obtain ⟨taskText, -, rfl⟩ := Option.map_eq_some_iff.mp hline
    exact ⟨index, rfl⟩
  | nothing => exact .inl fun entry hentry => by cases hentry

theorem name_directoryEntry (task : Text × Node) :
    ∃ isDir, (directoryEntry task).source = .path task.1 isDir := by
  unfold directoryEntry
  split
  · exact ⟨false, rfl⟩
  · exact ⟨true, rfl⟩

/-- No two entries of a store have one source, since no two children of a folder have one name. -/
theorem sources_pairwise_ne (hnames : ∀ tasks, folderAt board status.dirName = some tasks →
      (tasks.map Prod.fst).Nodup) :
    (storeEntries toLowercase (storeContent board status)).Pairwise fun a b =>
      a.source ≠ b.source := by
  unfold storeContent
  cases hfolder : folderAt board status.dirName with
  | some tasks =>
    have hshown : ((directoryTaskPaths toLowercase tasks).map Prod.fst).Nodup := by
      have hperm := (Listing.sortByKey_perm (listingKey toLowercase)
        (tasks.filter fun task => !isHidden task.1)).map Prod.fst
      exact hperm.nodup_iff.mpr ((hnames tasks hfolder).sublist (List.filter_sublist.map Prod.fst))
    dsimp only
    rw [storeEntries, readDirectoryEntries, List.pairwise_map]
    refine (List.pairwise_map.mp hshown).imp fun {a b} hne heq => hne ?_
    obtain ⟨_, ha⟩ := name_directoryEntry a
    obtain ⟨_, hb⟩ := name_directoryEntry b
    rw [ha, hb] at heq
    exact (TaskSource.path.inj heq).1
  | none =>
    cases fileAt board status.filename with
    | some text =>
      -- Entries of a list differ by their lines.
      have hsnd : ((Text.lines text).zipIdx.map Prod.snd).Nodup := by
        rw [List.zipIdx_map_snd]
        exact List.nodup_range'
      dsimp only
      refine (List.pairwise_map.mp hsnd).filterMap _ fun a b hne x hx y hy heq => hne ?_
      obtain ⟨_, -, rfl⟩ := Option.map_eq_some_iff.mp hx
      obtain ⟨_, -, rfl⟩ := Option.map_eq_some_iff.mp hy
      exact TaskSource.markdownLine.inj heq
    | none => exact .nil

theorem sourceIn_injective {a b : TaskEntry} {store : List Text}
    (h : a.sourceIn store = b.sourceIn store) : a.source = b.source := by
  unfold TaskEntry.sourceIn at h
  cases ha : a.source with
  | markdownLine line =>
    cases hb : b.source with
    | markdownLine line' =>
      rw [ha, hb] at h
      rw [EntrySource.markdownLine.inj h]
    | path name isDir =>
      rw [ha, hb] at h
      cases h
  | path name isDir =>
    cases hb : b.source with
    | markdownLine line =>
      rw [ha, hb] at h
      cases h
    | path name' isDir' =>
      rw [ha, hb] at h
      obtain ⟨hpath, rfl⟩ := EntrySource.path.inj h
      rw [(List.cons.inj (List.append_cancel_left hpath)).1]

/-- An entry before another has another source. -/
theorem source_ne_of_lt {entries : List TaskEntry}
    (hpairwise : entries.Pairwise fun a b => a.source ≠ b.source) {numbered entry : TaskEntry × Nat}
    (hmem : numbered ∈ entries.zipIdx) (hentry : entry ∈ entries.zipIdx)
    (hlt : numbered.2 < entry.2) : numbered.1.source ≠ entry.1.source := by
  obtain ⟨hi, hfirst⟩ := List.getElem?_eq_some_iff.mp (List.mem_zipIdx_iff_getElem?.mp hmem)
  obtain ⟨hj, hsecond⟩ := List.getElem?_eq_some_iff.mp (List.mem_zipIdx_iff_getElem?.mp hentry)
  have hne := List.pairwise_iff_getElem.mp hpairwise numbered.2 entry.2 hi hj hlt
  rwa [hfirst, hsecond] at hne

end Sources

/-! ## An outermost board -/

section Outermost

variable {context : Admission} {collect : List Text → Folder → Option (List LoadedTask)}
  {path : List Text} {board : Folder} {status : TaskStatus} {tasks loaded : List LoadedTask}
  {todo : List TaskEntry} {numbered : TaskEntry × Nat}

/-- What the registry adds to a task is not asked for when a task is looked up. -/
theorem loadRuntime_eq_map (h : context.loadRuntime tasks = some loaded) :
    ∃ f : LoadedTask → LoadedTask, loaded = tasks.map f ∧
      (∀ source content, LoadedTask.isOf source content ∘ f = LoadedTask.isOf source content) ∧
      ∀ board status index, LoadedTask.isAt board status index ∘ f =
        LoadedTask.isAt board status index := by
  unfold loadRuntime at h
  dsimp only at h
  split at h
  · obtain ⟨proofs, -, rfl⟩ := Option.map_eq_some_iff.mp h
    exact ⟨_, rfl, fun _ _ => rfl, fun _ _ _ => rfl⟩
  · cases h
    exact ⟨id, (List.map_id _).symm, fun _ _ => rfl, fun _ _ _ => rfl⟩

theorem forall_of_mapM_eq_some {α β : Type} {f : α → Option β} {as : List α} {bs : List β}
    (h : as.mapM f = some bs) : ∀ a ∈ as, ∃ b, f a = some b := by
  induction as generalizing bs with
  | nil =>
    intro a ha
    cases ha
  | cons first as ih =>
    obtain ⟨b, rest, hb, hrest, -⟩ := mapM_cons_eq_some.mp h
    intro a ha
    rcases List.mem_cons.mp ha with rfl | hmem
    · exact ⟨b, hb⟩
    · exact ih hrest a hmem

/-- A board that is collected has been read, its waiting tasks first. -/
theorem collect_eq_some {fuel : Nat} (h : context.collect (fuel + 1) path board = some tasks) :
    (∀ status, ∃ entries, readTaskEntries context.toLowercase board status = some entries) ∧
      ∃ first rest, context.collectStatus (context.collect fuel) path board .todo = some first ∧
        tasks = first ++ rest := by
  obtain ⟨lists, hlists, h⟩ := Option.bind_eq_some_iff.mp h
  obtain ⟨archived, -, h⟩ := Option.bind_eq_some_iff.mp h
  cases h
  constructor
  · intro status
    obtain ⟨list, hlist⟩ := forall_of_mapM_eq_some hlists status (by cases status <;> decide)
    obtain ⟨entries, hentries, -⟩ := Option.bind_eq_some_iff.mp hlist
    exact ⟨entries, hentries⟩
  · obtain ⟨first, rest, hfirst, -, rfl⟩ := mapM_cons_eq_some.mp hlists
    exact ⟨first, rest.flatten ++ archived, hfirst, by rw [List.flatten_cons, List.append_assoc]⟩

/-- A board that is read has the entries that are there. -/
theorem todo_eq_storeEntries {toLowercase : Text → Text}
    (hread : ∀ status, ∃ entries, readTaskEntries toLowercase board status = some entries)
    (htodo : readTaskEntries toLowercase board status = some todo) :
    todo = storeEntries toLowercase (storeContent board status) := by
  have hfree : ¬ Blocked board := by
    intro hblocked
    obtain ⟨blocked, hnone⟩ : ∃ blocked, readTaskEntries toLowercase board blocked = none :=
      exists_readTaskEntries_eq_none hblocked
    obtain ⟨entries, hentries⟩ := hread blocked
    rw [hnone] at hentries
    cases hentries
  rw [readTaskEntries_eq_some hfree] at htodo
  exact (Option.some.inj htodo).symm

/-- By source and text: what lies below has a longer path, and what comes before another source. -/
theorem find_isOf {fuel : Nat} {entries : List TaskEntry} {lists : List (List LoadedTask)}
    (h : entries.zipIdx.mapM (context.collectEntry (context.collect fuel) path board status) =
      some lists)
    (hstore : entries = storeEntries context.toLowercase (storeContent board status))
    (hnames : ∀ tasks, folderAt board status.dirName = some tasks → (tasks.map Prod.fst).Nodup)
    (hmem : numbered ∈ entries.zipIdx) :
    ∃ task, context.ownTask path status numbered = some task ∧
      lists.flatten.find? (LoadedTask.isOf (numbered.1.sourceIn (path ++ [status.dirName]))
        numbered.1.content) = some task := by
  obtain ⟨entry, i⟩ := numbered
  have hdistinct : entries.Pairwise fun a b => a.source ≠ b.source := by
    rw [hstore]
    exact sources_pairwise_ne hnames
  refine find_collectEntries h hmem ?_ ?_ ?_
  · intro other hother nested hnested t ht
    obtain ⟨name, hname, hin⟩ := liesIn_nested (fun h => liesIn_collect h) hnested t ht
    -- The entry is a path, since another entry of its store is.
    obtain ⟨own, isDir, hown⟩ : ∃ own isDir, entry.source = .path own isDir := by
      have hentry := List.fst_mem_of_mem_zipIdx hmem
      rw [hstore] at hentry hother
      rcases source_storeEntries context.toLowercase (storeContent board status) with hline | hpath
      · obtain ⟨line, hline⟩ := hline other hother
        rw [hname] at hline
        cases hline
      · exact hpath entry hentry
    rw [LoadedTask.isOf, Bool.and_eq_false_iff, beq_eq_false_iff_ne]
    refine .inl fun hsource => ?_
    rw [TaskEntry.sourceIn, hown] at hsource
    have hlength := hin.source hsource
    simp only [List.length_append, List.length_cons, List.length_nil] at hlength
    omega
  · intro other hother hlt t ht
    obtain ⟨metadata, -, rfl⟩ := Option.map_eq_some_iff.mp ht
    rw [LoadedTask.isOf, Bool.and_eq_false_iff, beq_eq_false_iff_ne]
    exact .inl fun hsource => source_ne_of_lt hdistinct hother hmem hlt (sourceIn_injective hsource)
  · intro t ht
    obtain ⟨metadata, -, rfl⟩ := Option.map_eq_some_iff.mp ht
    rw [LoadedTask.isOf, Bool.and_eq_true_iff]
    exact ⟨beq_self_eq_true _, beq_self_eq_true _⟩

/-- By its place: what lies below has another board, and what comes before another index. -/
theorem find_isAt {fuel : Nat} {entries : List TaskEntry} {lists : List (List LoadedTask)}
    (h : entries.zipIdx.mapM (context.collectEntry (context.collect fuel) path board status) =
      some lists)
    (hmem : numbered ∈ entries.zipIdx) :
    ∃ task, context.ownTask path status numbered = some task ∧
      lists.flatten.find? (LoadedTask.isAt (pathString path) status (numbered.2 + 1)) =
        some task := by
  obtain ⟨entry, i⟩ := numbered
  refine find_collectEntries h hmem ?_ ?_ ?_
  · intro other hother nested hnested t ht
    obtain ⟨name, -, ⟨more, hboard⟩, -⟩ := liesIn_nested (fun h => liesIn_collect h) hnested t ht
    rw [LoadedTask.isAt, hboard, List.append_assoc, Bool.and_eq_false_iff, Bool.and_eq_false_iff,
      beq_eq_false_iff_ne]
    exact .inl (.inl (pathString_below_ne path _ _))
  · intro other hother hlt t ht
    obtain ⟨metadata, -, rfl⟩ := Option.map_eq_some_iff.mp ht
    rw [LoadedTask.isAt, Bool.and_eq_false_iff, beq_eq_false_iff_ne (a := other.2 + 1)]
    exact .inr (by omega)
  · intro t ht
    obtain ⟨metadata, -, rfl⟩ := Option.map_eq_some_iff.mp ht
    simp only [LoadedTask.isAt, beq_self_eq_true, Bool.and_self]

/-- The task of an entry is the first one with its source and text, and the one at its place. -/
theorem find_own {fuel : Nat} (h : context.collect (fuel + 1) path board = some tasks)
    (htodo : readTaskEntries context.toLowercase board .todo = some todo)
    (hnames : ∀ tasks, folderAt board TaskStatus.todo.dirName = some tasks →
      (tasks.map Prod.fst).Nodup)
    (hmem : numbered ∈ todo.zipIdx) :
    ∃ task,
      tasks.find? (LoadedTask.isOf (numbered.1.sourceIn (path ++ [TaskStatus.todo.dirName]))
        numbered.1.content) = some task ∧
      tasks.find? (LoadedTask.isAt (pathString path) .todo (numbered.2 + 1)) = some task := by
  obtain ⟨hread, first, rest, hfirst, rfl⟩ := collect_eq_some h
  have hstore := todo_eq_storeEntries hread htodo
  obtain ⟨entries, hentries, hfirst⟩ := Option.bind_eq_some_iff.mp hfirst
  rw [htodo] at hentries
  cases hentries
  obtain ⟨lists, hlists, hfirst⟩ := Option.bind_eq_some_iff.mp hfirst
  cases hfirst
  obtain ⟨task, htask, hisOf⟩ := find_isOf hlists hstore hnames hmem
  obtain ⟨task', htask', hisAt⟩ := find_isAt hlists hmem
  rw [htask] at htask'
  cases htask'
  refine ⟨task, ?_, ?_⟩
  · rw [List.find?_append, hisOf, Option.some_or]
  · rw [List.find?_append, hisAt, Option.some_or]

/-- On an outermost board the entry's own task is the one that is found. -/
theorem findsOwnTasks_of_outermost {root : Folder} {project : List Text}
    (houter : outermost root (getTasksDir project) = getTasksDir project)
    (hnames : ∀ board tasks, folderAtPath root (getTasksDir project) = some board →
      folderAt board TaskStatus.todo.dirName = some tasks → (tasks.map Prod.fst).Nodup) :
    context.FindsOwnTasks root project := by
  intro todo tasks h
  obtain ⟨board, hboard, h⟩ := Option.bind_eq_some_iff.mp h
  obtain ⟨loaded, hload, h⟩ := Option.bind_eq_some_iff.mp h
  obtain ⟨entries, htodo, h⟩ := Option.bind_eq_some_iff.mp h
  cases h
  obtain ⟨hfound, hstore⟩ := Option.filter_eq_some_iff.mp hboard
  rw [load, hfound, Option.any_some, if_pos hstore, houter] at hload
  obtain ⟨outer, houterBoard, hload⟩ := Option.bind_eq_some_iff.mp hload
  rw [hfound] at houterBoard
  cases houterBoard
  obtain ⟨collected, hcollect, hruntime⟩ := Option.bind_eq_some_iff.mp hload
  obtain ⟨f, rfl, hisOf, hisAt⟩ := loadRuntime_eq_map hruntime
  constructor
  · intro numbered hmem _
    obtain ⟨task, hof, hat⟩ := find_own hcollect htodo (fun tasks => hnames board tasks hfound) hmem
    have hfoundTask : foundTask (collected.map f)
        (numbered.1.sourceIn (todoStore project)) numbered.1.content = some (f task) := by
      show (collected.map f).find? (LoadedTask.isOf _ _) = _
      rw [List.find?_map, hisOf, todoStore, hof, Option.map_some]
    -- The place of the task leads to the same one as its source.
    have hselected : (context.snapshot (collected.map f)).selected
        (pathString (getTasksDir project)) .todo (numbered.2 + 1) = .ok (f task).task := by
      have hat' : ((collected.map f).map LoadedTask.task).find? (fun t =>
          t.board == pathString (getTasksDir project) && t.status == .todo &&
            t.index == numbered.2 + 1) = some (f task).task := by
        rw [List.find?_map]
        show ((collected.map f).find? (LoadedTask.isAt _ _ _)).map LoadedTask.task = _
        rw [List.find?_map, hisAt, hat, Option.map_some, Option.map_some]
      rw [Snapshot.selected, if_neg (Nat.succ_ne_zero _), snapshot]
      dsimp only
      rw [hat']
    rw [foundAdmitted, hfoundTask, selectedAdmitted, hselected, Option.any_some]
  · intro _
    obtain ⟨doing, hdoing⟩ := (collect_eq_some hcollect).1 .doing
    rw [doingEntries, hfound, Option.bind_some, hdoing]
    rfl

/-- The scan and `ready_tasks` keep their promise on exactly the boards whose entries are found,
and on every board that lies in no other. -/
theorem readyTasks_ownTasks (context : Admission) (root : Folder) (project : List Text) :
    (context.CountsOwnTasks root project ↔ context.FindsOwnTasks root project) ∧
      (outermost root (getTasksDir project) = getTasksDir project →
        (∀ board tasks, folderAtPath root (getTasksDir project) = some board →
          folderAt board TaskStatus.todo.dirName = some tasks → (tasks.map Prod.fst).Nodup) →
        context.FindsOwnTasks root project) :=
  ⟨countsOwnTasks_iff context root project, findsOwnTasks_of_outermost⟩

/-- A project with one board. -/
def loneBoard : Folder :=
  [("tasks".toList, .folder [("todo.md".toList, .file "# To Do Tasks\n- Fix it\n".toList)])]

theorem loneBoard_ownTasks : plainAdmission.FindsOwnTasks loneBoard [] := by
  have houter : outermost loneBoard (getTasksDir []) = getTasksDir [] := by decide
  refine (readyTasks_ownTasks plainAdmission loneBoard []).2 houter fun board tasks hboard hfolder => ?_
  have hnone : ((folderAtPath loneBoard (getTasksDir [])).bind fun board =>
      folderAt board TaskStatus.todo.dirName).isNone = true := by decide
  rw [hboard, Option.bind_some, hfolder] at hnone
  cases hnone

end Outermost

end Admission

end Clt
