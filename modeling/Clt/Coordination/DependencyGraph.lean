import Clt.Coordination.Snapshot
import Clt.Graph.Cycle

/-!
# The dependency graph of a board

`Snapshot.visit` returns exactly when every id that the task reaches names one task and none
of them lies on a cycle (`visit_ok_iff`), and it always returns: the path holds distinct ids
of the board's tasks, so the calls nest no deeper than the board is long. An update changes
the edges of one task and searches from it, so a board whose graph is sound stays so
(`keeps_of_updates`).
-/

namespace Clt

open Graph Relation

namespace Snapshot

variable {s : Snapshot} {task t : Task} {id : String} {fuel : Nat} {path done done' : List String}

/-! ## The graph -/

/-- A task with the id `a` names `b` as a dependency. -/
def Depends (s : Snapshot) (a b : String) : Prop :=
  a ≠ "" ∧ ∃ t ∈ s.tasks, t.metadata.id = a ∧ b ∈ t.metadata.dependsOn

/-- Exactly one task has the id. -/
def Resolves (s : Snapshot) (id : String) : Prop := ∃ t, s.named id = [t]

/-- The ids that a task reaches: its own, and what its dependencies lead to. -/
def Reaches (s : Snapshot) (task : Task) (id : String) : Prop :=
  task.metadata.id ≠ "" ∧ id = task.metadata.id ∨
    ∃ d ∈ task.metadata.dependsOn, ReflTransGen s.Depends d id

/-- Every id that an id leads to names one task and lies on no cycle. -/
abbrev Sound (s : Snapshot) (id : String) : Prop := SoundFrom s.Depends s.Resolves id

theorem mem_named : t ∈ s.named id ↔ t ∈ s.tasks ∧ t.metadata.id = id ∧ id ≠ "" := by
  simp [named]

theorem referenced_eq_ok : s.referenced id = .ok t ↔ s.named id = [t] := by
  unfold referenced
  split <;> simp_all

theorem mem_of_referenced (h : s.referenced id = .ok t) :
    t ∈ s.tasks ∧ t.metadata.id = id ∧ id ≠ "" := by
  rw [referenced_eq_ok] at h
  exact mem_named.mp (h ▸ List.mem_singleton_self t)

theorem resolves_iff : s.Resolves id ↔ ∃ t, s.referenced id = .ok t :=
  exists_congr fun _ => referenced_eq_ok.symm

/-- The successors of a task's id are its dependencies. -/
theorem depends_of_task (htask : task ∈ s.tasks) (hid : s.Resolves task.metadata.id) {d : String} :
    s.Depends task.metadata.id d ↔ d ∈ task.metadata.dependsOn := by
  obtain ⟨x, hx⟩ := hid
  have hne : task.metadata.id ≠ "" := (mem_named.mp (hx ▸ List.mem_singleton_self x)).2.2
  constructor
  · rintro ⟨-, t, ht, htid, hd⟩
    have ht' : t ∈ s.named task.metadata.id := mem_named.mpr ⟨ht, htid, hne⟩
    have htask' : task ∈ s.named task.metadata.id := mem_named.mpr ⟨htask, rfl, hne⟩
    rw [hx, List.mem_singleton] at ht' htask'
    rwa [htask', ← ht']
  · intro hd
    exact ⟨hne, task, htask, rfl, hd⟩

/-- What a task reaches is sound exactly when its id, or else its dependencies are. -/
theorem reaches_sound_iff (htask : task ∈ s.tasks) :
    (∀ i, s.Reaches task i → s.Resolves i ∧ ¬ TransGen s.Depends i i) ↔
      (task.metadata.id ≠ "" → s.Sound task.metadata.id) ∧
        ∀ d ∈ task.metadata.dependsOn, s.Sound d := by
  constructor
  · intro h
    have hdeps : ∀ d ∈ task.metadata.dependsOn, s.Sound d :=
      fun d hd i hi => h i (.inr ⟨d, hd, hi⟩)
    refine ⟨fun hne => ?_, hdeps⟩
    have hown : s.Resolves task.metadata.id := (h _ (.inl ⟨hne, rfl⟩)).1
    exact .of_successors hown fun d hd => hdeps d ((depends_of_task htask hown).mp hd)
  · rintro ⟨hown, hdeps⟩ i (⟨hne, rfl⟩ | ⟨d, hd, hi⟩)
    · exact hown hne _ .refl
    · exact hdeps d hd i hi

/-! ## Steps of the search -/

/-- One dependency of the search. -/
def visitDependency (s : Snapshot) (fuel : Nat) (path done : List String) (id : String) :
    Except VisitError (List String) := do
  let dependency ← (s.referenced id).mapError .message
  visit s fuel dependency path done

theorem visit_succ : s.visit (fuel + 1) task path done =
    (if task.metadata.id = "" then
      task.metadata.dependsOn.foldlM (s.visitDependency fuel path) done
    else do
      let _ ← (s.referenced task.metadata.id).mapError .message
      if path.contains task.metadata.id then
        .error (.message ("Dependency cycle: " ++ " -> ".intercalate path ++ " -> " ++
          task.metadata.id))
      else if done.contains task.metadata.id then .ok done
      else do
        let done ← task.metadata.dependsOn.foldlM
          (s.visitDependency fuel (path ++ [task.metadata.id])) done
        .ok (task.metadata.id :: done)) := rfl

theorem visitDependency_eq_ok : s.visitDependency fuel path done id = .ok done' ↔
    ∃ t, s.referenced id = .ok t ∧ s.visit fuel t path done = .ok done' := by
  unfold visitDependency
  cases s.referenced id <;> simp [Except.mapError, bind, Except.bind]

theorem foldlM_cons_eq_ok {ε α β : Type} {f : β → α → Except ε β} {b c : β} {a : α} {as : List α} :
    (a :: as).foldlM f b = .ok c ↔ ∃ b', f b a = .ok b' ∧ as.foldlM f b' = .ok c := by
  rw [List.foldlM_cons]
  cases f b a <;> simp [bind, Except.bind]

/-- What an `.ok` search of a task with an id went through. -/
theorem visit_eq_ok_of_id (hne : task.metadata.id ≠ "") :
    s.visit (fuel + 1) task path done = .ok done' ↔
      s.Resolves task.metadata.id ∧ task.metadata.id ∉ path ∧
        (task.metadata.id ∈ done ∧ done' = done ∨ task.metadata.id ∉ done ∧
          ∃ rest, task.metadata.dependsOn.foldlM
            (s.visitDependency fuel (path ++ [task.metadata.id])) done = .ok rest ∧
            done' = task.metadata.id :: rest) := by
  rw [visit_succ, if_neg hne, resolves_iff]
  cases hreferenced : s.referenced task.metadata.id with
  | error message => simp [Except.mapError, bind, Except.bind]
  | ok t =>
    by_cases hpath : task.metadata.id ∈ path
    · simp [Except.mapError, bind, Except.bind, hpath]
    · by_cases hdone : task.metadata.id ∈ done
      · simp [Except.mapError, bind, Except.bind, hpath, hdone, eq_comm]
      · cases hfold : task.metadata.dependsOn.foldlM
            (s.visitDependency fuel (path ++ [task.metadata.id])) done <;>
          simp [Except.mapError, bind, Except.bind, hpath, hdone, eq_comm]

/-! ## What a search that returns has found -/

/-- The ids that are done stay sound, and the dependencies that were visited are. -/
theorem sound_of_foldlM (hvisit : ∀ t ∈ s.tasks, ∀ done done', (∀ i ∈ done, s.Sound i) →
      s.visit fuel t path done = .ok done' → (∀ i ∈ done', s.Sound i) ∧
        (t.metadata.id ≠ "" → s.Sound t.metadata.id))
    (ids : List String) (hdone : ∀ i ∈ done, s.Sound i)
    (h : ids.foldlM (s.visitDependency fuel path) done = .ok done') :
    (∀ i ∈ done', s.Sound i) ∧ ∀ d ∈ ids, s.Sound d := by
  induction ids generalizing done with
  | nil =>
    cases h
    exact ⟨hdone, nofun⟩
  | cons d ids ih =>
    obtain ⟨next, hnext, hrest⟩ := foldlM_cons_eq_ok.mp h
    obtain ⟨t, href, ht⟩ := visitDependency_eq_ok.mp hnext
    obtain ⟨hmem, hid, hne⟩ := mem_of_referenced href
    obtain ⟨hsound, hown⟩ := hvisit t hmem done next hdone ht
    obtain ⟨hdone', hids⟩ := ih hsound hrest
    rw [hid] at hown
    exact ⟨hdone', List.forall_mem_cons.mpr ⟨hown hne, hids⟩⟩

theorem sound_of_visit (htask : task ∈ s.tasks) (hdone : ∀ i ∈ done, s.Sound i)
    (h : s.visit fuel task path done = .ok done') :
    (∀ i ∈ done', s.Sound i) ∧ (task.metadata.id ≠ "" → s.Sound task.metadata.id) ∧
      ∀ d ∈ task.metadata.dependsOn, s.Sound d := by
  induction fuel generalizing task path done done' with
  | zero => cases h
  | succ fuel ih =>
    have hvisit : ∀ path, ∀ t ∈ s.tasks, ∀ done done', (∀ i ∈ done, s.Sound i) →
        s.visit fuel t path done = .ok done' →
          (∀ i ∈ done', s.Sound i) ∧ (t.metadata.id ≠ "" → s.Sound t.metadata.id) := by
      intro path t ht done done' hdone hok
      obtain ⟨hdone', hown, -⟩ := ih ht hdone hok
      exact ⟨hdone', hown⟩
    by_cases hne : task.metadata.id = ""
    · rw [visit_succ, if_pos hne] at h
      obtain ⟨hdone', hids⟩ := sound_of_foldlM (hvisit path) _ hdone h
      exact ⟨hdone', fun hid => absurd hne hid, hids⟩
    · obtain ⟨hresolves, -, hcases⟩ := (visit_eq_ok_of_id hne).mp h
      rcases hcases with ⟨hmem, rfl⟩ | ⟨-, rest, hfold, rfl⟩
      · have hown := hdone _ hmem
        exact ⟨hdone, fun _ => hown, fun d hd =>
          hown.step ((depends_of_task htask hresolves).mpr hd)⟩
      · obtain ⟨hrest, hids⟩ := sound_of_foldlM (hvisit _) _ hdone hfold
        have hown : s.Sound task.metadata.id := .of_successors hresolves fun d hd =>
          hids d ((depends_of_task htask hresolves).mp hd)
        exact ⟨List.forall_mem_cons.mpr ⟨hown, hrest⟩, fun _ => hown, hids⟩

/-! ## A search returns -/

/-- The ids on a path are distinct ids of the board's tasks, and each of them leads to the
task that is visited. -/
structure OnPath (s : Snapshot) (path : List String) (task : Task) : Prop where
  nodup : path.Nodup
  named : ∀ p ∈ path, p ∈ s.tasks.map fun t => t.metadata.id
  leads : ∀ p ∈ path, TransGen s.Depends p task.metadata.id

theorem OnPath.push (h : s.OnPath path task) (htask : task ∈ s.tasks)
    (hid : s.Resolves task.metadata.id) (hpath : task.metadata.id ∉ path)
    (ht : s.referenced id = .ok t) (hdep : id ∈ task.metadata.dependsOn) :
    s.OnPath (path ++ [task.metadata.id]) t := by
  have hstep : s.Depends task.metadata.id t.metadata.id := by
    rw [(mem_of_referenced ht).2.1]
    exact (depends_of_task htask hid).mpr hdep
  refine ⟨?_, ?_, ?_⟩
  · exact List.nodup_append.mpr ⟨h.nodup, List.nodup_cons.mpr ⟨List.not_mem_nil, List.nodup_nil⟩, fun a ha b hb heq =>
      hpath (List.mem_singleton.mp hb ▸ heq ▸ ha)⟩
  · intro p hp
    rcases List.mem_append.mp hp with hp | hp
    · exact h.named p hp
    · rw [List.mem_singleton.mp hp]
      exact List.mem_map_of_mem htask
  · intro p hp
    rcases List.mem_append.mp hp with hp | hp
    · exact (h.leads p hp).tail hstep
    · rw [List.mem_singleton.mp hp]
      exact .single hstep

/-- The path is no longer than the board. -/
theorem OnPath.length_le (h : s.OnPath path task) : path.length ≤ s.tasks.length := by
  have hsubset : path ⊆ s.tasks.map fun t => t.metadata.id := fun p hp => h.named p hp
  have hle := h.nodup.length_le_of_subset hsubset
  rwa [List.length_map] at hle

/-- The search never runs out of fuel, and it succeeds over sound dependencies. -/
structure Returns (s : Snapshot) (sound : Prop) (result : Except VisitError (List String)) :
    Prop where
  fuel : result ≠ .error .outOfFuel
  ok : sound → ∃ done, result = .ok done

theorem returns_foldlM (fuel : Nat) (path ids : List String) (hvisit : ∀ id ∈ ids, ∀ t, s.referenced id = .ok t →
      ∀ done, s.Returns (s.Sound id) (s.visit fuel t path done)) (done : List String) :
    s.Returns (∀ d ∈ ids, s.Sound d) (ids.foldlM (s.visitDependency fuel path) done) := by
  induction ids generalizing done with
  | nil => exact ⟨nofun, fun _ => ⟨done, rfl⟩⟩
  | cons d ids ih =>
    rw [List.foldlM_cons]
    unfold visitDependency
    cases href : s.referenced d with
    | error message =>
      refine ⟨nofun, fun hsound => ?_⟩
      obtain ⟨t, ht⟩ := resolves_iff.mp (hsound d List.mem_cons_self d .refl).1
      rw [href] at ht
      cases ht
    | ok t =>
      have hfirst := hvisit d List.mem_cons_self t href done
      show s.Returns _ (s.visit fuel t path done >>= _)
      cases hresult : s.visit fuel t path done with
      | error e =>
        rw [hresult] at hfirst
        refine ⟨fun h => hfirst.fuel h, fun hsound => ?_⟩
        obtain ⟨_, ⟨⟩⟩ := hfirst.ok (hsound d List.mem_cons_self)
      | ok next =>
        have hrest := ih (fun id hid => hvisit id (List.mem_cons_of_mem d hid)) next
        exact ⟨hrest.fuel, fun hsound =>
          hrest.ok fun id hid => hsound id (List.mem_cons_of_mem d hid)⟩

/-- Over a path of the board's ids, the fuel left covers what the path can still grow. -/
theorem returns_visit (htask : task ∈ s.tasks) (hne : task.metadata.id ≠ "")
    (hpath : s.OnPath path task) (hfuel : s.tasks.length + 1 ≤ fuel + path.length) :
    s.Returns (s.Sound task.metadata.id) (s.visit fuel task path done) := by
  induction fuel generalizing task path done with
  | zero =>
    have := hpath.length_le
    omega
  | succ fuel ih =>
    rw [visit_succ, if_neg hne]
    cases href : s.referenced task.metadata.id with
    | error message =>
      refine ⟨nofun, fun hsound => ?_⟩
      obtain ⟨t, ht⟩ := resolves_iff.mp (hsound _ .refl).1
      rw [href] at ht
      cases ht
    | ok own =>
      have hresolves : s.Resolves task.metadata.id := resolves_iff.mpr ⟨own, href⟩
      show s.Returns _ (if path.contains task.metadata.id then _ else _)
      by_cases hin : task.metadata.id ∈ path
      · -- An id of the path leads to the task: it lies on a cycle.
        rw [if_pos (List.contains_iff_mem.mpr hin)]
        exact ⟨nofun, fun hsound => absurd (hpath.leads _ hin) (hsound _ .refl).2⟩
      · rw [if_neg (by simpa using hin)]
        split
        · exact ⟨nofun, fun _ => ⟨done, rfl⟩⟩
        · have hdeps := returns_foldlM (s := s) fuel (path ++ [task.metadata.id])
            task.metadata.dependsOn
            (fun id hid t ht done => by
              obtain ⟨htmem, htid, htne⟩ := mem_of_referenced ht
              have hpush := hpath.push htask hresolves hin ht hid
              have hlength : s.tasks.length + 1 ≤ fuel + (path ++ [task.metadata.id]).length := by
                rw [List.length_append, List.length_singleton]
                omega
              rw [← htid] at htne ⊢
              exact ih htmem htne hpush hlength) done
          show s.Returns _ (List.foldlM _ _ _ >>= _)
          cases hfold : task.metadata.dependsOn.foldlM
              (s.visitDependency fuel (path ++ [task.metadata.id])) done with
          | error e =>
            rw [hfold] at hdeps
            refine ⟨fun h => hdeps.fuel h, fun hsound => ?_⟩
            obtain ⟨_, ⟨⟩⟩ := hdeps.ok fun d hd =>
              hsound.step ((depends_of_task htask hresolves).mpr hd)
          | ok rest => exact ⟨nofun, fun _ => ⟨_, rfl⟩⟩

/-- A search from an empty path returns, and succeeds over a sound graph. -/
theorem returns_visit_root (htask : task ∈ s.tasks) (hfuel : s.searchDepth ≤ fuel) :
    s.Returns ((task.metadata.id ≠ "" → s.Sound task.metadata.id) ∧
      ∀ d ∈ task.metadata.dependsOn, s.Sound d) (s.visit fuel task [] []) := by
  unfold searchDepth at hfuel
  have hroot : ∀ t, s.OnPath [] t := fun _ => ⟨List.nodup_nil, nofun, nofun⟩
  by_cases hne : task.metadata.id = ""
  · obtain ⟨fuel, rfl⟩ := Nat.exists_eq_add_of_le' (show 1 ≤ fuel by omega)
    rw [visit_succ, if_pos hne]
    have hdeps := returns_foldlM (s := s) fuel [] task.metadata.dependsOn
      (fun id _ t ht done => by
        obtain ⟨htmem, htid, htne⟩ := mem_of_referenced ht
        rw [← htid] at htne ⊢
        exact returns_visit htmem htne (hroot t) (by rw [List.length_nil]; omega)) []
    exact ⟨hdeps.fuel, fun h => hdeps.ok h.2⟩
  · have hdepth : s.tasks.length + 1 ≤ fuel + ([] : List String).length := by
      rw [List.length_nil]
      omega
    have hown : s.Returns _ (s.visit fuel task [] []) := returns_visit htask hne (hroot task) hdepth
    exact ⟨hown.fuel, fun h => hown.ok (h.1 hne)⟩

/-- The search from a task returns exactly over a sound graph. -/
theorem visit_ok_iff (htask : task ∈ s.tasks) (hfuel : s.searchDepth ≤ fuel) :
    (∃ done, s.visit fuel task [] [] = .ok done) ↔
      ∀ i, s.Reaches task i → s.Resolves i ∧ ¬ TransGen s.Depends i i := by
  rw [reaches_sound_iff htask]
  constructor
  · rintro ⟨done, hok⟩
    have hnone : ∀ i ∈ ([] : List String), s.Sound i := fun _ h => absurd h List.not_mem_nil
    exact (sound_of_visit htask hnone hok).2
  · exact (returns_visit_root htask hfuel).ok

/-! ## Boards -/

/-- No two tasks share an id. -/
def UniqueIds (s : Snapshot) : Prop :=
  ((s.tasks.map fun t => t.metadata.id).filter fun id => id != "").Nodup

instance : Decidable s.UniqueIds := inferInstanceAs (Decidable (List.Nodup _))

theorem nodup_named (h : s.UniqueIds) (id : String) : (s.named id).length ≤ 1 := by
  by_contra hlong
  rw [Nat.not_le] at hlong
  have hids : ((s.named id).map fun t => t.metadata.id).Nodup := by
    have hfilter : ((s.named id).map fun t => t.metadata.id) =
        ((s.tasks.map fun t => t.metadata.id).filter fun i => i != "").filter
          fun i => i == id && id != "" := by
      rw [List.filter_filter, List.filter_map, named]
      refine congrArg _ (List.filter_congr fun t _ => ?_)
      by_cases hid : t.metadata.id = id
      · simp [hid]
      · simp [hid]
    rw [hfilter]
    exact h.filter _
  obtain ⟨a, b, rest, hsplit⟩ : ∃ a b rest, s.named id = a :: b :: rest := by
    rcases hn : s.named id with _ | ⟨a, _ | ⟨b, rest⟩⟩
    · rw [hn] at hlong
      cases hlong
    · rw [hn, List.length_singleton] at hlong
      exact absurd hlong (Nat.lt_irrefl 1)
    · exact ⟨a, b, rest, rfl⟩
  have ha : a ∈ s.named id := hsplit ▸ List.mem_cons_self
  have hb : b ∈ s.named id := hsplit ▸ List.mem_cons_of_mem a List.mem_cons_self
  rw [hsplit] at hids
  have hne := (List.nodup_cons.mp hids).1
  exact hne (by simp [(mem_named.mp ha).2.1, (mem_named.mp hb).2.1])

/-- Over unique ids, an id resolves as soon as a task has it. -/
theorem resolves_of_mem (h : s.UniqueIds) (ht : t ∈ s.tasks) (hid : t.metadata.id ≠ "") :
    s.Resolves t.metadata.id := by
  have hmem : t ∈ s.named t.metadata.id := mem_named.mpr ⟨ht, rfl, hid⟩
  have hlength := nodup_named h t.metadata.id
  obtain ⟨a, ha⟩ : ∃ a, s.named t.metadata.id = [a] := by
    refine List.length_eq_one_iff.mp (Nat.le_antisymm hlength ?_)
    exact List.length_pos_of_mem hmem
  exact ⟨a, ha⟩

/-! ## An update -/

theorem sameTask_refl (t : Task) : sameTask t t = true := by
  simp [sameTask]

/-- The selected task is the first with its place, so it is the one that is edited. -/
theorem setMetadata_of_selected {board : String} {status : TaskStatus} {index : Nat}
    {selected : Task} (h : s.selected board status index = .ok selected) :
    ∃ pre post, s.tasks = pre ++ selected :: post ∧ ∀ metadata,
      setMetadata selected metadata s.tasks =
        pre ++ { selected with metadata := metadata } :: post := by
  unfold Snapshot.selected at h
  split at h
  · cases h
  · split at h
    · rename_i t hfind
      cases h
      obtain ⟨hplace, pre, post, htasks, hpre⟩ := List.find?_eq_some_iff_append.mp hfind
      refine ⟨pre, post, htasks, fun metadata => ?_⟩
      simp only [Bool.and_eq_true, beq_iff_eq] at hplace
      have hother : ∀ t ∈ pre, sameTask t selected = false := by
        intro t ht
        have hnot := hpre t ht
        rw [Bool.not_eq_true'] at hnot
        rw [sameTask, hplace.1.1, hplace.1.2, hplace.2]
        exact hnot
      rw [htasks]
      clear hpre htasks hfind
      induction pre with
      | nil => simp [setMetadata, sameTask_refl]
      | cons t pre ih =>
        obtain ⟨ht, hpre⟩ := List.forall_mem_cons.mp hother
        rw [List.cons_append, setMetadata, if_neg (by simp [ht]), ih hpre]
        rfl
    · cases h

/-- An id that some task depends on and that does not name one task. -/
def Dangling (s : Snapshot) (d : String) : Prop :=
  (∃ t ∈ s.tasks, d ∈ t.metadata.dependsOn) ∧ ¬ s.Resolves d

/-- A board whose ids are unique and whose dependency graph has no cycle. -/
structure SoundGraph (s : Snapshot) : Prop where
  unique : s.UniqueIds
  acyclic : Acyclic s.Depends

/-- What the graph of a board is made of: the ids with their dependencies. -/
def edges (s : Snapshot) : List (String × List String) :=
  s.tasks.map fun t => (t.metadata.id, t.metadata.dependsOn)

theorem depends_iff {a b : String} :
    s.Depends a b ↔ a ≠ "" ∧ ∃ e ∈ s.edges, e.1 = a ∧ b ∈ e.2 := by
  simp [Depends, edges]

theorem uniqueIds_iff :
    s.UniqueIds ↔ ((s.edges.map Prod.fst).filter fun id => id != "").Nodup := by
  rw [UniqueIds, edges, List.map_map]
  rfl

theorem resolves_iff_of_unique (h : s.UniqueIds) {d : String} :
    s.Resolves d ↔ d ≠ "" ∧ ∃ e ∈ s.edges, e.1 = d := by
  constructor
  · rintro ⟨t, ht⟩
    obtain ⟨hmem, hid, hne⟩ := mem_named.mp (ht ▸ List.mem_singleton_self t)
    exact ⟨hne, _, List.mem_map_of_mem hmem, hid⟩
  · rintro ⟨hne, e, he, rfl⟩
    obtain ⟨t, ht, rfl⟩ := List.mem_map.mp he
    exact resolves_of_mem h ht hne

theorem dangling_iff_of_unique (h : s.UniqueIds) {d : String} :
    s.Dangling d ↔ (∃ e ∈ s.edges, d ∈ e.2) ∧ ¬ (d ≠ "" ∧ ∃ e ∈ s.edges, e.1 = d) := by
  rw [Dangling, resolves_iff_of_unique h]
  simp [edges]

/-- What an update keeps: a sound graph, and no dependency is left without its task that was
not without it before. -/
structure Keeps (s s' : Snapshot) : Prop where
  sound : s'.SoundGraph
  dangling : ∀ d, s'.Dangling d → s.Dangling d

theorem Keeps.trans {s s' s'' : Snapshot} (h : Keeps s s') (h' : Keeps s' s'') : Keeps s s'' :=
  ⟨h'.sound, fun d hd => h.dangling d (h'.dangling d hd)⟩

/-- Both are properties of the ids and the dependencies alone. -/
theorem Keeps.congr {s s' s'' : Snapshot} (h : Keeps s s') (hedges : s''.edges = s'.edges) :
    Keeps s s'' := by
  have hunique : s''.UniqueIds := by
    rw [uniqueIds_iff, hedges, ← uniqueIds_iff]
    exact h.sound.unique
  have hdepends : s''.Depends = s'.Depends := by
    funext a b
    rw [eq_iff_iff, depends_iff, depends_iff, hedges]
  refine ⟨⟨hunique, ?_⟩, fun d hd => h.dangling d ?_⟩
  · rw [hdepends]
    exact h.sound.acyclic
  · rw [dangling_iff_of_unique hunique, hedges] at hd
    exact (dangling_iff_of_unique h.sound.unique).mpr hd

section Edit

variable {pre post : List Task} {old new : Task} {files : List String}

/-- The new id is the old one, or the search has found that no other task has it. -/
theorem uniqueIds_edit (h : UniqueIds ⟨pre ++ old :: post, files⟩)
    (hid : old.metadata.id ≠ "" → new.metadata.id = old.metadata.id)
    (hown : new.metadata.id ≠ "" →
      Resolves ⟨pre ++ new :: post, files⟩ new.metadata.id) :
    UniqueIds ⟨pre ++ new :: post, files⟩ := by
  simp only [UniqueIds, List.map_append, List.map_cons, List.filter_append] at h ⊢
  by_cases hempty : old.metadata.id = ""
  · rw [List.filter_cons_of_neg (by simp [hempty])] at h
    by_cases hfresh : new.metadata.id = ""
    · rwa [List.filter_cons_of_neg (by simp [hfresh])]
    · rw [List.filter_cons_of_pos (by simpa using hfresh)]
      refine (List.perm_middle.nodup_iff.mpr (List.nodup_cons.mpr ⟨?_, h⟩))
      intro hmem
      obtain ⟨x, hx⟩ := hown hfresh
      let key := fun t : Task => t.metadata.id == new.metadata.id && new.metadata.id != ""
      have hnew : key new = true := by simp [key, hfresh]
      have hsplit : named ⟨pre ++ new :: post, files⟩ new.metadata.id =
          pre.filter key ++ new :: post.filter key := by
        show (pre ++ new :: post).filter key = _
        rw [List.filter_append, List.filter_cons_of_pos hnew]
      have hlength := congrArg List.length (hsplit.symm.trans hx)
      rw [List.length_append, List.length_cons, List.length_singleton] at hlength
      have hnone : pre.filter key = [] ∧ post.filter key = [] := by
        rw [← List.length_eq_zero_iff, ← List.length_eq_zero_iff]
        omega
      rcases List.mem_append.mp hmem with hmem | hmem
      · obtain ⟨t, ht, htid⟩ := List.mem_map.mp (List.mem_filter.mp hmem).1
        have hkey : key t = true := by simp [key, htid, hfresh]
        exact absurd hkey (List.filter_eq_nil_iff.mp hnone.1 t ht)
      · obtain ⟨t, ht, htid⟩ := List.mem_map.mp (List.mem_filter.mp hmem).1
        have hkey : key t = true := by simp [key, htid, hfresh]
        exact absurd hkey (List.filter_eq_nil_iff.mp hnone.2 t ht)
  · rwa [hid hempty]

/-- The graph stays sound when one task's edges change, the task keeps an id that it has, and
the search from it succeeds. -/
theorem Keeps.edit (h : SoundGraph ⟨pre ++ old :: post, files⟩)
    (hid : old.metadata.id ≠ "" → new.metadata.id = old.metadata.id)
    (hvisit : ∃ done, visit ⟨pre ++ new :: post, files⟩ fuel new [] [] = .ok done)
    (hfuel : searchDepth ⟨pre ++ new :: post, files⟩ ≤ fuel) :
    Keeps ⟨pre ++ old :: post, files⟩ ⟨pre ++ new :: post, files⟩ := by
  have hnew : new ∈ (⟨pre ++ new :: post, files⟩ : Snapshot).tasks := by simp
  have hreach := (visit_ok_iff hnew hfuel).mp hvisit
  have hunique : UniqueIds ⟨pre ++ new :: post, files⟩ :=
    uniqueIds_edit h.unique hid fun hne => (hreach _ (.inl ⟨hne, rfl⟩)).1
  refine ⟨⟨hunique, ?_⟩, ?_⟩
  · refine acyclic_of_changed_at (r := Depends ⟨pre ++ old :: post, files⟩)
      (a := new.metadata.id) ?_ h.acyclic ?_
    · rintro x y ⟨hx, t, ht, rfl, hy⟩ hother
      refine ⟨hx, t, ?_, rfl, hy⟩
      simp only [List.mem_append, List.mem_cons] at ht ⊢
      rcases ht with ht | rfl | ht
      · exact .inl ht
      · exact absurd rfl hother
      · exact .inr (.inr ht)
    · intro hcycle
      obtain ⟨_, ⟨hne, -⟩, -⟩ := TransGen.head'_iff.mp hcycle
      exact (hreach _ (.inl ⟨hne, rfl⟩)).2 hcycle
  · rintro d ⟨⟨t, ht, hd⟩, hunresolved⟩
    have htold : t ∈ pre ++ old :: post := by
      simp only [List.mem_append, List.mem_cons] at ht ⊢
      rcases ht with ht | rfl | ht
      · exact .inl ht
      · -- The search has resolved what the edited task depends on.
        exact absurd (hreach d (.inr ⟨d, hd, .refl⟩)).1 hunresolved
      · exact .inr (.inr ht)
    refine ⟨⟨t, htold, hd⟩, fun hresolved => hunresolved ?_⟩
    -- The task that an id named still has it.
    obtain ⟨x, hx⟩ := hresolved
    obtain ⟨hxmem, rfl, hxne⟩ := mem_named.mp (hx ▸ List.mem_singleton_self x)
    simp only [List.mem_append, List.mem_cons] at hxmem
    rcases hxmem with hxmem | rfl | hxmem
    · exact resolves_of_mem hunique (by simp [hxmem]) hxne
    · have hkept := hid hxne
      rw [← hkept]
      exact resolves_of_mem hunique hnew (hkept ▸ hxne)
    · exact resolves_of_mem hunique (by simp [hxmem]) hxne

end Edit

end Snapshot

/-! ## Updates -/

theorem except_bind_eq_ok {ε α β : Type} {x : Except ε α} {f : α → Except ε β} {r : β} :
    (x >>= f) = .ok r ↔ ∃ a, x = .ok a ∧ f a = .ok r := by
  cases x <;> simp [bind, Except.bind]

theorem ensure_bind_eq_ok {α : Type} {c : Prop} [Decidable c] {message : String}
    {f : Unit → Except String α} {r : α} :
    (ensure c message >>= f) = .ok r ↔ c ∧ f () = .ok r := by
  unfold ensure
  split <;> simp_all [bind, Except.bind]

/-- Adding dependencies keeps the id. -/
theorem id_of_addDependencies {s : Snapshot} {ids : List String} {metadata metadata' : Metadata}
    (h : addDependencies s metadata ids = .ok metadata') : metadata'.id = metadata.id := by
  induction ids generalizing metadata with
  | nil =>
    cases h
    rfl
  | cons id ids ih =>
    obtain ⟨next, hnext, hrest⟩ := Snapshot.foldlM_cons_eq_ok.mp h
    have hkept : next.id = metadata.id := by
      obtain ⟨-, hnext⟩ := ensure_bind_eq_ok.mp hnext
      obtain ⟨_, -, hnext⟩ := except_bind_eq_ok.mp hnext
      split at hnext <;> cases hnext <;> rfl
    rw [ih hrest, hkept]

/-- An assessment changes neither id nor dependencies. -/
theorem edges_of_recordReview {evidence : Task → Task → String} {s : Snapshot} {updated : Task}
    {metadata metadata' : Metadata} {review : Option (String × Bool × String)}
    (h : recordReview evidence s updated metadata review = .ok metadata') :
    metadata'.id = metadata.id ∧ metadata'.dependsOn = metadata.dependsOn := by
  rcases review with _ | ⟨other, compatible, reason⟩
  · cases h
    exact ⟨rfl, rfl⟩
  · obtain ⟨-, h⟩ := ensure_bind_eq_ok.mp h
    obtain ⟨peer, -, h⟩ := except_bind_eq_ok.mp h
    obtain ⟨-, h⟩ := ensure_bind_eq_ok.mp h
    cases h
    exact ⟨rfl, rfl⟩

/-- A successful update keeps the graph sound. -/
theorem keeps_coordinate {evidence : Task → Task → String} {c : Coordinate} {s s' : Snapshot}
    (h : coordinate evidence c s = .ok s') (hs : s.SoundGraph) : Snapshot.Keeps s s' := by
  obtain ⟨selected, hselected, h⟩ := except_bind_eq_ok.mp h
  obtain ⟨-, h⟩ := ensure_bind_eq_ok.mp h
  obtain ⟨-, h⟩ := ensure_bind_eq_ok.mp h
  obtain ⟨read, hread, h⟩ := except_bind_eq_ok.mp h
  have hread : read = selected.metadata := by
    unfold Task.readMetadata at hread
    split at hread <;> cases hread
    rfl
  rw [hread] at h
  obtain ⟨added, hadded, h⟩ := except_bind_eq_ok.mp h
  have hid : selected.metadata.id ≠ "" → added.id = selected.metadata.id := by
    intro hne
    rw [id_of_addDependencies hadded, if_neg hne]
  let edited : Metadata := { added with
    dependsOn := added.dependsOn.filter fun id => !c.update.removeDependency.contains id
    scope := c.update.scope.getD added.scope }
  obtain ⟨pre, post, htasks, hset⟩ := Snapshot.setMetadata_of_selected hselected
  have hold : s = ⟨pre ++ selected :: post, s.changedFiles⟩ := by rw [← htasks]
  dsimp only at h
  rw [hset edited] at h
  split at h
  · cases h
  · cases h
  · rename_i done hvisit
    obtain ⟨final, hfinal, h⟩ := except_bind_eq_ok.mp h
    obtain ⟨-, -, h⟩ := except_bind_eq_ok.mp h
    cases h
    obtain ⟨hfinalId, hfinalDeps⟩ := edges_of_recordReview hfinal
    have hedited : Snapshot.Keeps s
        ⟨pre ++ { selected with metadata := edited } :: post, s.changedFiles⟩ := by
      rw [hold] at hs ⊢
      exact Snapshot.Keeps.edit hs hid ⟨done, hvisit⟩ (Nat.le_refl _)
    refine hedited.congr ?_
    rw [hset final]
    simp [Snapshot.edges, hfinalId, hfinalDeps, edited]

/-- A run of updates keeps the graph sound. -/
theorem keeps_of_updates {evidence : Task → Task → String} (updates : List Coordinate)
    {s s' : Snapshot} (h : updates.foldlM (fun s c => coordinate evidence c s) s = .ok s')
    (hs : s.SoundGraph) : Snapshot.Keeps s s' := by
  induction updates generalizing s with
  | nil =>
    cases h
    exact ⟨hs, fun _ hd => hd⟩
  | cons c updates ih =>
    obtain ⟨next, hnext, hrest⟩ := Snapshot.foldlM_cons_eq_ok.mp h
    have hstep := keeps_coordinate hnext hs
    exact hstep.trans (ih hrest hstep.sound)

/-- The search from a task of a board always returns, and it returns `Ok` exactly over ids that
each name one task and lie on no cycle. Updates leave a sound graph sound, and leave no
dependency without its task that had it. -/
theorem dependencies_stay_sound :
    (∀ (s : Snapshot) (task : Task) (fuel : Nat), task ∈ s.tasks → s.searchDepth ≤ fuel →
      s.visit fuel task [] [] ≠ .error .outOfFuel ∧
        ((∃ done, s.visit fuel task [] [] = .ok done) ↔
          ∀ i, s.Reaches task i → s.Resolves i ∧ ¬ TransGen s.Depends i i)) ∧
    ∀ (evidence : Task → Task → String) (updates : List Coordinate) (s s' : Snapshot),
      s.UniqueIds → Acyclic s.Depends →
      updates.foldlM (fun s c => coordinate evidence c s) s = .ok s' →
      s'.UniqueIds ∧ Acyclic s'.Depends ∧ ∀ d, s'.Dangling d → s.Dangling d := by
  constructor
  · intro s task fuel htask hfuel
    exact ⟨(Snapshot.returns_visit_root htask hfuel).fuel, Snapshot.visit_ok_iff htask hfuel⟩
  · intro evidence updates s s' hunique hacyclic h
    have hkept := keeps_of_updates updates h ⟨hunique, hacyclic⟩
    exact ⟨hkept.sound.unique, hkept.sound.acyclic, hkept.dangling⟩

section Boards

/-- A Todo task of the root board with an id and its dependencies. -/
def todoTask (index : Nat) (id : String) (dependsOn : List String) : Task where
  board := ""
  status := .todo
  index := index
  content := []
  metadata := { id, dependsOn, scope := ⟨"", [], [], [], [], []⟩, reviews := [] }
  error := none
  completionWait := none

/-- A request without a change: the task receives the id that is drawn if it has none. -/
def assignId (index : Nat) (newId : String) : Coordinate where
  board := ""
  status := .todo
  index := index
  update := ⟨[], [], none, none⟩
  newId := newId
  allowed := .ok ()

/-- A board on which the prerequisite of the first task has been deleted. -/
def withoutPrerequisite (second : String) : Snapshot :=
  ⟨[todoTask 1 "a" ["gone"], todoTask 2 second []], []⟩

theorem depends_withoutPrerequisite {second a b : String}
    (h : (withoutPrerequisite second).Depends a b) : a = "a" ∧ b = "gone" := by
  obtain ⟨-, t, ht, rfl, hb⟩ := h
  simp only [withoutPrerequisite, List.mem_cons, List.not_mem_nil, or_false] at ht
  rcases ht with rfl | rfl
  · exact ⟨rfl, List.mem_singleton.mp hb⟩
  · cases hb

theorem acyclic_withoutPrerequisite (second : String) :
    Acyclic (withoutPrerequisite second).Depends := by
  intro a hcycle
  obtain ⟨b, hab, -⟩ := TransGen.head'_iff.mp hcycle
  obtain ⟨c, -, hca⟩ := TransGen.tail'_iff.mp hcycle
  obtain ⟨rfl, -⟩ := depends_withoutPrerequisite hab
  have hlast := (depends_withoutPrerequisite hca).2
  exact absurd hlast (by decide)

/-- An update of another task leaves the missing prerequisite missing. -/
theorem dangling_after_update :
    (withoutPrerequisite "").UniqueIds ∧ Acyclic (withoutPrerequisite "").Depends ∧
      ∃ s', [assignId 2 "b"].foldlM (fun s c => coordinate (fun _ _ => "") c s)
          (withoutPrerequisite "") = .ok s' ∧ s'.Dangling "gone" := by
  refine ⟨by decide, acyclic_withoutPrerequisite "", withoutPrerequisite "b", rfl, ?_, ?_⟩
  · exact ⟨todoTask 1 "a" ["gone"], List.mem_cons_self, List.mem_singleton_self _⟩
  · rintro ⟨t, ht⟩
    cases ht

theorem dependencies_stay_sound_witness :
    (∃ done, (withoutPrerequisite "").visit 4 (todoTask 2 "" []) [] [] = .ok done) ∧
      Acyclic (withoutPrerequisite "b").Depends := by
  constructor
  · refine ((dependencies_stay_sound.1 (withoutPrerequisite "") (todoTask 2 "" []) 4
      (by decide) (by decide)).2).mpr ?_
    rintro i (⟨hne, -⟩ | ⟨d, hd, -⟩)
    · exact absurd rfl hne
    · cases hd
  · exact (dependencies_stay_sound.2 (fun _ _ => "") [assignId 2 "b"] (withoutPrerequisite "")
      (withoutPrerequisite "b") (by decide) (acyclic_withoutPrerequisite "") rfl).2.1

end Boards

end Clt
