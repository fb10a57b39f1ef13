import Mathlib.Data.Set.Finite.Basic
import Clt.Relational.DecimalText
import Clt.Task.Board

/-!
# Placing a task without reordering

A task that enters a folder of tasks can be put first or last under a name of its own, with no
other task renamed (`task.rs`). In front it gets the rank before the smallest one that is there,
and is the first task in the listing; the ranks are exhausted at zero. At the end it gets the
number of the tasks plus one, and that number need not be the largest one there
(`placed_as_asked_iff`).
-/

namespace Clt

open Files

/-! ## Names -/

/-- A number in decimal, with zeros in front up to a width: `{:04}`, `{:020}`. -/
def decimal (width n : Nat) : Text := (Nat.toDigits 10 n).leftpad width '0'

def childNames (tasks : Folder) : List Text := tasks.map Prod.fst

/-- `Path::extension` with its dot, or nothing. -/
def dotExtension (name : Text) : Text :=
  match fileStem name with
  | none => []
  | some stem => name.drop stem.length

/-- A candidate of `unique_child_path`. -/
def candidateName (preferred : Text) (idx : Nat) : Text :=
  (fileStem preferred).getD preferred ++ ['-'] ++ decimal 0 idx ++ dotExtension preferred

theorem digitsNumber_decimal (width n : Nat) : digitsNumber (decimal width n) = n := by
  show Nat.ofDigitChars 10 (List.leftpad width '0' (Nat.toDigits 10 n)) 0 = n
  rw [List.leftpad, Nat.ofDigitChars_append, Nat.ofDigitChars_replicate_zero, Nat.mul_zero]
  exact Nat.ofDigitChars_ten_toDigits

theorem candidateName_injective (preferred : Text) :
    Function.Injective (candidateName preferred) := by
  intro i j h
  have hdigits : decimal 0 i = decimal 0 j :=
    List.append_cancel_left (List.append_cancel_right h)
  rw [← digitsNumber_decimal 0 i, hdigits, digitsNumber_decimal]

/-- The search of `unique_child_path` ends: it has more candidates than there are tasks. -/
theorem exists_candidateName (tasks : Folder) (preferred : Text) :
    ∃ i, candidateName preferred (i + 2) ∉ childNames tasks := by
  have hinj : Function.Injective fun i => candidateName preferred (i + 2) :=
    fun i j h => Nat.add_right_cancel (candidateName_injective preferred h)
  obtain ⟨name, ⟨i, rfl⟩, hfree⟩ :=
    (Set.infinite_range_of_injective hinj).exists_notMem_finset (childNames tasks).toFinset
  exact ⟨i, fun hmem => hfree (List.mem_toFinset.mpr hmem)⟩

/-- `unique_child_path`. -/
def uniqueChildPath (tasks : Folder) (preferred : Text) : Text :=
  if preferred ∉ childNames tasks then preferred
  else candidateName preferred (Nat.find (exists_candidateName tasks preferred) + 2)

theorem uniqueChildPath_notMem (tasks : Folder) (preferred : Text) :
    uniqueChildPath tasks preferred ∉ childNames tasks := by
  unfold uniqueChildPath
  split
  · assumption
  · exact Nat.find_spec (exists_candidateName tasks preferred)

/-- A number in front of a name stays in front of its stem. -/
theorem prefix_fileStem {number : Text} (hne : number ≠ []) (hdot : '.' ∉ number) (name : Text) :
    number <+: (fileStem (number ++ name)).getD (number ++ name) := by
  have hwhole : number <+: number ++ name := List.prefix_append _ _
  have hall : ∀ c ∈ number.reverse, (decide (c ≠ '.')) = true := by
    intro c hc
    exact decide_eq_true fun heq => hdot (heq ▸ List.mem_reverse.mp hc)
  unfold fileStem
  split
  · exact hwhole
  · rw [List.reverse_append, List.dropWhile_append]
    cases hlast : name.reverse.dropWhile (· ≠ '.') with
    | nil =>
      -- There is no dot, and the stem is the whole name.
      rw [List.isEmpty_nil, if_pos rfl, List.dropWhile_eq_nil_iff.mpr hall]
      exact hwhole
    | cons dot before =>
      have hstem : (((dot :: before) ++ number.reverse).drop 1).reverse =
          number ++ before.reverse := by
        rw [List.cons_append, List.drop_one, List.tail_cons, List.reverse_append,
          List.reverse_reverse]
      rw [List.isEmpty_cons, if_neg Bool.false_ne_true, hstem]
      simp only [List.append_eq_nil_iff, hne, false_and, if_false, Option.getD_some]
      exact List.prefix_append _ _

theorem prefix_uniqueChildPath {number : Text} (hne : number ≠ []) (hdot : '.' ∉ number)
    (tasks : Folder) (name : Text) : number <+: uniqueChildPath tasks (number ++ name) := by
  unfold uniqueChildPath
  split
  · exact List.prefix_append _ _
  · unfold candidateName
    rw [List.append_assoc, List.append_assoc]
    exact (prefix_fileStem hne hdot name).trans (List.prefix_append _ _)

/-- The loop of `slugify` over lowercase characters, with the slug so far. -/
def slugLoop : Text → Text → Bool → Text
  | [], slug, _ => slug
  | ch :: rest, slug, lastWasDash =>
    let (slug, lastWasDash) :=
      if ch.isAlphanum then (slug ++ [ch], false)
      else if !lastWasDash && !slug.isEmpty then (slug ++ ['-'], true)
      else (slug, lastWasDash)
    if 48 ≤ slug.length then slug else slugLoop rest slug lastWasDash

/-- `slugify`. -/
def slugify (lower : Char → Text) (value : Text) : Text :=
  let slug := (slugLoop (value.flatMap lower) [] false).rdropWhile (· == '-')
  if slug.isEmpty then "task".toList else slug

/-! ## Placing -/

variable (toLowercase : Text → Text) (lower : Char → Text)

/-- `task_name_without_reordering`. -/
def taskNameWithoutReordering (tasks : Folder) (name : Text) (prepend : Bool) :
    Except String Text :=
  let paths := directoryTaskPaths toLowercase tasks
  if !prepend then .ok (decimal 4 (paths.length + 1) ++ ['-'] ++ name)
  else
    match ((paths.filterMap fun path => frontOrderRank path.1).min?).getD (2 ^ 64 - 1) with
    | 0 => .error "No remaining space to prepend a task without reordering"
    | rank + 1 => .ok ("0000-".toList ++ decimal 20 rank ++ ['-'] ++ name)

/-- `insert_content_into_directory_without_reordering_at`: the path of the new task and what the
folder holds then. -/
def insertContentIntoDirectoryWithoutReorderingAt (tasks : Folder) (content : Text)
    (prepend : Bool) : Except String (Text × Folder) := do
  let name := slugify lower ((firstSentence content).getD "task".toList) ++ ".md".toList
  let preferredName ← taskNameWithoutReordering toLowercase tasks name prepend
  let taskPath := uniqueChildPath tasks preferredName
  .ok (taskPath, tasks ++ [(taskPath, .file (Text.trimEnd content ++ ['\n']))])

/-- `move_path_into_directory_without_reordering`: the path of the moved task and what the
destination holds then. The task may come from the destination itself. -/
def movePathIntoDirectoryWithoutReordering (sourceName : Text) (node : Node) (fromHere : Bool)
    (tasks : Folder) (prepend : Bool) : Except String (Text × Folder) := do
  let preferredName ←
    taskNameWithoutReordering toLowercase tasks (stripOrderPrefix sourceName) prepend
  let destPath := uniqueChildPath tasks preferredName
  let rest := if fromHere then tasks.filter fun task => task.1 ≠ sourceName else tasks
  .ok (destPath, rest ++ [(destPath, node)])

/-- A task that is placed in a folder: new content, or a path, which may come from the folder
itself. -/
inductive Placed where
  | content (content : Text)
  | path (name : Text) (hname : IsName name) (node : Node) (fromHere : Bool)

namespace Placed

/-- The name that follows the number. -/
def name : Placed → Text
  | content text => slugify lower ((firstSentence text).getD "task".toList) ++ ".md".toList
  | path name _ _ _ => stripOrderPrefix name

def node : Placed → Node
  | content text => .file (Text.trimEnd text ++ ['\n'])
  | path _ _ node _ => node

/-- The tasks that were there, without the one that is moved. -/
def others (tasks : Folder) : Placed → Folder
  | content _ => tasks
  | path name _ _ fromHere => if fromHere then tasks.filter fun task => task.1 ≠ name else tasks

/-- Put the task first, or last. -/
def place (tasks : Folder) (prepend : Bool) : Placed → Except String (Text × Folder)
  | content text =>
    insertContentIntoDirectoryWithoutReorderingAt toLowercase lower tasks text prepend
  | path name _ node fromHere =>
    movePathIntoDirectoryWithoutReordering toLowercase name node fromHere tasks prepend

theorem bind_ok {ε α β : Type} (x : Except ε α) (f : α → β) :
    (x >>= fun a => .ok (f a)) = x.map f := by
  cases x <;> rfl

theorem place_eq (tasks : Folder) (prepend : Bool) (placed : Placed) :
    placed.place toLowercase lower tasks prepend =
      (taskNameWithoutReordering toLowercase tasks (placed.name lower) prepend).map
        fun preferred => (uniqueChildPath tasks preferred,
          placed.others tasks ++ [(uniqueChildPath tasks preferred, placed.node)]) := by
  cases placed with
  | content text => exact bind_ok _ _
  | path name hname node fromHere => exact bind_ok _ _

theorem others_subset {tasks : Folder} {placed : Placed} : placed.others tasks ⊆ tasks := by
  cases placed with
  | content text => exact fun _ h => h
  | path name hname node fromHere =>
    cases fromHere with
    | false => exact fun _ h => h
    | true => exact List.filter_subset_self _

theorem name_ne_nil (placed : Placed) : placed.name lower ≠ [] := by
  cases placed with
  | content text => exact List.append_ne_nil_of_right_ne_nil _ (by decide)
  | path name hname node fromHere =>
    show stripOrderPrefix name ≠ []
    unfold stripOrderPrefix
    split
    · rename_i hrank
      -- A rank is read only before a name that goes on.
      have hlen : 26 < name.length := by
        by_contra hshort
        simp [frontOrderRank, hshort] at hrank
      rw [Ne, List.drop_eq_nil_iff]
      omega
    · split
      · rename_i hnumber
        have hlen := hnumber.1
        rw [Ne, List.drop_eq_nil_iff]
        omega
      · exact hname.1

end Placed

/-! ## Ranks and numbers -/

section Order

variable {as bs name s t u : Text} {width n r : Nat}

theorem append_lt_append (hlen : as.length = bs.length) (h : as < bs) (s t : Text) :
    as ++ s < bs ++ t := by
  induction as generalizing bs with
  | nil =>
    rw [List.eq_nil_of_length_eq_zero hlen.symm] at h
    exact absurd h (lt_irrefl _)
  | cons a as ih =>
    cases bs with
    | nil => cases hlen
    | cons b bs =>
      rw [List.cons_append, List.cons_append, List.cons_lt_cons_iff]
      rcases List.cons_lt_cons_iff.mp h with hab | ⟨hab, htail⟩
      · exact .inl hab
      · exact .inr ⟨hab, ih (Nat.succ.inj hlen) htail⟩

theorem append_lt_append_left (p : Text) : p ++ s < p ++ t ↔ s < t := by
  induction p with
  | nil => rfl
  | cons c p ih => simpa [List.cons_lt_cons_iff] using ih

/-- A text is below one that begins with `p` when it is below `p`, or goes on after it below the
rest. -/
theorem lt_append_iff (p : Text) : s < p ++ t ↔ s < p ∨ ∃ u, s = p ++ u ∧ u < t := by
  induction p generalizing s with
  | nil => simp
  | cons c p ih =>
    cases s with
    | nil => simp
    | cons d s =>
      rw [List.cons_append, List.cons_lt_cons_iff, List.cons_lt_cons_iff, ih]
      by_cases hdc : d = c
      · subst hdc
        simp
      · simp [hdc]

theorem isDigit_of_mem_decimal {c : Char} (hc : c ∈ decimal width n) : c.isDigit = true := by
  rcases List.mem_append.mp hc with hpad | hdigit
  · rw [(List.mem_replicate.mp hpad).2]
    rfl
  · exact Nat.isDigit_of_mem_toDigits (by decide) (by decide) hdigit

theorem decimal_ne_nil (width n : Nat) : decimal (width + 1) n ≠ [] :=
  List.append_ne_nil_of_right_ne_nil _ Nat.toDigits_ne_nil

theorem length_decimal (hwidth : 0 < width) (h : n < 10 ^ width) :
    (decimal width n).length = width := by
  have hlen := (Nat.length_toDigits_le_iff (by decide) hwidth).mpr h
  rw [decimal, List.leftpad, List.length_append, List.length_replicate]
  omega

/-- A rank has twenty digits between dashes, after the number zero and before a name. -/
theorem frontOrderRank_eq_some : frontOrderRank name = some r ↔
    ∃ digits rest, name = "0000-".toList ++ (digits ++ '-' :: rest) ∧ digits.length = 20 ∧
      (∀ c ∈ digits, c.isDigit = true) ∧ rest ≠ [] ∧ digitsNumber digits = r ∧ r < 2 ^ 64 := by
  constructor
  · intro h
    obtain ⟨⟨hlen, hzero, hdigits, hdash, hlt⟩, heq⟩ := Option.ite_none_right_eq_some.mp h
    obtain ⟨tail, rfl⟩ := hzero
    have hdrop : ("0000-".toList ++ tail).drop 5 = tail := List.drop_left' rfl
    have hdrop' : ("0000-".toList ++ tail).drop 25 = tail.drop 20 := by
      rw [← List.drop_drop (i := 20) (j := 5), hdrop]
    rw [hdrop] at hdigits hlt heq
    rw [hdrop'] at hdash
    rw [List.length_append] at hlen
    have hfive : "0000-".toList.length = 5 := rfl
    refine ⟨tail.take 20, tail.drop 21, ?_, ?_, List.all_eq_true.mp hdigits, ?_,
      Option.some.inj heq, Option.some.inj heq ▸ hlt⟩
    · cases hrest : tail.drop 20 with
      | nil => rw [hrest] at hdash; cases hdash
      | cons c rest =>
        rw [hrest] at hdash
        obtain rfl := Option.some.inj hdash
        have hone : tail.drop 21 = rest := by rw [← List.drop_drop (i := 1) (j := 20), hrest]; rfl
        rw [hone, ← hrest, List.take_append_drop]
    · rw [List.length_take]
      omega
    · rw [Ne, List.drop_eq_nil_iff]
      omega
  · rintro ⟨digits, rest, rfl, hlen, hdigits, hrest, rfl, hlt⟩
    have hdrop : ("0000-".toList ++ (digits ++ '-' :: rest)).drop 5 = digits ++ '-' :: rest :=
      List.drop_left' rfl
    have htake : (digits ++ '-' :: rest).take 20 = digits := List.take_left' hlen
    have hdash : ("0000-".toList ++ (digits ++ '-' :: rest)).drop 25 = '-' :: rest := by
      rw [← List.drop_drop (i := 20) (j := 5), hdrop]
      exact List.drop_left' hlen
    have hlong : 26 < ("0000-".toList ++ (digits ++ '-' :: rest)).length := by
      have hfive : "0000-".toList.length = 5 := rfl
      have hpos := List.length_pos_iff.mpr hrest
      rw [List.length_append, List.length_append, List.length_cons]
      omega
    unfold frontOrderRank
    rw [hdrop, htake, hdash]
    exact if_pos ⟨hlong, List.prefix_append _ _, List.all_eq_true.mpr hdigits, rfl, hlt⟩

theorem lt_of_frontOrderRank_lt (hs : frontOrderRank s = some r) (ht : frontOrderRank t = some n)
    (h : r < n) : s < t := by
  obtain ⟨digits, rest, rfl, hlen, hdigits, -, rfl, -⟩ := frontOrderRank_eq_some.mp hs
  obtain ⟨digits', rest', rfl, hlen', hdigits', -, rfl, -⟩ := frontOrderRank_eq_some.mp ht
  have hlt : digits < digits' :=
    (Relational.lt_iff_digitsValue_lt hdigits hdigits' (hlen.trans hlen'.symm)).mpr h
  exact (append_lt_append_left _).mpr (append_lt_append (hlen.trans hlen'.symm) hlt _ _)

theorem frontOrderRank_prepended (hrank : r < 2 ^ 64) (hname : name ≠ []) :
    frontOrderRank ("0000-".toList ++ decimal 20 r ++ ['-'] ++ name) = some r := by
  have hwide : (2 : Nat) ^ 64 < 10 ^ 20 := by norm_num
  refine frontOrderRank_eq_some.mpr ⟨decimal 20 r, name, by simp only [List.append_assoc,
    List.singleton_append], length_decimal (by decide) (hrank.trans hwide),
    fun c => isDigit_of_mem_decimal, hname, digitsNumber_decimal 20 r, hrank⟩

/-- A number is not taken for a rank: a rank goes with the number zero. -/
theorem frontOrderRank_numbered (hn : 0 < n) (s : Text) :
    frontOrderRank (decimal 4 n ++ ['-'] ++ s) = none := by
  cases hrank : frontOrderRank (decimal 4 n ++ ['-'] ++ s) with
  | none => rfl
  | some r =>
    obtain ⟨digits, rest, heq, -⟩ := frontOrderRank_eq_some.mp hrank
    have hleft : (decimal 4 n ++ ['-'] ++ s).takeWhile Char.isDigit = decimal 4 n := by
      rw [List.append_assoc, List.takeWhile_append_of_pos fun c => isDigit_of_mem_decimal]
      exact List.append_nil _
    have hzero : decimal 4 n = "0000".toList := by
      rw [← hleft, heq]
      rfl
    have hvalue : digitsNumber (decimal 4 n) = 0 := by
      rw [hzero]
      rfl
    rw [digitsNumber_decimal] at hvalue
    omega

end Order

/-! ## Lowercase names -/

/-- A character of the numbers that names begin with. -/
def isOrderChar (c : Char) : Bool := c.isDigit || c == '-'

/-- What is documented of `str::to_lowercase`, as far as numbered names go: digits and dashes are
their own lowercase, nothing else has them for its lowercase, and no character is lost. -/
structure KeepsNumbers (toLowercase : Text → Text) : Prop where
  append : ∀ {number} (name : Text), number.all isOrderChar = true →
    toLowercase (number ++ name) = number ++ toLowercase name
  prefix_of : ∀ {number name : Text}, number.all isOrderChar = true →
    number <+: toLowercase name → number <+: name
  eq_nil_iff : ∀ {name}, toLowercase name = [] ↔ name = []

theorem isOrderChar_of_isDigit {c : Char} (h : c.isDigit = true) : isOrderChar c = true := by
  rw [isOrderChar, h, Bool.true_or]

theorem all_isOrderChar_decimal (width n : Nat) :
    (decimal width n ++ ['-']).all isOrderChar = true := by
  rw [List.all_append, Bool.and_eq_true, List.all_eq_true]
  exact ⟨fun c hc => isOrderChar_of_isDigit (isDigit_of_mem_decimal hc), rfl⟩

section Lowercase

variable {toLowercase} (hlowercase : KeepsNumbers toLowercase)
include hlowercase

theorem frontOrderRank_toLowercase (name : Text) :
    frontOrderRank (toLowercase name) = frontOrderRank name := by
  apply Option.ext
  intro r
  rw [frontOrderRank_eq_some, frontOrderRank_eq_some]
  have hall {digits : Text} (hdigits : ∀ c ∈ digits, c.isDigit = true) :
      ("0000-".toList ++ (digits ++ ['-'])).all isOrderChar = true := by
    rw [List.all_append, List.all_append, Bool.and_eq_true, Bool.and_eq_true]
    exact ⟨rfl, List.all_eq_true.mpr fun c hc => isOrderChar_of_isDigit (hdigits c hc), rfl⟩
  have hassoc (digits rest : Text) : "0000-".toList ++ (digits ++ '-' :: rest) =
      "0000-".toList ++ (digits ++ ['-']) ++ rest := by
    simp only [List.append_assoc, List.singleton_append]
  constructor
  · rintro ⟨digits, rest, hname, hlen, hdigits, hrest, hvalue⟩
    rw [hassoc] at hname
    obtain ⟨tail, rfl⟩ := hlowercase.prefix_of (hall hdigits) ⟨rest, hname.symm⟩
    rw [hlowercase.append tail (hall hdigits)] at hname
    have htail : toLowercase tail = rest := List.append_cancel_left hname
    refine ⟨digits, tail, (hassoc _ _).symm, hlen, hdigits, ?_, hvalue⟩
    rw [← htail, Ne, hlowercase.eq_nil_iff] at hrest
    exact hrest
  · rintro ⟨digits, rest, rfl, hlen, hdigits, hrest, hvalue⟩
    refine ⟨digits, toLowercase rest, ?_, hlen, hdigits, ?_, hvalue⟩
    · rw [hassoc digits rest, hlowercase.append rest (hall hdigits), ← hassoc]
    · rw [Ne, hlowercase.eq_nil_iff]
      exact hrest

end Lowercase

/-! ## First and last -/

section Placing

variable (toLowercase : Text → Text) (lower : Char → Text) (tasks : Folder) (placed : Placed)

/-- The task is where it was asked for, in whatever order the folder is read: it has a name that
was free, the other tasks keep theirs, and it is the first or the last one listed. Only a task
that is put first can fail, when there is no rank before those that are there. -/
def PlacedAsAsked (prepend : Bool) : Prop :=
  match placed.place toLowercase lower tasks prepend with
  | .error _ =>
    prepend = true ∧ ∃ task ∈ directoryTaskPaths toLowercase tasks, frontOrderRank task.1 = some 0
  | .ok (path, after) =>
    path ∉ childNames tasks ∧ after = placed.others tasks ++ [(path, placed.node)] ∧
      ∀ read : Folder, read.Perm after →
        (if prepend then (directoryTaskPaths toLowercase read).head?
          else (directoryTaskPaths toLowercase read).getLast?) = some (path, placed.node)

/-- The number that a task gets at the end, with its dash. -/
def lastNumber : Text :=
  decimal 4 ((directoryTaskPaths toLowercase tasks).length + 1) ++ ['-']

/-- What the name of the task is after that number: its own name, or the first one of
`unique_child_path` that is free. -/
def freeName : Text :=
  (uniqueChildPath tasks (lastNumber toLowercase tasks ++ placed.name lower)).drop
    (lastNumber toLowercase tasks).length

/-- Every other task that is listed and has no rank is below the number, in lowercase, or goes on
after it below the free name. -/
def BelowLastNumber : Prop :=
  ∀ task ∈ placed.others tasks, isHidden task.1 = false → frontOrderRank task.1 = none →
    toLowercase task.1 < lastNumber toLowercase tasks ∨
      ∃ rest, toLowercase task.1 = lastNumber toLowercase tasks ++ rest ∧
        rest < toLowercase (freeName toLowercase lower tasks placed)

variable {toLowercase lower tasks placed}

variable (toLowercase lower tasks placed) in
theorem lastNumber_append_freeName :
    uniqueChildPath tasks (lastNumber toLowercase tasks ++ placed.name lower) =
      lastNumber toLowercase tasks ++ freeName toLowercase lower tasks placed := by
  have hdot : '.' ∉ lastNumber toLowercase tasks := by
    intro hmem
    rcases List.mem_append.mp hmem with hdigit | hdash
    · have := isDigit_of_mem_decimal hdigit
      cases this
    · cases List.mem_singleton.mp hdash
  have hne : lastNumber toLowercase tasks ≠ [] :=
    List.append_ne_nil_of_right_ne_nil _ (List.cons_ne_nil _ _)
  obtain ⟨rest, hrest⟩ := prefix_uniqueChildPath hne hdot tasks (placed.name lower)
  unfold freeName
  rw [← hrest, List.drop_left]

theorem mem_directoryTaskPaths {task : Text × Node} :
    task ∈ directoryTaskPaths toLowercase tasks ↔ task ∈ tasks ∧ isHidden task.1 = false := by
  rw [directoryTaskPaths, (Listing.sortByKey_perm _ _).mem_iff, List.mem_filter]
  simp

variable (toLowercase) in
/-- A task that is put first gets a rank before every rank in the listing. -/
theorem taskNameWithoutReordering_true (tasks : Folder) (name : Text) :
    (∃ message, taskNameWithoutReordering toLowercase tasks name true = .error message) ∧
        (∃ task ∈ directoryTaskPaths toLowercase tasks, frontOrderRank task.1 = some 0) ∨
      ∃ rank < 2 ^ 64, taskNameWithoutReordering toLowercase tasks name true =
          .ok ("0000-".toList ++ decimal 20 rank ++ ['-'] ++ name) ∧
        ∀ task ∈ directoryTaskPaths toLowercase tasks, ∀ r,
          frontOrderRank task.1 = some r → rank < r := by
  have hmem {r : Nat} : r ∈ (directoryTaskPaths toLowercase tasks).filterMap
      (fun path => frontOrderRank path.1) ↔
      ∃ task ∈ directoryTaskPaths toLowercase tasks, frontOrderRank task.1 = some r :=
    List.mem_filterMap
  have hname : taskNameWithoutReordering toLowercase tasks name true =
      match (((directoryTaskPaths toLowercase tasks).filterMap
        fun path => frontOrderRank path.1).min?).getD (2 ^ 64 - 1) with
      | 0 => .error "No remaining space to prepend a task without reordering"
      | rank + 1 => .ok ("0000-".toList ++ decimal 20 rank ++ ['-'] ++ name) := rfl
  cases hmin : (((directoryTaskPaths toLowercase tasks).filterMap
      fun path => frontOrderRank path.1).min?).getD (2 ^ 64 - 1) with
  | zero =>
    rw [hmin] at hname
    refine .inl ⟨⟨_, hname⟩, hmem.mp ?_⟩
    cases hsome : ((directoryTaskPaths toLowercase tasks).filterMap
        fun path => frontOrderRank path.1).min? with
    | none =>
      rw [hsome] at hmin
      cases hmin
    | some r =>
      rw [hsome] at hmin
      obtain rfl : r = 0 := hmin
      exact List.min?_mem hsome
  | succ rank =>
    rw [hmin] at hname
    refine .inr ⟨rank, ?_, hname, ?_⟩
    · cases hsome : ((directoryTaskPaths toLowercase tasks).filterMap
          fun path => frontOrderRank path.1).min? with
      | none =>
        rw [hsome, Option.getD_none] at hmin
        omega
      | some r =>
        rw [hsome, Option.getD_some] at hmin
        obtain ⟨task, -, hrank⟩ := hmem.mp (List.min?_mem hsome)
        obtain ⟨-, -, -, -, -, -, -, hlt⟩ := frontOrderRank_eq_some.mp hrank
        omega
    · intro task htask r hr
      have hle := List.min?_getD_le_of_mem (k := 2 ^ 64 - 1) (hmem.mpr ⟨task, htask, hr⟩)
      omega

/-- The listing has the new task among the others that are not hidden. -/
theorem filter_perm {path : Text} {node : Node} {others read : Folder}
    (hpath : isHidden path = false) (hperm : read.Perm (others ++ [(path, node)])) :
    (read.filter fun task => !isHidden task.1).Perm
      ((path, node) :: others.filter fun task => !isHidden task.1) := by
  have h := (hperm.trans List.perm_append_comm).filter fun task => !isHidden task.1
  rwa [List.singleton_append, List.filter_cons_of_pos (by simp [hpath])] at h

theorem listingKey_lt_of_rank (hlowercase : KeepsNumbers toLowercase) {task other : Text × Node}
    {rank : Nat} (htask : frontOrderRank task.1 = some rank)
    (hother : ∀ r, frontOrderRank other.1 = some r → rank < r) :
    listingKey toLowercase task < listingKey toLowercase other := by
  have htask' := (frontOrderRank_toLowercase hlowercase task.1).trans htask
  have hother' := frontOrderRank_toLowercase hlowercase other.1
  rw [listingKey, listingKey, Prod.Lex.toLex_lt_toLex]
  show (frontOrderRank (toLowercase task.1)).isNone < (frontOrderRank (toLowercase other.1)).isNone ∨
    (frontOrderRank (toLowercase task.1)).isNone = (frontOrderRank (toLowercase other.1)).isNone ∧
      toLowercase task.1 < toLowercase other.1
  cases hrank : frontOrderRank other.1 with
  | none =>
    left
    rw [htask', hother', hrank]
    exact Bool.false_lt_true
  | some r =>
    right
    rw [hrank] at hother'
    refine ⟨by rw [htask', hother']; rfl, ?_⟩
    exact lt_of_frontOrderRank_lt htask' hother' (hother r hrank)

theorem listingKey_lt_iff (hlowercase : KeepsNumbers toLowercase) {task other : Text × Node}
    (htask : frontOrderRank task.1 = none) :
    listingKey toLowercase other < listingKey toLowercase task ↔
      (frontOrderRank other.1 = none → toLowercase other.1 < toLowercase task.1) := by
  have htask' := (frontOrderRank_toLowercase hlowercase task.1).trans htask
  have hother' := frontOrderRank_toLowercase hlowercase other.1
  rw [listingKey, listingKey, Prod.Lex.toLex_lt_toLex]
  show (frontOrderRank (toLowercase other.1)).isNone < (frontOrderRank (toLowercase task.1)).isNone ∨
    (frontOrderRank (toLowercase other.1)).isNone = (frontOrderRank (toLowercase task.1)).isNone ∧
      toLowercase other.1 < toLowercase task.1 ↔ _
  rw [htask', hother']
  cases frontOrderRank other.1 with
  | none => simp
  | some r => simp

theorem isHidden_of_isDigit {name : Text} {c : Char} (hc : c.isDigit = true) :
    isHidden (c :: name) = false := by
  rw [isHidden, List.head?_cons]
  refine beq_eq_false_iff_ne.mpr fun h => ?_
  rw [Option.some.inj h] at hc
  cases hc

theorem notMem_others {path : Text} {node : Node} (hpath : path ∉ childNames tasks) :
    (path, node) ∉ placed.others tasks := by
  intro hmem
  exact hpath (List.mem_map.mpr ⟨(path, node), Placed.others_subset hmem, rfl⟩)

/-- A task that is put in front is the first one listed, unless the ranks are exhausted. -/
theorem placedAsAsked_true (hlowercase : KeepsNumbers toLowercase) :
    PlacedAsAsked toLowercase lower tasks placed true := by
  unfold PlacedAsAsked
  rw [Placed.place_eq]
  rcases taskNameWithoutReordering_true toLowercase tasks (placed.name lower) with
    ⟨⟨message, hname⟩, hexhausted⟩ | ⟨rank, hlt, hname, hbelow⟩
  · rw [hname]
    exact ⟨rfl, hexhausted⟩
  · rw [hname]
    set preferred := "0000-".toList ++ decimal 20 rank ++ ['-'] ++ placed.name lower with hpreferred
    have hrank : frontOrderRank preferred = some rank :=
      frontOrderRank_prepended hlt (placed.name_ne_nil lower)
    have hvisible : isHidden preferred = false := isHidden_of_isDigit rfl
    -- A task of that name would have a rank that is not above the new one.
    have hfree : preferred ∉ childNames tasks := by
      intro hmem
      obtain ⟨task, htask, heq⟩ := List.mem_map.mp hmem
      rw [← heq] at hrank hvisible
      exact lt_irrefl _ (hbelow task (mem_directoryTaskPaths.mpr ⟨htask, hvisible⟩) rank hrank)
    have hpath : uniqueChildPath tasks preferred = preferred := if_pos hfree
    show uniqueChildPath tasks preferred ∉ _ ∧ _
    rw [hpath]
    refine ⟨hfree, rfl, ?_⟩
    intro read hperm
    refine Listing.head?_sortByKey ?_ (filter_perm hvisible hperm)
    intro other hother
    obtain ⟨hmem, hshown⟩ := List.mem_filter.mp hother
    refine listingKey_lt_of_rank hlowercase hrank (hbelow other ?_)
    exact mem_directoryTaskPaths.mpr ⟨Placed.others_subset hmem, by simpa using hshown⟩

/-- A task that is put at the end is the last one listed exactly when the others are below it. -/
theorem placedAsAsked_false (hlowercase : KeepsNumbers toLowercase) :
    PlacedAsAsked toLowercase lower tasks placed false ↔
      BelowLastNumber toLowercase lower tasks placed := by
  unfold PlacedAsAsked
  rw [Placed.place_eq]
  have hname : taskNameWithoutReordering toLowercase tasks (placed.name lower) false =
      .ok (lastNumber toLowercase tasks ++ placed.name lower) := rfl
  rw [hname]
  have hpath := lastNumber_append_freeName toLowercase lower tasks placed
  have hfree := uniqueChildPath_notMem tasks (lastNumber toLowercase tasks ++ placed.name lower)
  rw [hpath] at hfree
  set number := lastNumber toLowercase tasks with hnumber
  set free := freeName toLowercase lower tasks placed with hfreeName
  have hunranked : frontOrderRank (number ++ free) = none := frontOrderRank_numbered (by omega) free
  have hvisible : isHidden (number ++ free) = false := by
    obtain ⟨c, digits, hdigits⟩ := List.exists_cons_of_ne_nil (decimal_ne_nil 3
      ((directoryTaskPaths toLowercase tasks).length + 1))
    have hc : c ∈ decimal 4 ((directoryTaskPaths toLowercase tasks).length + 1) :=
      hdigits ▸ List.mem_cons_self
    rw [hnumber, lastNumber, hdigits]
    exact isHidden_of_isDigit (isDigit_of_mem_decimal hc)
  show uniqueChildPath tasks (number ++ _) ∉ _ ∧ _ ∧ (∀ read : Folder, read.Perm
    (placed.others tasks ++ [(uniqueChildPath tasks (number ++ _), placed.node)]) → _) ↔ _
  rw [hpath]
  have hkey (task : Text × Node) : listingKey toLowercase task <
      listingKey toLowercase (number ++ free, placed.node) ↔ (frontOrderRank task.1 = none →
        toLowercase task.1 < number ∨
          ∃ rest, toLowercase task.1 = number ++ rest ∧ rest < toLowercase free) := by
    refine Iff.trans (listingKey_lt_iff hlowercase hunranked) ?_
    rw [← lt_append_iff]
    show (_ → _ < toLowercase (number ++ free)) ↔ _
    have happend : toLowercase (number ++ free) = number ++ toLowercase free :=
      hlowercase.append free (all_isOrderChar_decimal 4 _)
    rw [happend]
  constructor
  · rintro ⟨-, -, hlast⟩ task htask hshown
    -- The new task may be the first one that is read.
    have hread := hlast ((number ++ free, placed.node) :: placed.others tasks)
      (List.perm_append_singleton _ _).symm
    rw [if_neg Bool.false_ne_true, directoryTaskPaths,
      List.filter_cons_of_pos (by simp [hvisible])] at hread
    have hlt := Listing.lt_of_getLast?_sortByKey_cons
      (fun hmem => notMem_others hfree (List.mem_filter.mp hmem).1) hread
    exact (hkey task).mp (hlt task (List.mem_filter.mpr ⟨htask, by simpa using hshown⟩))
  · intro hbelow
    refine ⟨hfree, rfl, ?_⟩
    intro read hperm
    refine Listing.getLast?_sortByKey ?_ (filter_perm hvisible hperm)
    intro task htask
    obtain ⟨hmem, hshown⟩ := List.mem_filter.mp htask
    exact (hkey task).mpr (hbelow task hmem (by simpa using hshown))

end Placing

/-- A task is placed as asked, except at the end where another one is not below its number. -/
theorem placed_as_asked_iff {toLowercase : Text → Text} (hlowercase : KeepsNumbers toLowercase)
    (lower : Char → Text) (tasks : Folder) (placed : Placed) (prepend : Bool) :
    PlacedAsAsked toLowercase lower tasks placed prepend ↔
      prepend = true ∨ BelowLastNumber toLowercase lower tasks placed := by
  cases prepend with
  | true => simp [placedAsAsked_true hlowercase]
  | false => simp [placedAsAsked_false hlowercase]

theorem toLower_eq_or (c : Char) : c.toLower = c ∨ c.toLower.toNat = c.toNat + 32 ∧ 65 ≤ c.toNat := by
  unfold Char.toLower
  split
  · rename_i h
    right
    have hlow : 65 ≤ c.toNat := h.1
    have hhigh : c.toNat ≤ 90 := h.2
    have hadd : (c.val + ('a'.val - 'A'.val)).toNat = c.toNat + 32 := by
      rw [UInt32.toNat_add]
      show (c.toNat + 32) % 2 ^ 32 = c.toNat + 32
      omega
    exact ⟨hadd, hlow⟩
  · exact .inl rfl

theorem toNat_of_isOrderChar {c : Char} (h : isOrderChar c = true) : c.toNat ≤ 57 := by
  rcases Bool.or_eq_true_iff.mp h with hdigit | hdash
  · exact (Char.isDigit_iff_toNat.mp hdigit).2
  · rw [beq_iff_eq.mp hdash]
    decide

/-- Digits and dashes are the lowercase of themselves only. -/
theorem toLower_eq_iff {c d : Char} (hd : isOrderChar d = true) : c.toLower = d ↔ c = d := by
  have hlow := toNat_of_isOrderChar hd
  rcases toLower_eq_or c with hsame | ⟨hupper, hlarge⟩
  · rw [hsame]
  · constructor
    · rintro rfl
      omega
    · rintro rfl
      omega

/-- Lowercase of ASCII. -/
theorem keepsNumbers_map_toLower : KeepsNumbers (List.map Char.toLower) where
  append := by
    intro number name hnumber
    have hsame : number.map Char.toLower = number := by
      refine (List.map_congr_left fun c hc => ?_).trans (List.map_id number)
      exact (toLower_eq_iff (List.all_eq_true.mp hnumber c hc)).mpr rfl
    rw [List.map_append, hsame]
  prefix_of := by
    intro number name hnumber h
    induction number generalizing name with
    | nil => exact List.nil_prefix
    | cons d number ih =>
      rw [List.all_cons, Bool.and_eq_true] at hnumber
      cases name with
      | nil => cases List.prefix_nil.mp h
      | cons c name =>
        rw [List.map_cons, List.cons_prefix_cons] at h
        rw [List.cons_prefix_cons]
        exact ⟨((toLower_eq_iff hnumber.1).mp h.1.symm).symm, ih hnumber.2 h.2⟩
  eq_nil_iff := List.map_eq_nil_iff

/-- Two tasks of a folder that had five. -/
def sparseTasks : Folder := [("0001-a.md".toList, .file []), ("0005-e.md".toList, .file [])]

/-- Two new tasks of the sparse folder, one in front and one at the end of a folder without the
number five. -/
theorem placed_as_asked_sparse :
    PlacedAsAsked (List.map Char.toLower) (fun c => [c.toLower]) sparseTasks
        (.content "c".toList) true ∧
      PlacedAsAsked (List.map Char.toLower) (fun c => [c.toLower]) (sparseTasks.take 1)
        (.content "c".toList) false :=
  ⟨(placed_as_asked_iff keepsNumbers_map_toLower _ _ _ _).mpr (.inl rfl),
    (placed_as_asked_iff keepsNumbers_map_toLower _ _ _ _).mpr (.inr (by
      intro task htask _ _
      left
      obtain rfl := List.mem_singleton.mp htask
      decide))⟩

/-- A third task gets the number three, and is listed before the fifth. -/
theorem third_task_before_fifth :
    ¬ PlacedAsAsked (List.map Char.toLower) (fun c => [c.toLower]) sparseTasks
      (.content "c".toList) false := by
  have hrun : ((Placed.content "c".toList).place (List.map Char.toLower) (fun c => [c.toLower])
      sparseTasks false).toOption.map (fun placed => (placed.1,
        (directoryTaskPaths (List.map Char.toLower) placed.2).getLast?.map Prod.fst)) =
      some ("0003-c.md".toList, some "0005-e.md".toList) := by
    decide
  intro h
  unfold PlacedAsAsked at h
  split at h
  · rename_i hplace
    rw [hplace] at hrun
    cases hrun
  · rename_i path after hplace
    have hlast := h.2.2 after (List.Perm.refl _)
    rw [hplace] at hrun
    have hpair := Option.some.inj hrun
    have hpath : path = "0003-c.md".toList := congrArg Prod.fst hpair
    have hname := congrArg (Option.map Prod.fst) hlast
    rw [if_neg Bool.false_ne_true] at hname
    have hfifth : some path = some "0005-e.md".toList := hname.symm.trans (congrArg Prod.snd hpair)
    rw [hpath] at hfifth
    exact absurd hfifth (by decide)

end Clt
