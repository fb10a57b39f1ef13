import Clt.Task.DirectoryOrder
import Clt.Task.TrailingSpace
import Clt.Text.RawLines

/-!
# The order of an expanded list

`expand_status_for_command` files the tasks of a list one after the other, and a folder is read
in the order of the names. A name begins with the number of its task in at least four digits, so
the texts of the numbers are in the order of the numbers up to 9999, and no further.
-/

namespace Clt

open Files Text

/-! ## Numbers as texts -/

section Numbers

variable {as bs : Text} {i j : Nat}

/-- Numbers that a dash follows are in the order of their digits. -/
theorem dash_lt_dash (hdigits : ∀ c ∈ bs, c.isDigit = true) (h : as < bs) (s t : Text) :
    as ++ ['-'] ++ s < bs ++ ['-'] ++ t := by
  induction as generalizing bs with
  | nil =>
    cases bs with
    | nil => exact absurd h (lt_irrefl _)
    | cons b bs =>
      have hb := Char.isDigit_iff_toNat.mp (hdigits b List.mem_cons_self)
      refine List.cons_lt_cons_iff.mpr (.inl (Char.lt_def.mpr (UInt32.lt_iff_toNat_lt.mpr ?_)))
      exact Nat.lt_of_lt_of_le (by decide) hb.1
  | cons a as ih =>
    cases bs with
    | nil => cases h
    | cons b bs =>
      refine List.cons_lt_cons_iff.mpr ?_
      rcases List.cons_lt_cons_iff.mp h with hab | ⟨hab, htail⟩
      · exact .inl hab
      · exact .inr ⟨hab, ih (fun c hc => hdigits c (List.mem_cons_of_mem _ hc)) htail⟩

theorem decimal_injective {width : Nat} (h : decimal width i = decimal width j) : i = j := by
  rw [← digitsNumber_decimal width i, h, digitsNumber_decimal]

/-- Four digits are in the order of what they stand for. -/
theorem decimal_lt_decimal (h : i < j) (hj : j < 10000) : decimal 4 i < decimal 4 j := by
  have hlen : (decimal 4 i).length = (decimal 4 j).length := by
    rw [length_decimal (by decide) (by omega), length_decimal (by decide) (by omega)]
  refine (Relational.lt_iff_digitsValue_lt (fun c => isDigit_of_mem_decimal)
    (fun c => isDigit_of_mem_decimal) hlen).mpr ?_
  have hvalue (n : Nat) : Relational.digitsValue (decimal 4 n) = n := digitsNumber_decimal 4 n
  rw [hvalue, hvalue]
  exact h

end Numbers

/-! ## Items in the order of their numbers -/

section ByNumber

universe u

variable {α β : Type u} {l : List α} {p q : α × Nat}

/-- The number of an item, as the names have it. -/
def numberText (item : α × Nat) : Text := decimal 4 (item.2 + 1)

/-- The items with their indices, as the texts of their numbers order them. -/
def numberedItems (l : List α) : List (α × Nat) := Listing.sortByKey numberText l.zipIdx

/-- Items that were numbered in turn, as the texts of their numbers order them. -/
def byNumber (l : List α) : List α := (numberedItems l).map Prod.fst

theorem numberedItems_perm (l : List α) : (numberedItems l).Perm l.zipIdx :=
  Listing.sortByKey_perm _ _

theorem byNumber_perm (l : List α) : (byNumber l).Perm l := by
  have h := (numberedItems_perm l).map Prod.fst
  rwa [List.zipIdx_map_fst] at h

theorem length_byNumber (l : List α) : (byNumber l).length = l.length := (byNumber_perm l).length_eq

theorem pairwise_numberedItems (l : List α) :
    (numberedItems l).Pairwise fun p q => numberText p < numberText q := by
  have hnodup : ((numberedItems l).map Prod.snd).Nodup := by
    refine ((numberedItems_perm l).map Prod.snd).nodup_iff.mpr ?_
    rw [List.zipIdx_map_snd]
    exact List.nodup_range'
  have hdistinct : (numberedItems l).Pairwise fun p q => p.2 ≠ q.2 := List.pairwise_map.mp hnodup
  refine ((Listing.pairwise_sortByKey numberText l.zipIdx).and hdistinct).imp ?_
  rintro p q ⟨hle, hne⟩
  refine lt_of_le_of_ne hle fun heq => hne ?_
  exact Nat.succ.inj (decimal_injective heq)

/-- What is listed in an order of its numbers is so whatever it is. -/
theorem byNumber_map (f : α → β) (l : List α) : byNumber (l.map f) = (byNumber l).map f := by
  have hperm : (l.map f).zipIdx.Perm ((numberedItems l).map (Prod.map f id)) := by
    rw [List.zipIdx_map]
    exact ((numberedItems_perm l).map _).symm
  have hsorted : numberedItems (l.map f) = (numberedItems l).map (Prod.map f id) :=
    Listing.sortByKey_eq hperm (List.pairwise_map.mpr (pairwise_numberedItems l))
  rw [byNumber, hsorted, byNumber, List.map_map, List.map_map]
  rfl

theorem pairwise_zipIdx (h : l.length < 10000) :
    l.zipIdx.Pairwise fun p q => numberText p < numberText q := by
  refine List.pairwise_iff_getElem.mpr fun i j hi hj hij => ?_
  rw [List.length_zipIdx] at hi hj
  rw [List.getElem_zipIdx, List.getElem_zipIdx]
  exact decimal_lt_decimal (by omega) (by omega)

/-- Up to 9999 the texts of the numbers keep the order. -/
theorem byNumber_of_length_lt (h : l.length < 10000) : byNumber l = l := by
  have hsorted : numberedItems l = l.zipIdx :=
    Listing.sortByKey_eq (List.Perm.refl _) (pairwise_zipIdx h)
  rw [byNumber, hsorted, List.zipIdx_map_fst]

/-- File items after those that are on a shelf, and number the shelf anew for each. -/
def shelveFrom (shelf : List α) : List α → List α
  | [] => shelf
  | item :: items => shelveFrom (byNumber (shelf ++ [item])) items

/-- The order in which items are read that were filed one after the other. -/
def filedOrder (items : List α) : List α := byNumber (shelveFrom [] items)

theorem shelveFrom_map (f : α → β) (shelf items : List α) :
    shelveFrom (shelf.map f) (items.map f) = (shelveFrom shelf items).map f := by
  induction items generalizing shelf with
  | nil => rfl
  | cons item items ih =>
    rw [List.map_cons, shelveFrom, shelveFrom, ← ih, ← byNumber_map, List.map_append]
    rfl

theorem filedOrder_map (f : α → β) (items : List α) :
    filedOrder (items.map f) = (filedOrder items).map f := by
  have h := shelveFrom_map f [] items
  rw [List.map_nil] at h
  rw [filedOrder, h, byNumber_map, filedOrder]

theorem shelveFrom_of_length_lt {shelf items : List α} (h : shelf.length + items.length < 10000) :
    shelveFrom shelf items = shelf ++ items := by
  induction items generalizing shelf with
  | nil => rw [shelveFrom, List.append_nil]
  | cons item items ih =>
    rw [List.length_cons] at h
    have hlength : (shelf ++ [item]).length = shelf.length + 1 := by simp
    rw [shelveFrom, byNumber_of_length_lt (by omega), ih (by omega), List.append_assoc]
    rfl

theorem filedOrder_of_length_lt (h : l.length < 10000) : filedOrder l = l := by
  rw [filedOrder, shelveFrom_of_length_lt (by simpa using h), List.nil_append,
    byNumber_of_length_lt h]

/-- The text of ten thousand comes right after that of a thousand. -/
theorem byNumber_concat {last : α} (h : l.length = 9999) :
    byNumber (l ++ [last]) = l.take 1000 ++ last :: l.drop 1000 := by
  have hten : decimal 4 10000 = decimal 4 1000 ++ ['0'] := by decide
  have hbelow {i : Nat} (hi : i ≤ 1000) : decimal 4 i < decimal 4 10000 := by
    rw [hten, lt_append_iff]
    rcases Nat.lt_or_eq_of_le hi with hlt | rfl
    · exact .inl (decimal_lt_decimal hlt (by decide))
    · exact .inr ⟨[], (List.append_nil _).symm, by decide⟩
  have habove {i : Nat} (hi : 1000 < i) (hlt : i < 10000) : decimal 4 10000 < decimal 4 i := by
    rw [hten, ← List.append_nil (decimal 4 i)]
    refine append_lt_append ?_ (decimal_lt_decimal hi hlt) _ _
    rw [length_decimal (by decide) (by decide), length_decimal (by decide) hlt]
  have hitems : (l ++ [last]).zipIdx = l.zipIdx ++ [(last, 9999)] := by
    rw [List.zipIdx_append, h]
    rfl
  have hpairwise := pairwise_zipIdx (l := l) (by omega)
  have hindex : ∀ p ∈ l.zipIdx, p.2 < 9999 := by
    rintro ⟨item, index⟩ hitem
    have := List.snd_lt_of_mem_zipIdx hitem
    rwa [h] at this
  have hsorted : numberedItems (l ++ [last]) =
      l.zipIdx.take 1000 ++ (last, 9999) :: l.zipIdx.drop 1000 := by
    refine Listing.sortByKey_eq ?_ (List.pairwise_append.mpr ⟨?_, List.pairwise_cons.mpr ⟨?_, ?_⟩, ?_⟩)
    · rw [hitems]
      refine (List.perm_append_singleton _ _).trans ?_
      conv_lhs => rw [← List.take_append_drop 1000 l.zipIdx]
      exact List.perm_middle.symm
    · exact hpairwise.sublist (List.take_sublist _ _)
    · intro p hp
      have hle : 1000 ≤ p.2 := by
        obtain ⟨k, hk, rfl⟩ := List.mem_iff_getElem.mp hp
        rw [List.getElem_drop, List.getElem_zipIdx]
        exact Nat.le_of_lt_succ (by omega)
      have hlt := hindex p (List.mem_of_mem_drop hp)
      exact habove (by omega) (by omega)
    · exact hpairwise.sublist (List.drop_sublist _ _)
    · intro p hp q hq
      have hlt : p.2 < 1000 := by
        obtain ⟨k, hk, rfl⟩ := List.mem_iff_getElem.mp hp
        rw [List.length_take] at hk
        rw [List.getElem_take, List.getElem_zipIdx]
        omega
      rcases List.mem_cons.mp hq with rfl | hq
      · exact hbelow (by omega)
      · rw [← List.take_append_drop 1000 l.zipIdx] at hpairwise
        exact (List.pairwise_append.mp hpairwise).2.2 p hp q hq
  rw [byNumber, hsorted, List.map_append, List.map_cons, List.map_take, List.map_drop,
    List.zipIdx_map_fst]

theorem shelveFrom_concat (shelf items : List α) (last : α) :
    shelveFrom shelf (items ++ [last]) = byNumber (shelveFrom shelf items ++ [last]) := by
  induction items generalizing shelf with
  | nil => rfl
  | cons item items ih => rw [List.cons_append, shelveFrom, ih, shelveFrom]

/-- The last of ten thousand items is filed after the first thousand, and read one place later. -/
theorem filedOrder_last {item last : α} {n m : Nat} (hn : n = 1000) (hm : m = 8998) :
    filedOrder (List.replicate (n + 1 + m) item ++ [last]) =
      List.replicate n item ++ item :: last :: List.replicate m item := by
  have hlength : (List.replicate (n + 1 + m) item).length = 9999 := by
    rw [List.length_replicate]
    omega
  have hsplit : List.replicate (n + 1 + m) item =
      List.replicate n item ++ (List.replicate m item ++ [item]) := by
    rw [← List.replicate_succ', ← List.replicate_add]
    congr 1
    omega
  have hshelf : shelveFrom [] (List.replicate (n + 1 + m) item ++ [last]) =
      (List.replicate n item ++ last :: List.replicate m item) ++ [item] := by
    rw [shelveFrom_concat, shelveFrom_of_length_lt (by rw [hlength, List.length_nil]; omega), List.nil_append,
      byNumber_concat hlength, hsplit, ← hn, List.take_left' List.length_replicate,
      List.drop_left' List.length_replicate, List.append_assoc]
    rfl
  have hlength' : (List.replicate n item ++ last :: List.replicate m item).length = 9999 := by
    rw [List.length_append, List.length_cons, List.length_replicate, List.length_replicate]
    omega
  rw [filedOrder, hshelf, byNumber_concat hlength', ← hn,
    List.take_left' List.length_replicate, List.drop_left' List.length_replicate]

end ByNumber

/-! ## A folder of numbered tasks -/

section Folder

variable {toLowercase : Text → Text} {lower : Char → Text} {tasks named : Folder} {idx : Nat}

theorem name_of_mem_zipIdx (h : NumberedFrom idx named) {item : (Text × Node) × Nat}
    (hitem : item ∈ named.zipIdx idx) : ∃ rest, item.1.1 = numberText item ++ ['-'] ++ rest := by
  induction named generalizing idx with
  | nil => cases hitem
  | cons task named ih =>
    rw [List.zipIdx_cons] at hitem
    rcases List.mem_cons.mp hitem with rfl | hitem
    · exact h.1
    · exact ih h.2 hitem

theorem NumberedFrom.append (h : NumberedFrom idx named) {task : Text × Node}
    (htask : ∃ rest, task.1 = decimal 4 (idx + named.length + 1) ++ ['-'] ++ rest) :
    NumberedFrom idx (named ++ [task]) := by
  induction named generalizing idx with
  | nil => exact ⟨htask, trivial⟩
  | cons first named ih =>
    refine ⟨h.1, ih h.2 ?_⟩
    obtain ⟨rest, hrest⟩ := htask
    refine ⟨rest, ?_⟩
    rw [hrest, List.length_cons]
    congr 3
    omega

theorem isHidden_of_numbered (h : NumberedFrom idx named) :
    ∀ task ∈ named, isHidden task.1 = false := by
  induction named generalizing idx with
  | nil => exact fun task htask => absurd htask List.not_mem_nil
  | cons first named ih =>
    intro task htask
    rcases List.mem_cons.mp htask with rfl | htask
    · obtain ⟨rest, hrest⟩ := h.1
      obtain ⟨c, digits, hdigits⟩ := List.exists_cons_of_ne_nil (decimal_ne_nil 3 (idx + 1))
      have hc : c ∈ decimal 4 (idx + 1) := hdigits ▸ List.mem_cons_self
      rw [hrest, hdigits]
      exact isHidden_of_isDigit (isDigit_of_mem_decimal hc)
    · exact ih h.2 task htask

/-- Names are listed in the order of the texts of their numbers. -/
theorem listingKey_lt_of_number (hlowercase : KeepsNumbers toLowercase)
    {first second : (Text × Node) × Nat} {rest rest' : Text}
    (hfirst : first.1.1 = numberText first ++ ['-'] ++ rest)
    (hsecond : second.1.1 = numberText second ++ ['-'] ++ rest')
    (h : numberText first < numberText second) :
    listingKey toLowercase first.1 < listingKey toLowercase second.1 := by
  have hrank : frontOrderRank second.1.1 = none := by
    rw [hsecond]
    exact frontOrderRank_numbered (Nat.succ_pos _) _
  refine (listingKey_lt_iff hlowercase hrank).mpr fun _ => ?_
  have hnumber (n : Nat) (name : Text) :=
    hlowercase.append name (all_isOrderChar_decimal 4 n)
  rw [hfirst, hsecond, numberText, numberText, hnumber, hnumber]
  exact dash_lt_dash (fun c => isDigit_of_mem_decimal) h _ _

theorem directoryTaskPaths_numbered (hlowercase : KeepsNumbers toLowercase)
    (h : NumberedFrom 0 named) (hperm : tasks.Perm named) :
    directoryTaskPaths toLowercase tasks = byNumber named := by
  have hshown : (tasks.filter fun task => !isHidden task.1) = tasks := by
    refine List.filter_eq_self.mpr fun task htask => ?_
    rw [isHidden_of_numbered h task (hperm.subset htask)]
    rfl
  rw [directoryTaskPaths, hshown]
  refine Listing.sortByKey_eq (hperm.trans (byNumber_perm named).symm)
    (List.pairwise_map.mpr ((pairwise_numberedItems named).imp_of_mem ?_))
  intro first second hfirst hsecond hlt
  obtain ⟨rest, hrest⟩ := name_of_mem_zipIdx h ((numberedItems_perm named).subset hfirst)
  obtain ⟨rest', hrest'⟩ := name_of_mem_zipIdx h ((numberedItems_perm named).subset hsecond)
  exact listingKey_lt_of_number hlowercase hrest hrest' hlt

variable (lower) in
/-- Insertion files a task after those that are there and numbers all of them anew. -/
theorem insert_numbered (hlowercase : KeepsNumbers toLowercase) (h : NumberedFrom 0 named)
    (hperm : tasks.Perm named) (hnodup : (childNames tasks).Nodup) (entry : Nat) (content : Text) :
    ∃ after named', insertContentIntoDirectory none entry toLowercase lower content tasks =
        .ok after ∧
      (childNames after).Nodup ∧ NumberedFrom 0 named' ∧ after.Perm named' ∧
      named'.map Prod.snd = byNumber (named.map Prod.snd ++ [taskFile content]) := by
  rcases insertContentIntoDirectory_cases none toLowercase lower entry hnodup content with
    ⟨hfails, -⟩ | ⟨⟨step, hfails, -⟩, -⟩ |
      ⟨after, hrun, hnodup', -, path, rest, named', hpath, hnumbered, hnodes, hafter⟩
  · rcases hfails with hfails | hfails <;> cases hfails
  · cases hfails
  have hlength : (directoryTaskPaths toLowercase tasks).length = named.length := by
    rw [directoryTaskPaths_numbered hlowercase h hperm, length_byNumber]
  have hplaced : NumberedFrom 0 (named ++ [(path, taskFile content)]) :=
    h.append ⟨rest, by rw [hpath, hlength, Nat.zero_add]⟩
  have hperm' : (tasks ++ [(path, taskFile content)]).Perm (named ++ [(path, taskFile content)]) :=
    hperm.append_right _
  have hhidden : ((tasks ++ [(path, taskFile content)]).filter fun task => isHidden task.1) = [] := by
    refine List.filter_eq_nil_iff.mpr fun task htask => ?_
    exact Bool.eq_false_iff.mp (isHidden_of_numbered hplaced task (hperm'.subset htask))
  rw [hhidden, List.nil_append] at hafter
  refine ⟨after, named', hrun, hnodup', hnumbered, hafter, ?_⟩
  rw [hnodes, directoryTaskPaths_numbered hlowercase hplaced hperm', ← byNumber_map,
    List.map_append]
  rfl

variable (lower) in
theorem insertEntries_numbered (hlowercase : KeepsNumbers toLowercase) (h : NumberedFrom 0 named)
    (hperm : tasks.Perm named) (hnodup : (childNames tasks).Nodup) (entry : Nat)
    (contents : List Text) :
    ∃ after named', insertEntries none toLowercase lower entry contents tasks = .ok after ∧
      NumberedFrom 0 named' ∧ after.Perm named' ∧
      named'.map Prod.snd = shelveFrom (named.map Prod.snd) (contents.map taskFile) := by
  induction contents generalizing entry tasks named with
  | nil => exact ⟨tasks, named, rfl, h, hperm, rfl⟩
  | cons content contents ih =>
    obtain ⟨next, named', hrun, hnodup', hnumbered, hnext, hnodes⟩ :=
      insert_numbered lower hlowercase h hperm hnodup entry content
    obtain ⟨after, named'', hloop, hnumbered', hafter, hnodes'⟩ :=
      ih hnumbered hnext hnodup' (entry + 1)
    refine ⟨after, named'', ?_, hnumbered', hafter, ?_⟩
    · rw [insertEntries, hrun]
      exact hloop
    · rw [hnodes', hnodes]
      rfl

/-- What a task is read as. -/
def nodeContent : Node → Text
  | .file content => content
  | .folder _ => []

/-- The folder that the tasks were filed in lists their contents. -/
theorem contents_of_numbered (hlowercase : KeepsNumbers toLowercase) (h : NumberedFrom 0 named)
    (hperm : tasks.Perm named) {contents : List Text}
    (hnodes : named.map Prod.snd = shelveFrom [] (contents.map taskFile)) :
    (readDirectoryEntries toLowercase tasks).map TaskEntry.content =
      (filedOrder contents).map fun content => trimEnd content ++ ['\n'] := by
  have hlisted : (directoryTaskPaths toLowercase tasks).map Prod.snd =
      (filedOrder contents).map taskFile := by
    rw [directoryTaskPaths_numbered hlowercase h hperm, ← byNumber_map, hnodes, ← filedOrder_map,
      filedOrder]
  have hfile : ∀ task ∈ directoryTaskPaths toLowercase tasks,
      (TaskEntry.content ∘ directoryEntry) task = nodeContent task.2 := by
    intro task htask
    have hmem : task.2 ∈ (filedOrder contents).map taskFile :=
      hlisted ▸ List.mem_map_of_mem htask
    obtain ⟨content, -, hcontent⟩ := List.mem_map.mp hmem
    rw [Function.comp_apply, directoryEntry, ← hcontent]
    rfl
  rw [readDirectoryEntries, List.map_map, List.map_congr_left hfile]
  change List.map (nodeContent ∘ Prod.snd) _ = _
  rw [← List.map_map, hlisted, List.map_map]
  rfl

end Folder

/-! ## The board -/

/-- `expand_status_for_command`, with the stores that it makes first. -/
def expandStatus (failing : Option FileStep) (toLowercase : Text → Text) (lower : Char → Text)
    (status : TaskStatus) (board : Folder) : Except Folder Folder :=
  match ensureBoardStore board with
  | none => .error board
  | some stored => expandStatusForCommand failing toLowercase lower status stored

/-- Nothing is to be made for any status. -/
def HasNodes (board : Folder) : Prop :=
  ∀ status : TaskStatus, (folderAt board status.dirName).isSome = true ∨
    (node? board status.filename).isSome = true

section Board

variable {board stored tasks : Folder} {status : TaskStatus} {name old new text : Text}

theorem ensureBoardStore_of_hasNodes (h : HasNodes board) : ensureBoardStore board = some board := by
  have hpass (directoryMode : Bool) (status : TaskStatus) :
      ensureStatusStore directoryMode board status = some board := by
    rw [ensureStatusStore, if_pos]
    exact (Bool.or_eq_true _ _).mpr (h status)
  have hall (directoryMode : Bool) (statuses : List TaskStatus) :
      statuses.foldlM (ensureStatusStore directoryMode) board = some board := by
    induction statuses with
    | nil => rfl
    | cons status statuses ih =>
      rw [List.foldlM_cons, hpass]
      exact ih
  exact hall _ _

theorem ensuredNodes_some {directoryMode : Bool} {nodes nodes' : Option Node × Option Node}
    (h : ensuredNodes directoryMode status nodes = some nodes') :
    (∃ tasks, nodes'.1 = some (.folder tasks)) ∨ nodes'.2.isSome = true := by
  rcases nodes with ⟨_ | content | tasks, _ | file⟩ <;> cases directoryMode <;> cases h <;>
    first | exact .inr rfl | exact .inl ⟨_, rfl⟩

theorem ensuredNodes_file {directoryMode : Bool} {dir : Option Node} {file : Node} :
    ensuredNodes directoryMode status (dir, some file) = some (dir, some file) := by
  rcases dir with _ | content | tasks <;> rfl

theorem hasNodes_of_ensureBoardStore (h : ensureBoardStore board = some stored) :
    HasNodes stored := by
  intro status
  rcases ensureBoardStore_cases board with ⟨-, hnone⟩ | ⟨board', hsome, hnodes⟩
  · cases hnone.symm.trans h
  cases hsome.symm.trans h
  rcases ensuredNodes_some (hnodes status) with ⟨tasks, hfolder⟩ | hfile
  · left
    have hdir : node? stored status.dirName = some (.folder tasks) := hfolder
    rw [folderAt, hdir]
    rfl
  · exact .inr hfile

/-- The list of a status is where it was. -/
theorem list_of_ensureBoardStore (h : ensureBoardStore board = some stored)
    (hdir : folderAt board status.dirName = none)
    (hfile : fileAt board status.filename = some text) :
    folderAt stored status.dirName = none ∧ fileAt stored status.filename = some text := by
  rcases ensureBoardStore_cases board with ⟨-, hnone⟩ | ⟨board', hsome, hnodes⟩
  · cases hnone.symm.trans h
  cases hsome.symm.trans h
  have hnode : node? board status.filename = some (.file text) := by
    unfold fileAt at hfile
    split at hfile
    · rename_i content hnode
      rw [hnode, Option.some.inj hfile]
    · cases hfile
  have hstatus := hnodes status
  rw [storeNodes, hnode, ensuredNodes_file] at hstatus
  have hsame := Option.some.inj hstatus
  have hdir' : node? board status.dirName = node? stored status.dirName := congrArg Prod.fst hsame
  have hfile' : some (Node.file text) = node? stored status.filename := congrArg Prod.snd hsame
  rw [folderAt, ← hdir', fileAt, ← hfile']
  exact ⟨hdir, rfl⟩

theorem node?_renameChild (hold : name ≠ old) (hnew : name ≠ new) (folder : Folder) :
    node? (renameChild folder old new) name = node? folder name := by
  by_cases hsame : old = new
  · rw [renameChild, if_pos hsame]
  rw [renameChild, if_neg hsame]
  induction folder with
  | nil => rfl
  | cons node folder ih =>
    by_cases hgone : node.1 = new
    · rw [List.filter_cons_of_neg (by simpa using hgone), ih, node?, node?,
        List.find?_cons_of_neg (by simp [hgone, hnew.symm])]
    · rw [List.filter_cons_of_pos (by simpa using hgone), List.map_cons]
      by_cases hnode : node.1 = old
      · rw [if_pos hnode, node?, List.find?_cons_of_neg (by simp [hnew.symm]), node?,
          List.find?_cons_of_neg (by simp [hnode, hold.symm])]
        exact ih
      · rw [if_neg hnode]
        by_cases hname : node.1 = name
        · rw [node?, List.find?_cons_of_pos (by simp [hname]), node?,
            List.find?_cons_of_pos (by simp [hname])]
        · rw [node?, List.find?_cons_of_neg (by simp [hname]), node?,
            List.find?_cons_of_neg (by simp [hname])]
          exact ih

theorem mem_childNames_of_node? (h : (node? board name).isSome = true) :
    name ∈ childNames board := by
  rw [node?, Option.isSome_map, List.find?_isSome] at h
  obtain ⟨node, hnode, hname⟩ := h
  exact List.mem_map.mpr ⟨node, hnode, beq_iff_eq.mp hname⟩

/-- A list that was put aside leaves its folder, and the other stores. -/
theorem hasNodes_expanded (h : HasNodes stored) {backup : Text}
    (hbackup : backup ∉ childNames (putFolder stored status.dirName tasks)) :
    HasNodes (renameChild (putFolder stored status.dirName tasks) status.filename backup) ∧
      folderAt (renameChild (putFolder stored status.dirName tasks) status.filename backup)
        status.dirName = some tasks := by
  have hkeeps {name : Text} (hname : name ≠ status.filename)
      (hthere : (node? (putFolder stored status.dirName tasks) name).isSome = true) :
      node? (renameChild (putFolder stored status.dirName tasks) status.filename backup) name =
        node? (putFolder stored status.dirName tasks) name := by
    refine node?_renameChild hname (fun heq => hbackup ?_) _
    exact heq ▸ mem_childNames_of_node? hthere
  have hdir : node? (putFolder stored status.dirName tasks) status.dirName =
      some (.folder tasks) := by rw [node?_putFolder, if_pos rfl]
  have hfolder : folderAt (renameChild (putFolder stored status.dirName tasks) status.filename
      backup) status.dirName = some tasks := by
    rw [folderAt, hkeeps (dirName_ne_filename status) (by rw [hdir]; rfl), hdir]
  refine ⟨fun other => ?_, hfolder⟩
  by_cases hother : other = status
  · subst hother
    rw [hfolder]
    exact .inl rfl
  have hne := names_ne hother
  have hsame {name : Text} (hname : status.dirName ≠ name) :
      node? (putFolder stored status.dirName tasks) name = node? stored name := by
    rw [node?_putFolder, if_neg hname]
  rcases h other with hthere | hthere
  · left
    have hnode : (node? stored other.dirName).isSome = true := by
      unfold folderAt at hthere
      cases hnode : node? stored other.dirName with
      | none => rw [hnode] at hthere; cases hthere
      | some node => rfl
    rw [folderAt, hkeeps hne.2.1 (by rw [hsame hne.1.symm, hnode]), hsame hne.1.symm]
    exact hthere
  · right
    rw [hkeeps hne.2.2.2 (by rw [hsame hne.2.2.1.symm, hthere]), hsame hne.2.2.1.symm]
    exact hthere

end Board

/-! ## The same listing -/

/-- Two contents that differ in the whitespace at their ends, and read alike. -/
structure ReadsAlike (before after : Text) : Prop where
  content : trimEnd before = trimEnd after
  session : recoverableCodexSessionIdFromTaskContent before =
    recoverableCodexSessionIdFromTaskContent after
  stopped : taskContentIsStopped before = taskContentIsStopped after
  manual : taskContentIsManual before = taskContentIsManual after
  blocked : taskContentIsBlocked before = taskContentIsBlocked after

/-- The status lists the same tasks in the same order before and after. -/
def SameListing (toLowercase : Text → Text) (status : TaskStatus) (before after : Folder) : Prop :=
  ∃ entries entries', readTaskEntries toLowercase before status = some entries ∧
    readTaskEntries toLowercase after status = some entries' ∧
    List.Forall₂ ReadsAlike (entries.map TaskEntry.content) (entries'.map TaskEntry.content)

section SameListing

variable {toLowercase : Text → Text} {lower : Char → Text} {board stored after : Folder}
  {status : TaskStatus} {text : Text}

theorem readsAlike_file {line content : Text} (hline : '\n' ∉ line)
    (h : trimEnd line = trimEnd content) : ReadsAlike line (trimEnd content ++ ['\n']) := by
  have hblank : IsBlank ['\n'] := by
    intro c hc
    rw [List.mem_singleton.mp hc]
    rfl
  have hsame : trimEnd line = trimEnd (trimEnd content ++ ['\n']) := by
    rw [trimEnd_append_of_whitespace _ hblank, trimEnd_trimEnd, h]
  have hterminated : IsTerminated (trimEnd content ++ ['\n']) :=
    ⟨trimEnd content, rfl, fun hmem => hline (mem_of_mem_trimEnd (h ▸ hmem))⟩
  exact ⟨hsame, recoverableSession_of_trimEnd_eq hsame, taskContentIsStopped_of_trimEnd_eq hsame,
    taskContentIsManual_of_trimEnd_eq hsame,
    taskContentIsBlocked_of_trimEnd_eq hline hsame hterminated.isLine⟩

theorem forall₂_readsAlike_iff {lines : List Text} (hlines : ∀ line ∈ lines, '\n' ∉ line)
    (contents : List Text) :
    List.Forall₂ ReadsAlike lines (contents.map fun content => trimEnd content ++ ['\n']) ↔
      contents.map trimEnd = lines.map trimEnd := by
  have hblank : ∀ c ∈ ['\n'], isWhitespace c = true := by
    intro c hc
    rw [List.mem_singleton.mp hc]
    rfl
  constructor
  · intro h
    have hends := List.forall₂_map_left_iff.mpr (List.forall₂_map_right_iff.mpr
      (h.imp fun before after (halike : ReadsAlike before after) =>
        show trimEnd before = trimEnd after from halike.content))
    rw [List.forall₂_eq_eq_eq, List.map_map] at hends
    rw [hends]
    refine List.map_congr_left fun content _ => ?_
    rw [Function.comp_apply, trimEnd_append_of_whitespace _ hblank, trimEnd_trimEnd]
  · intro h
    induction lines generalizing contents with
    | nil =>
      rw [List.map_nil, List.map_eq_nil_iff] at h
      rw [h]
      exact .nil
    | cons line lines ih =>
      cases contents with
      | nil => cases h
      | cons content contents =>
        obtain ⟨hline, hlines⟩ := List.forall_mem_cons.mp hlines
        obtain ⟨hhead, htail⟩ := List.cons.inj h
        exact .cons (readsAlike_file hline hhead.symm) (ih hlines contents htail)

theorem newline_notMem_content {entry : TaskEntry} (h : entry ∈ readMarkdownEntries text) :
    '\n' ∉ entry.content := by
  rw [readMarkdownEntries, List.mem_filterMap] at h
  obtain ⟨⟨line, lineIndex⟩, hline, hentry⟩ := h
  rw [Option.map_eq_some_iff] at hentry
  obtain ⟨taskText, htask, rfl⟩ := hentry
  have hmem : line ∈ lines text := by
    have := List.mem_map_of_mem (f := Prod.fst) hline
    rwa [List.zipIdx_map_fst] at this
  rw [stripPrefix] at htask
  split at htask
  · rw [← Option.some.inj htask]
    exact fun hnewline => not_mem_of_mem_lines hmem (List.mem_of_mem_drop hnewline)
  · cases htask

variable (toLowercase lower) in
/-- The expansion of a list is done when nothing stands in the way of the folder, and lists the
filed tasks. -/
theorem expandStatusForCommand_run (hlowercase : KeepsNumbers toLowercase) (hnodes : HasNodes stored)
    (hdir : node? stored status.dirName = none) (hfile : fileAt stored status.filename = some text) :
    ∃ after entries, expandStatusForCommand none toLowercase lower status stored = .ok after ∧
      readTaskEntries toLowercase after status = some entries ∧
      entries.map TaskEntry.content =
        (filedOrder ((readMarkdownEntries text).map TaskEntry.content)).map
          fun content => trimEnd content ++ ['\n'] := by
  have hnofolder : folderAt stored status.dirName = none := by rw [folderAt, hdir]
  let contents := (readMarkdownEntries text).map TaskEntry.content
  let created := putFolder stored status.dirName []
  have hempty : folderAt created status.dirName = some [] := by
    rw [folderAt, node?_putFolder, if_pos rfl]
  obtain ⟨tasks, named, hloop, hnumbered, hperm, htasks⟩ := insertEntries_numbered lower hlowercase
    (show NumberedFrom 0 [] from trivial) (List.Perm.refl []) List.nodup_nil 0 contents
  let filled := putFolder created status.dirName tasks
  let backup := uniqueChildPath filled (status.filename ++ ".bak".toList)
  have hrun : expandStatusForCommand none toLowercase lower status stored =
      .ok (renameChild filled status.filename backup) := by
    have hcreate : createStatusDir none status stored = .ok created := by
      rw [createStatusDir, hdir]
      rfl
    have hinsert : inFolder status.dirName (insertEntries none toLowercase lower 0 contents)
        created = .ok filled := by
      rw [inFolder_eq hempty, hloop]
    have hlist : insertList none toLowercase lower status text created =
        inFolder status.dirName (insertEntries none toLowercase lower 0 contents) created >>=
          fun board => takeStep none .backup board (renameChild · status.filename
            (uniqueChildPath board (status.filename ++ ".bak".toList))) := rfl
    rw [expandStatusForCommand, hnofolder, Option.isSome_none, if_neg Bool.false_ne_true, hfile]
    show createStatusDir none status stored >>= _ = _
    rw [hcreate]
    show insertList none toLowercase lower status text created = _
    rw [hlist, hinsert]
    rfl
  have hcreated : HasNodes created := by
    intro other
    by_cases hother : other = status
    · subst hother
      rw [hempty]
      exact .inl rfl
    · have hne := names_ne hother
      rw [folderAt, node?_putFolder, node?_putFolder, if_neg hne.1.symm, if_neg hne.2.2.1.symm]
      exact hnodes other
  obtain ⟨hafter, hfolder⟩ := hasNodes_expanded hcreated
    (uniqueChildPath_notMem (putFolder created status.dirName tasks) (status.filename ++ ".bak".toList))
  refine ⟨_, readDirectoryEntries toLowercase tasks, hrun, ?_,
    contents_of_numbered hlowercase hnumbered hperm htasks⟩
  rw [readTaskEntries_of_some (ensureBoardStore_of_hasNodes hafter), storeNodes]
  unfold folderAt at hfolder
  split at hfolder
  · rename_i children hnode
    rw [hnode, Option.some.inj hfolder]
    rfl
  · cases hfolder

/-- A list that is expanded lists the same tasks in the same order and with the same readings,
when there are fewer than ten thousand, or when those that change places read the same. -/
theorem expand_sameListing_iff (hlowercase : KeepsNumbers toLowercase)
    (hdir : folderAt board status.dirName = none) (hfile : fileAt board status.filename = some text)
    (hrun : expandStatus none toLowercase lower status board = .ok after) :
    SameListing toLowercase status board after ↔
      (readMarkdownEntries text).length < 10000 ∨
        filedOrder ((readMarkdownEntries text).map fun entry => trimEnd entry.content) =
          (readMarkdownEntries text).map fun entry => trimEnd entry.content := by
  unfold expandStatus at hrun
  cases hstored : ensureBoardStore board with
  | none =>
    rw [hstored] at hrun
    cases hrun
  | some stored =>
    rw [hstored] at hrun
    dsimp only at hrun
    obtain ⟨hdir', hfile'⟩ := list_of_ensureBoardStore hstored hdir hfile
    have hsteps : (createStatusDir none status stored >>=
        insertList none toLowercase lower status text) = .ok after := by
      rw [← hrun, expandStatusForCommand, hdir', hfile']
      rfl
    have hfree : node? stored status.dirName = none := node?_dirName_eq_none hsteps
    obtain ⟨after', entries, hrun', hread, hcontents⟩ := expandStatusForCommand_run toLowercase
      lower hlowercase (hasNodes_of_ensureBoardStore hstored) hfree hfile'
    cases hrun'.symm.trans hrun
    have hbefore : readTaskEntries toLowercase board status = some (readMarkdownEntries text) := by
      have hnode : node? stored status.filename = some (.file text) := by
        unfold fileAt at hfile'
        split at hfile'
        · rename_i content hnode
          rw [hnode, Option.some.inj hfile']
        · cases hfile'
      rw [readTaskEntries_of_some hstored, storeNodes, hfree, hnode]
      rfl
    have hlines : ∀ line ∈ (readMarkdownEntries text).map TaskEntry.content, '\n' ∉ line := by
      intro line hline
      obtain ⟨entry, hentry, rfl⟩ := List.mem_map.mp hline
      exact newline_notMem_content hentry
    have hlisting : SameListing toLowercase status board after ↔
        filedOrder ((readMarkdownEntries text).map fun entry => trimEnd entry.content) =
          (readMarkdownEntries text).map fun entry => trimEnd entry.content := by
      have hiff := forall₂_readsAlike_iff hlines
        (filedOrder ((readMarkdownEntries text).map TaskEntry.content))
      have htexts : (readMarkdownEntries text).map (fun entry => trimEnd entry.content) =
          ((readMarkdownEntries text).map TaskEntry.content).map trimEnd :=
        (List.map_map).symm
      rw [htexts, filedOrder_map, ← hiff, ← hcontents]
      constructor
      · rintro ⟨entries', entries'', hentries', hentries'', halike⟩
        cases hbefore.symm.trans hentries'
        cases hread.symm.trans hentries''
        exact halike
      · exact fun halike => ⟨_, _, hbefore, hread, halike⟩
    rw [hlisting, iff_or_self]
    intro hshort
    exact filedOrder_of_length_lt (by rwa [List.length_map])

end SameListing

/-- A list of tasks in Markdown. -/
def listText (contents : List Text) : Text :=
  (contents.map ("- ".toList ++ ·)).flatMap (· ++ ['\n'])

theorem content_listText {contents : List Text}
    (h : ∀ content ∈ contents, '\n' ∉ content ∧ content.getLast? ≠ some '\r') :
    (readMarkdownEntries (listText contents)).map TaskEntry.content = contents := by
  have hlines : ∀ line ∈ contents.map ("- ".toList ++ ·), '\n' ∉ line := by
    intro line hline
    obtain ⟨content, hcontent, rfl⟩ := List.mem_map.mp hline
    intro hmem
    rcases List.mem_append.mp hmem with hmem | hmem
    · exact absurd hmem (by decide)
    · exact (h content hcontent).1 hmem
  rw [content_readMarkdownEntries, listText, lines_flatMap_newline hlines, List.map_map,
    List.filterMap_map]
  conv_rhs => rw [← List.filterMap_some (l := contents)]
  refine List.filterMap_congr fun content hcontent => ?_
  have hend : ("- ".toList ++ content).getLast? ≠ some '\r' := by
    cases content with
    | nil => decide
    | cons c rest =>
      rw [List.getLast?_append_of_ne_nil _ (List.cons_ne_nil c rest)]
      exact (h _ hcontent).2
  change stripPrefix "- ".toList (stripCr ("- ".toList ++ content)) = some content
  rw [stripCr_eq_self.mpr hend, stripPrefix,
    if_pos (List.isPrefixOf_iff_prefix.mpr (List.prefix_append _ _)), List.drop_left]

/-- A board with a list of tasks to do. -/
def taskListBoard (contents : List Text) : Folder :=
  [("todo.md".toList, .file (listText contents)), ("doing.md".toList, .file []),
    ("done.md".toList, .file []), ("backlog.md".toList, .file [])]

theorem hasNodes_taskListBoard (contents : List Text) : HasNodes (taskListBoard contents) := by
  intro status
  cases status <;> exact .inr rfl

theorem expandStatus_taskListBoard (contents : List Text) :
    ∃ after, expandStatus none (List.map Char.toLower) (fun c => [c.toLower]) .todo
      (taskListBoard contents) = .ok after := by
  obtain ⟨after, -, hrun, -⟩ := expandStatusForCommand_run (List.map Char.toLower)
    (fun c => [c.toLower]) keepsNumbers_map_toLower (hasNodes_taskListBoard contents)
    (show node? (taskListBoard contents) TaskStatus.todo.dirName = none from rfl) rfl
  refine ⟨after, ?_⟩
  rw [expandStatus, ensureBoardStore_of_hasNodes (hasNodes_taskListBoard contents)]
  exact hrun

theorem expand_sameListing_two :
    ∃ after, expandStatus none (List.map Char.toLower) (fun c => [c.toLower]) .todo
        (taskListBoard ["a".toList, "b".toList]) = .ok after ∧
      SameListing (List.map Char.toLower) .todo (taskListBoard ["a".toList, "b".toList]) after := by
  obtain ⟨after, hrun⟩ := expandStatus_taskListBoard ["a".toList, "b".toList]
  exact ⟨after, hrun, (expand_sameListing_iff keepsNumbers_map_toLower rfl rfl hrun).mpr
    (.inl (by decide))⟩

/-- The last of ten thousand tasks comes after the first thousand. -/
theorem last_task_moves_up :
    ¬ ∀ (toLowercase : Text → Text) (lower : Char → Text) (status : TaskStatus)
      (board after : Folder) (text : Text), KeepsNumbers toLowercase →
      folderAt board status.dirName = none → fileAt board status.filename = some text →
      expandStatus none toLowercase lower status board = .ok after →
      SameListing toLowercase status board after := by
  intro h
  obtain ⟨n, hn⟩ : ∃ n, n = 1000 := ⟨_, rfl⟩
  obtain ⟨m, hm⟩ : ∃ m, m = 8998 := ⟨_, rfl⟩
  let contents : List Text := List.replicate (n + 1 + m) ['a'] ++ [['b']]
  have hletters : ∀ content ∈ contents, content = ['a'] ∨ content = ['b'] := by
    intro content hcontent
    rcases List.mem_append.mp hcontent with hmem | hmem
    · exact .inl (List.eq_of_mem_replicate hmem)
    · exact .inr (List.mem_singleton.mp hmem)
  have hlisted : (readMarkdownEntries (listText contents)).map TaskEntry.content = contents := by
    refine content_listText fun content hcontent => ?_
    rcases hletters content hcontent with rfl | rfl <;> decide
  have htexts : (readMarkdownEntries (listText contents)).map (fun entry => trimEnd entry.content) =
      contents := by
    have hmap : (readMarkdownEntries (listText contents)).map (fun entry => trimEnd entry.content) =
        ((readMarkdownEntries (listText contents)).map TaskEntry.content).map trimEnd :=
      (List.map_map).symm
    rw [hmap, hlisted]
    conv_rhs => rw [← List.map_id contents]
    refine List.map_congr_left fun content hcontent => ?_
    rcases hletters content hcontent with rfl | rfl <;> decide
  obtain ⟨after, hrun⟩ := expandStatus_taskListBoard contents
  have hsame := h _ _ _ _ _ _ keepsNumbers_map_toLower rfl rfl hrun
  rcases (expand_sameListing_iff keepsNumbers_map_toLower rfl rfl hrun).mp hsame with
    hshort | hfixed
  · have hlength := congrArg List.length hlisted
    rw [List.length_map, List.length_append, List.length_replicate, List.length_singleton]
      at hlength
    omega
  · rw [htexts, filedOrder_last hn hm] at hfixed
    have hsplit : List.replicate (n + 1 + m) ['a'] =
        List.replicate n ['a'] ++ ['a'] :: List.replicate m ['a'] := by
      rw [← List.replicate_succ, ← List.replicate_add]
      congr 1
      omega
    have htail : [['b']] ++ List.replicate m ['a'] = List.replicate m ['a'] ++ [['b']] := by
      rw [show contents = List.replicate (n + 1 + m) ['a'] ++ [['b']] from rfl, hsplit,
        List.append_assoc] at hfixed
      exact (List.cons.inj (List.append_cancel_left hfixed)).2
    obtain ⟨k, hk⟩ : ∃ k, m = k + 1 := ⟨8997, hm⟩
    rw [hk, List.replicate_succ] at htail
    exact absurd (List.cons.inj htail).1 (by decide)

end Clt
