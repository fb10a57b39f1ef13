import Mathlib.Data.List.Nodup
import Clt.Text.Basic

/-!
# File trees and their listings

A file tree is a folder of named files and folders. A listing names each file by its path
from the root, with a slash between the names. What a folder of the tree holds is what the
listing holds below its path (`filter_below`), so a reader of the listing sees the tree.
-/

namespace Files

/-- A file with its content, or a folder of named nodes. -/
inductive Node where
  | file (content : Text)
  | folder (children : List (Text × Node))

abbrev Folder : Type := List (Text × Node)

def isFolder : Node → Bool
  | .file _ => false
  | .folder _ => true

/-- A name is not empty and has no slash in it. -/
def IsName (name : Text) : Prop := name ≠ [] ∧ '/' ∉ name

instance (name : Text) : Decidable (IsName name) := inferInstanceAs (Decidable (_ ∧ _))

/-- A node that a listing of files can tell: the names in each folder are different names, and
no folder is empty. -/
inductive Node.Wf : Node → Prop
  | file (content : Text) : Wf (.file content)
  | folder {children : Folder} (hne : children ≠ []) (hnodup : (children.map Prod.fst).Nodup)
      (hnames : ∀ c ∈ children, IsName c.1) (hwf : ∀ c ∈ children, c.2.Wf) :
      Wf (.folder children)

/-- The same for a folder that may be empty. -/
structure WfFolder (F : Folder) : Prop where
  nodup : (F.map Prod.fst).Nodup
  names : ∀ c ∈ F, IsName c.1
  nodes : ∀ c ∈ F, c.2.Wf

/-! ## Looking up -/

def node? (F : Folder) (name : Text) : Option Node := (F.find? fun c => c.1 == name).map Prod.snd

def fileAt (F : Folder) (name : Text) : Option Text :=
  match node? F name with
  | some (.file content) => some content
  | _ => none

def folderAt (F : Folder) (name : Text) : Option Folder :=
  match node? F name with
  | some (.folder children) => some children
  | _ => none

/-! ## Depth -/

mutual

/-- How many folders lie inside each other. -/
def Node.depth : Node → Nat
  | .file _ => 0
  | .folder children => depth children + 1

def depth : List (Text × Node) → Nat
  | [] => 0
  | (_, node) :: rest => max node.depth (depth rest)

end

/-! ## Listings -/

mutual

/-- The files of a node, by their paths. -/
def Node.files (path : Text) : Node → List (Text × Text)
  | .file content => [(path, content)]
  | .folder children => filesUnder (path ++ ['/']) children

/-- The files of a folder, each path after a prefix. -/
def filesUnder (pre : Text) : List (Text × Node) → List (Text × Text)
  | [] => []
  | (name, node) :: rest => node.files (pre ++ name) ++ filesUnder pre rest

end

/-- Is the path below a folder? -/
def below (dir path : Text) : Bool := (dir ++ ['/']).isPrefixOf path

section Lookup

variable {F : Folder} {name : Text}

theorem node?_eq_some {node : Node} (h : WfFolder F) :
    node? F name = some node ↔ (name, node) ∈ F := by
  rw [node?, Option.map_eq_some_iff]
  constructor
  · rintro ⟨c, hc, rfl⟩
    have hname : c.1 = name := by simpa using List.find?_some hc
    rw [← hname]
    exact List.mem_of_find?_eq_some hc
  · intro hmem
    have hfound : (F.find? fun c => c.1 == name).isSome = true :=
      List.find?_isSome.mpr ⟨(name, node), hmem, beq_self_eq_true name⟩
    obtain ⟨c, hc⟩ := Option.isSome_iff_exists.mp hfound
    have hname : c.1 = name := by simpa using List.find?_some hc
    have hcmem : c ∈ F := List.mem_of_find?_eq_some hc
    have hsame : c = (name, node) := List.inj_on_of_nodup_map h.nodup hcmem hmem hname
    exact ⟨c, hc, by rw [hsame]⟩

theorem fileAt_eq_some {content : Text} (h : WfFolder F) :
    fileAt F name = some content ↔ (name, .file content) ∈ F := by
  rw [← node?_eq_some h, fileAt]
  cases node? F name with
  | none => simp
  | some node => cases node <;> simp

theorem folderAt_eq_some {G : Folder} (h : WfFolder F) :
    folderAt F name = some G ↔ (name, .folder G) ∈ F := by
  rw [← node?_eq_some h, folderAt]
  cases node? F name with
  | none => simp
  | some node => cases node <;> simp

/-- A folder of a well formed folder is well formed, and not empty. -/
theorem WfFolder.folder {G : Folder} (h : WfFolder F) (hmem : (name, .folder G) ∈ F) :
    G ≠ [] ∧ WfFolder G := by
  have hnode : (Node.folder G).Wf := h.nodes _ hmem
  cases hnode with
  | folder hne hnodup hnames hwf => exact ⟨hne, hnodup, hnames, hwf⟩

theorem WfFolder.tail {c : Text × Node} (h : WfFolder (c :: F)) : WfFolder F :=
  ⟨(List.nodup_cons.mp h.nodup).2, fun d hd => h.names d (List.mem_cons_of_mem _ hd),
    fun d hd => h.nodes d (List.mem_cons_of_mem _ hd)⟩

theorem depth_le_of_mem {node : Node} (h : (name, node) ∈ F) : node.depth ≤ depth F := by
  induction F with
  | nil => cases h
  | cons c F ih =>
    rw [depth.eq_def]
    rcases List.mem_cons.mp h with hc | hmem
    · subst hc
      exact Nat.le_max_left _ _
    · have := ih hmem
      show node.depth ≤ max c.2.depth (depth F)
      omega

theorem exists_mem_depth (h : F ≠ []) : ∃ c ∈ F, c.2.depth = depth F := by
  induction F with
  | nil => exact absurd rfl h
  | cons c F ih =>
    by_cases hF : F = []
    · subst hF
      exact ⟨c, List.mem_cons_self, (Nat.max_zero _).symm⟩
    · obtain ⟨d, hd, hdepth⟩ := ih hF
      have hmax : depth (c :: F) = max c.2.depth (depth F) := rfl
      by_cases hle : depth F ≤ c.2.depth
      · exact ⟨c, List.mem_cons_self, by omega⟩
      · exact ⟨d, List.mem_cons_of_mem _ hd, by omega⟩

end Lookup

/-! ## What lies below a path -/

/-- The part of a path before the first slash. -/
theorem eq_of_name_append {a b s t : Text} (ha : '/' ∉ a) (hb : '/' ∉ b)
    (h : a ++ '/' :: s = b ++ '/' :: t) : a = b ∧ s = t := by
  induction a generalizing b with
  | nil =>
    cases b with
    | nil => exact ⟨rfl, by simpa using h⟩
    | cons c b =>
      have hc : '/' = c := (List.cons.inj h).1
      exact absurd (hc ▸ List.mem_cons_self) hb
  | cons c a ih =>
    cases b with
    | nil =>
      have hc : c = '/' := (List.cons.inj h).1
      exact absurd (hc ▸ List.mem_cons_self) ha
    | cons d b =>
      obtain ⟨hcd, hrest⟩ := List.cons.inj h
      have htails := ih (fun hm => ha (List.mem_cons_of_mem _ hm))
        (fun hm => hb (List.mem_cons_of_mem _ hm)) hrest
      exact ⟨by rw [hcd, htails.1], htails.2⟩

theorem below_iff {dir path : Text} : below dir path = true ↔ ∃ rest, path = dir ++ '/' :: rest := by
  rw [below, List.isPrefixOf_iff_prefix]
  constructor
  · rintro ⟨rest, rfl⟩
    exact ⟨rest, by simp⟩
  · rintro ⟨rest, rfl⟩
    exact ⟨rest, by simp⟩

/-- What lies below a folder of a folder lies below it. -/
theorem below_of_below {dir name path : Text} (h : below (dir ++ '/' :: name) path = true) :
    below dir path = true := by
  obtain ⟨rest, rfl⟩ := below_iff.mp h
  exact below_iff.mpr ⟨name ++ '/' :: rest, by simp⟩

theorem mem_filesUnder {pre : Text} {F : Folder} {f : Text × Text} :
    f ∈ filesUnder pre F ↔ ∃ c ∈ F, f ∈ c.2.files (pre ++ c.1) := by
  induction F with
  | nil => simp [filesUnder]
  | cons c F ih => simp [filesUnder, ih]

/-- A file of a node is the node, or lies below it. -/
theorem path_of_mem_files {f : Text × Text} : ∀ {path : Text} {node : Node},
    f ∈ node.files path →
      node = .file f.2 ∧ f.1 = path ∨ isFolder node = true ∧ below path f.1 = true
  | path, .file content, h => by
    have hf : f = (path, content) := by simpa [Node.files] using h
    rw [hf]
    exact .inl ⟨rfl, rfl⟩
  | path, .folder children, h => by
    refine .inr ⟨rfl, ?_⟩
    obtain ⟨c, hmem, hc⟩ := mem_filesUnder.mp (show f ∈ filesUnder _ children from h)
    rcases path_of_mem_files hc with ⟨-, hpath⟩ | ⟨-, hbelow⟩
    · exact below_iff.mpr ⟨c.1, by simp [hpath]⟩
    · obtain ⟨rest, hrest⟩ := below_iff.mp hbelow
      exact below_iff.mpr ⟨c.1 ++ '/' :: rest, by simp [hrest]⟩
termination_by _ node => node.depth
decreasing_by exact Nat.lt_succ_of_le (depth_le_of_mem hmem)

variable {F : Folder} {pre name : Text}

/-- What a listing has below a path is what the folder at that path has. -/
theorem filter_below (hF : WfFolder F) (hname : '/' ∉ name) :
    (filesUnder pre F).filter (fun f => below (pre ++ name) f.1) =
      match folderAt F name with
      | some G => filesUnder (pre ++ name ++ ['/']) G
      | none => [] := by
  induction F with
  | nil => rfl
  | cons c F ih =>
    have hslash : '/' ∉ c.1 := (hF.names c List.mem_cons_self).2
    -- A file of a child lies below the path only if the child has that name.
    have hchild : ∀ f ∈ c.2.files (pre ++ c.1), below (pre ++ name) f.1 = true →
        c.1 = name ∧ isFolder c.2 = true := by
      intro f hf hbelow
      obtain ⟨rest, hrest⟩ := below_iff.mp hbelow
      rcases path_of_mem_files hf with ⟨-, hpath⟩ | ⟨hfolder, hpath⟩
      · rw [hpath, List.append_assoc, List.append_cancel_left_eq] at hrest
        exact absurd (by rw [hrest]; simp) hslash
      · obtain ⟨rest', hrest'⟩ := below_iff.mp hpath
        rw [hrest', List.append_assoc, List.append_assoc, List.append_cancel_left_eq] at hrest
        exact ⟨(eq_of_name_append hslash hname hrest).1, hfolder⟩
    rw [filesUnder, List.filter_append, ih hF.tail]
    by_cases hc : c.1 = name
    · have hrest : folderAt F name = none := by
        rw [Option.eq_none_iff_forall_ne_some]
        intro G hG
        have hmem := (folderAt_eq_some hF.tail).mp hG
        have hnot := (List.nodup_cons.mp hF.nodup).1
        exact hnot (by rw [hc]; exact List.mem_map_of_mem hmem)
      rw [hrest, List.append_nil]
      obtain ⟨n, node⟩ := c
      subst hc
      cases node with
      | file content =>
        have hnone : folderAt ((n, .file content) :: F) n = none := by simp [folderAt, node?]
        rw [hnone, List.filter_eq_nil_iff]
        intro f hf hbelow
        exact absurd (hchild f hf hbelow).2 (by simp [isFolder])
      | folder children =>
        have hsome : folderAt ((n, .folder children) :: F) n = some children := by
          simp [folderAt, node?]
        rw [hsome, List.filter_eq_self.mpr]
        · rfl
        · intro f hf
          rcases path_of_mem_files hf with ⟨hfile, -⟩ | ⟨-, hbelow⟩
          · cases hfile
          · exact hbelow
    · have hnil : (c.2.files (pre ++ c.1)).filter (fun f => below (pre ++ name) f.1) = [] := by
        rw [List.filter_eq_nil_iff]
        intro f hf hbelow
        exact hc (hchild f hf hbelow).1
      have hlookup : folderAt (c :: F) name = folderAt F name := by
        simp [folderAt, node?, hc]
      rw [hnil, List.nil_append, hlookup]

/-- The listing has the content of a file of the folder under its path. -/
theorem find?_path (hF : WfFolder F) (hname : '/' ∉ name) :
    (filesUnder pre F).find? (fun f => f.1 == pre ++ name) =
      (fileAt F name).map fun content => (pre ++ name, content) := by
  induction F with
  | nil => rfl
  | cons c F ih =>
    obtain ⟨n, node⟩ := c
    have hslash : '/' ∉ n := (hF.names _ List.mem_cons_self).2
    rw [filesUnder, List.find?_append, ih hF.tail]
    cases node with
    | file content =>
      by_cases hn : n = name
      · subst hn
        simp [Node.files, fileAt, node?]
      · simp [Node.files, fileAt, node?, hn]
    | folder children =>
      have hnone : ((Node.folder children).files (pre ++ n)).find? (fun f => f.1 == pre ++ name) =
          none := by
        rw [List.find?_eq_none]
        intro f hf heq
        rcases path_of_mem_files hf with ⟨hfile, -⟩ | ⟨-, hbelow⟩
        · cases hfile
        · obtain ⟨rest, hrest⟩ := below_iff.mp hbelow
          rw [beq_iff_eq, hrest, List.append_assoc, List.append_cancel_left_eq] at heq
          exact hname (by rw [← heq]; simp)
      rw [hnone, Option.none_or]
      by_cases hn : n = name
      · subst hn
        have hrest : fileAt F n = none := by
          rw [Option.eq_none_iff_forall_ne_some]
          intro content hcontent
          have hmem := (fileAt_eq_some hF.tail).mp hcontent
          exact (List.nodup_cons.mp hF.nodup).1 (List.mem_map.mpr ⟨_, hmem, rfl⟩)
        rw [hrest]
        simp [fileAt, node?]
      · simp [fileAt, node?, hn]

/-- A node of a listing has a file, and one that is as deep as the node. -/
theorem exists_deep_file : ∀ (path : Text) {node : Node}, node.Wf →
    ∃ f ∈ node.files path, path.length + node.depth ≤ f.1.length
  | path, .file content, _ => ⟨(path, content), by simp [Node.files], by simp [Node.depth]⟩
  | path, .folder children, h => by
    obtain ⟨hne, hfolder⟩ : children ≠ [] ∧ WfFolder children := by
      cases h with
      | folder hne hnodup hnames hwf => exact ⟨hne, hnodup, hnames, hwf⟩
    obtain ⟨c, hmem, hdepth⟩ := exists_mem_depth hne
    obtain ⟨f, hf, hlen⟩ := exists_deep_file (path ++ ['/'] ++ c.1) (hfolder.nodes c hmem)
    refine ⟨f, mem_filesUnder.mpr ⟨c, hmem, hf⟩, ?_⟩
    show path.length + (depth children + 1) ≤ f.1.length
    simp only [List.length_append, List.length_singleton] at hlen
    omega
termination_by _ node => node.depth
decreasing_by exact Nat.lt_succ_of_le (depth_le_of_mem hmem)

/-! ## Folders of a listing -/

/-- The listing has a folder at a path. -/
structure Lists (listing : List (Text × Text)) (dir : Text) (F : Folder) : Prop where
  wf : WfFolder F
  files : listing.filter (fun f => below dir f.1) = filesUnder (dir ++ ['/']) F

theorem lists_root {dir : Text} (hF : WfFolder F) : Lists (filesUnder (dir ++ ['/']) F) dir F := by
  refine ⟨hF, List.filter_eq_self.mpr fun f hf => ?_⟩
  obtain ⟨c, -, hc⟩ := mem_filesUnder.mp hf
  rcases path_of_mem_files hc with ⟨-, hpath⟩ | ⟨-, hbelow⟩
  · exact below_iff.mpr ⟨c.1, by simp [hpath]⟩
  · obtain ⟨rest, hrest⟩ := below_iff.mp hbelow
    exact below_iff.mpr ⟨c.1 ++ '/' :: rest, by simp [hrest]⟩

namespace Lists

variable {listing : List (Text × Text)} {dir : Text}

theorem filter_child (h : Lists listing dir F) (hname : '/' ∉ name) :
    listing.filter (fun f => below (dir ++ '/' :: name) f.1) =
      match folderAt F name with
      | some G => filesUnder (dir ++ '/' :: name ++ ['/']) G
      | none => [] := by
  have hsub : listing.filter (fun f => below (dir ++ '/' :: name) f.1) =
      (listing.filter fun f => below dir f.1).filter
        fun f => below (dir ++ '/' :: name) f.1 := by
    rw [List.filter_filter]
    refine List.filter_congr fun f _ => ?_
    cases hb : below (dir ++ '/' :: name) f.1 with
    | false => rfl
    | true => simp [below_of_below hb]
  have hpath : dir ++ '/' :: name = dir ++ ['/'] ++ name := by simp
  rw [hsub, h.files, hpath]
  exact filter_below h.wf hname

theorem folder {G : Folder} (h : Lists listing dir F) (hG : folderAt F name = some G) :
    Lists listing (dir ++ '/' :: name) G := by
  have hmem := (folderAt_eq_some h.wf).mp hG
  refine ⟨(h.wf.folder hmem).2, ?_⟩
  rw [h.filter_child (h.wf.names _ hmem).2, hG]

/-- A folder is there if a path goes through it. -/
theorem any_below (h : Lists listing dir F) (hname : '/' ∉ name) :
    (listing.any fun f => below (dir ++ '/' :: name) f.1) = (folderAt F name).isSome := by
  have hfilter := h.filter_child hname
  cases hG : folderAt F name with
  | none =>
    rw [hG] at hfilter
    rw [Option.isSome_none, List.any_eq_false]
    exact List.filter_eq_nil_iff.mp hfilter
  | some G =>
    rw [hG] at hfilter
    obtain ⟨hne, hwf⟩ := h.wf.folder ((folderAt_eq_some h.wf).mp hG)
    obtain ⟨c, G', rfl⟩ := List.exists_cons_of_ne_nil hne
    obtain ⟨f, hf, -⟩ := exists_deep_file (dir ++ '/' :: name ++ ['/'] ++ c.1)
      (hwf.nodes c List.mem_cons_self)
    have hmem : f ∈ listing.filter fun f => below (dir ++ '/' :: name) f.1 := by
      rw [hfilter]
      exact mem_filesUnder.mpr ⟨c, List.mem_cons_self, hf⟩
    rw [Option.isSome_some, List.any_eq_true]
    exact ⟨f, List.mem_filter.mp hmem⟩

theorem find?_file (h : Lists listing dir F) (hname : '/' ∉ name) :
    listing.find? (fun f => f.1 == dir ++ '/' :: name) =
      (fileAt F name).map fun content => (dir ++ '/' :: name, content) := by
  have hpath : dir ++ '/' :: name = dir ++ ['/'] ++ name := by simp
  have hsub : listing.find? (fun f => f.1 == dir ++ '/' :: name) =
      (listing.filter fun f => below dir f.1).find? fun f => f.1 == dir ++ '/' :: name := by
    rw [List.find?_filter]
    congr 1
    funext f
    by_cases hf : f.1 = dir ++ '/' :: name
    · have hbelow : below dir (dir ++ '/' :: name) = true := below_iff.mpr ⟨name, rfl⟩
      simp [hf, hbelow]
    · simp [hf]
  rw [hsub, h.files, hpath]
  exact find?_path h.wf hname

end Lists

end Files
