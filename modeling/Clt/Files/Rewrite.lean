import Clt.Files.Tree

/-!
# Rewriting one file

A file is found by the names on the way to it. Writing one file keeps every other.
-/

namespace Files

variable {F G : Folder} {name other : Text} {node : Node} {path at_ : List Text} {content : Text}

/-- The node under a name is replaced in its place, or a new one is added. -/
def setNode (F : Folder) (name : Text) (node : Node) : Folder :=
  if (node? F name).isSome then F.map fun c => if c.1 = name then (name, node) else c
  else F ++ [(name, node)]

/-- The file that the names lead to. -/
def fileAtPath (F : Folder) : List Text → Option Text
  | [] => none
  | [name] => fileAt F name
  | name :: rest => (folderAt F name).bind fun G => fileAtPath G rest

/-- The folder that the names lead to. -/
def folderAtPath (F : Folder) : List Text → Option Folder
  | [] => some F
  | name :: rest => (folderAt F name).bind fun G => folderAtPath G rest

/-- The file that the names lead to gets this content, where its folder is there. -/
def setFile (F : Folder) (content : Text) : List Text → Folder
  | [] => F
  | [name] => setNode F name (.file content)
  | name :: rest =>
    match folderAt F name with
    | some G => setNode F name (.folder (setFile G content rest))
    | none => F

@[simp] theorem setFile_singleton (F : Folder) (content name : Text) :
    setFile F content [name] = setNode F name (.file content) := rfl

theorem setFile_cons_cons {next : Text} {rest : List Text} (h : folderAt F name = some G) :
    setFile F content (name :: next :: rest) =
      setNode F name (.folder (setFile G content (next :: rest))) := by
  rw [setFile, h]
  exact List.cons_ne_nil _ _

theorem find?_map_setNode (F : Folder) (name : Text) (node : Node) (other : Text) :
    ((F.map fun c => if c.1 = name then (name, node) else c).find? fun c => c.1 == other) =
      (F.find? fun c => c.1 == other).map fun c => if c.1 = name then (name, node) else c := by
  rw [List.find?_map]
  congr 2
  funext c
  by_cases hc : c.1 = name
  · simp [hc]
  · simp [hc]

theorem node?_setNode (F : Folder) (name : Text) (node : Node) (other : Text) :
    node? (setNode F name node) other = if name = other then some node else node? F other := by
  unfold setNode
  split
  · rename_i hsome
    rw [node?, find?_map_setNode]
    by_cases h : name = other
    · subst h
      rw [if_pos rfl]
      rw [node?, Option.isSome_map] at hsome
      obtain ⟨c, hc⟩ := Option.isSome_iff_exists.mp hsome
      have hname : c.1 = name := by simpa using List.find?_some hc
      rw [hc, Option.map_some, if_pos hname]
      rfl
    · rw [if_neg h, node?]
      cases hfind : F.find? fun c => c.1 == other with
      | none => rfl
      | some c =>
        have hname : c.1 = other := by simpa using List.find?_some hfind
        rw [Option.map_some, if_neg (by rw [hname]; exact Ne.symm h)]
  · rename_i hnone
    rw [node?, List.find?_append]
    rw [node?, Option.isSome_map, Bool.not_eq_true, Option.isSome_eq_false_iff,
      Option.isNone_iff_eq_none] at hnone
    by_cases h : name = other
    · subst h
      rw [hnone, if_pos rfl]
      simp
    · rw [if_neg h]
      have hlast : ([(name, node)] : Folder).find? (fun c => c.1 == other) = none := by
        simp [h]
      rw [hlast, Option.or_none, node?]

theorem mem_setNode (F : Folder) (name : Text) (node : Node) : (name, node) ∈ setNode F name node := by
  unfold setNode
  split
  · rename_i hsome
    rw [node?, Option.isSome_map] at hsome
    obtain ⟨c, hc⟩ := Option.isSome_iff_exists.mp hsome
    have hname : c.1 = name := by simpa using List.find?_some hc
    exact List.mem_map.mpr ⟨c, List.mem_of_find?_eq_some hc, if_pos hname⟩
  · exact List.mem_append_right _ (List.mem_singleton_self _)

theorem fileAt_setNode_file (F : Folder) (name content other : Text) :
    fileAt (setNode F name (.file content)) other =
      if name = other then some content else fileAt F other := by
  unfold fileAt
  rw [node?_setNode]
  by_cases h : name = other
  · rw [if_pos h, if_pos h]
  · rw [if_neg h, if_neg h]

theorem folderAt_setNode_folder (F : Folder) (name : Text) (G : Folder) (other : Text) :
    folderAt (setNode F name (.folder G)) other =
      if name = other then some G else folderAt F other := by
  unfold folderAt
  rw [node?_setNode]
  by_cases h : name = other
  · rw [if_pos h, if_pos h]
  · rw [if_neg h, if_neg h]

theorem mem_of_folderAt (h : folderAt F name = some G) : (name, .folder G) ∈ F := by
  unfold folderAt at h
  split at h
  · rename_i children hnode
    cases h
    obtain ⟨c, hc, hnode⟩ := Option.map_eq_some_iff.mp hnode
    have hname : c.1 = name := by simpa using List.find?_some hc
    rw [← hname, ← hnode]
    exact List.mem_of_find?_eq_some hc
  · cases h

/-- Each name on the way to a folder is one level. -/
theorem depth_folderAtPath (h : folderAtPath F path = some G) :
    depth G + path.length ≤ depth F := by
  induction path generalizing F with
  | nil =>
    cases h
    exact Nat.le_refl _
  | cons name rest ih =>
    obtain ⟨H, hH, hrest⟩ := Option.bind_eq_some_iff.mp h
    have htop : depth H + 1 ≤ depth F := depth_le_of_mem (mem_of_folderAt hH)
    have hinner : depth G + rest.length ≤ depth H := ih hrest
    rw [List.length_cons]
    omega

/-- Where a file is there is no folder. -/
theorem folderAtPath_of_fileAtPath (h : fileAtPath F at_ = some content) :
    folderAtPath F at_ = none := by
  induction at_ generalizing F with
  | nil => cases h
  | cons name rest ih =>
    cases rest with
    | nil =>
      rw [fileAtPath, fileAt] at h
      rw [folderAtPath, folderAt]
      split at h
      · rename_i hnode
        rw [hnode]
        rfl
      · cases h
    | cons next rest =>
      rw [fileAtPath] at h
      · obtain ⟨G, hG, h⟩ := Option.bind_eq_some_iff.mp h
        rw [folderAtPath, hG]
        exact ih h
      · exact List.cons_ne_nil _ _

/-- Every other file stays as it is. -/
theorem fileAtPath_setFile_of_ne (h : folderAtPath F at_ = none) (hne : path ≠ at_) :
    fileAtPath (setFile F content at_) path = fileAtPath F path := by
  induction at_ generalizing F path with
  | nil => rfl
  | cons name rest ih =>
    cases path with
    | nil => rfl
    | cons first more =>
      cases rest with
      | nil =>
        have hfolder : folderAt F name = none := by
          rw [folderAtPath] at h
          cases hG : folderAt F name with
          | none => rfl
          | some G => rw [hG] at h; cases h
        have hafter (other : Text) :
            folderAt (setNode F name (.file content)) other = folderAt F other := by
          by_cases hsame : name = other
          · subst hsame
            rw [hfolder]
            unfold folderAt
            rw [node?_setNode, if_pos rfl]
          · unfold folderAt
            rw [node?_setNode, if_neg hsame]
        cases more with
        | nil =>
          rw [setFile, fileAtPath, fileAt_setNode_file, fileAtPath, if_neg]
          rintro rfl
          exact hne rfl
        | cons next more =>
          rw [setFile, fileAtPath, hafter, fileAtPath]
          all_goals exact List.cons_ne_nil _ _
      | cons next rest =>
        cases hG : folderAt F name with
        | none =>
          rw [setFile, hG]
          exact List.cons_ne_nil _ _
        | some G =>
          have hrest : folderAtPath G (next :: rest) = none := by
            rw [folderAtPath, hG] at h
            exact h
          rw [setFile, hG]
          · cases more with
            | nil =>
              rw [fileAtPath, fileAtPath]
              unfold fileAt
              rw [node?_setNode]
              by_cases hsame : name = first
              · subst hsame
                rw [if_pos rfl]
                unfold folderAt at hG
                cases hnode : node? F name with
                | none => rfl
                | some node =>
                  cases node with
                  | file stored => rw [hnode] at hG; cases hG
                  | folder children => rfl
              · rw [if_neg hsame]
            | cons next' more =>
              rw [fileAtPath, fileAtPath, folderAt_setNode_folder]
              · by_cases hsame : name = first
                · subst hsame
                  rw [if_pos rfl, hG, Option.bind_some, Option.bind_some]
                  exact ih hrest fun heq => hne (heq ▸ rfl)
                · rw [if_neg hsame]
              all_goals exact List.cons_ne_nil _ _
          · exact List.cons_ne_nil _ _

end Files
