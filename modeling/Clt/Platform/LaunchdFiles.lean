import Clt.Markup.PropertyList
import Clt.Task.Attachment

/-!
# The property lists of launchd

The agent and its workers are described to launchd by property lists. Every string in them is
escaped, and is read back unless it has a character that no XML document can have.
-/

namespace Clt

open Markup

/-! ## Names -/

/-- `AGENT_LAUNCHD_LABEL`. -/
def agentLaunchdLabel : Text := "com.alpinevibrations.clt.agent".toList

/-- `AGENT_STATE_DIR_ENV`. -/
def agentStateDirEnv : Text := "CLT_AGENT_STATE_DIR".toList

/-- `AGENT_DAEMON_MODE_ENV`. -/
def agentDaemonModeEnv : Text := "CLT_AGENT_DAEMON_MODE".toList

/-- `AGENT_CODEX_PATH_ENV`. -/
def agentCodexPathEnv : Text := "CLT_AGENT_CODEX_PATH".toList

/-- `AgentServiceEnvironment`. -/
structure AgentServiceEnvironment where
  codexPathOverride : Option Text
  path : Text

/-- `AgentWorkerLaunchSpec`, as the files of launchd are written from it. -/
structure Platform.AgentWorkerLaunchSpec where
  stateDir : Text
  executable : Text
  workerToken : Text
  projectId : Int
  taskSelection : AgentTaskSelection
  resumeSessionId : Option Text
  serviceLabel : Text
  commandArguments : Option (List Text)

/-- `AgentTaskSelection::label`. -/
def AgentTaskSelection.label : AgentTaskSelection → Text
  | nextTodo => "next_todo".toList
  | resumeDoing => "resume_doing".toList
  | recoverBlocked => "recover_blocked".toList
  | resumeSession => "resume_session".toList
  | supervisorReview => "supervisor_review".toList
  | supervisorRetry => "supervisor_retry".toList

/-- `Path::join`. -/
def pathJoin (base name : Text) : Text :=
  if name.head? = some '/' ∨ base = [] then name
  else if base.getLast? = some '/' then base ++ name
  else base ++ '/' :: name

/-- `state_dir_service_log_path`. -/
def stateDirServiceLogPath (stateDir extension : Text) : Text :=
  pathJoin stateDir ("agent-service.".toList ++ extension)

/-- `agent_worker_dir`. -/
def agentWorkerDir (stateDir workerToken : Text) : Text :=
  pathJoin (pathJoin stateDir "workers".toList) workerToken

/-- `agent_worker_command_arguments`. -/
def agentWorkerCommandArguments (spec : Platform.AgentWorkerLaunchSpec) : List Text :=
  spec.commandArguments.getD
    (["--local".toList, "agent".toList, "worker".toList, "--state-dir".toList, spec.stateDir,
      "--project-id".toList, (toString spec.projectId).toList, "--worker-token".toList,
      spec.workerToken, "--task-selection".toList, spec.taskSelection.label] ++
      (spec.resumeSessionId.elim [] fun sessionId => ["--resume-session-id".toList, sessionId]))

/-! ## The documents -/

/-- `str::replace` of a character. -/
def replaceChar (c : Char) (replacement t : Text) : Text :=
  t.flatMap fun d => if d = c then replacement else [d]

/-- `xml_escape`. -/
def xmlEscape (raw : Text) : Text :=
  replaceChar '\'' "&apos;".toList <| replaceChar '"' "&quot;".toList <|
    replaceChar '>' "&gt;".toList <| replaceChar '<' "&lt;".toList <|
      replaceChar '&' "&amp;".toList raw

/-- A line with one element. -/
def elementLine (indent : Nat) (name content : Text) : Text :=
  List.replicate indent ' ' ++ '<' :: name ++ '>' :: content ++ "</".toList ++ name ++ ">\n".toList

/-- A line with one tag. -/
def tagLine (indent : Nat) (tag : Text) : Text := List.replicate indent ' ' ++ '<' :: tag ++ ">\n".toList

def keyLine (indent : Nat) (key : Text) : Text := elementLine indent "key".toList key

def stringLine (indent : Nat) (content : Text) : Text := elementLine indent "string".toList content

/-- What both property lists begin with. -/
def plistHeader : Text :=
  ("<?xml version=\"1.0\" encoding=\"UTF-8\"?>\n" ++
    "<!DOCTYPE plist PUBLIC \"-//Apple//DTD PLIST 1.0//EN\" " ++
    "\"https://www.apple.com/DTDs/PropertyList-1.0.dtd\">\n" ++
    "<plist version=\"1.0\">\n").toList

/-- `codex_path_environment`. The string is not indented in the agent's file, where the source breaks
its line. -/
def codexPathLines (indent : Nat) (env : AgentServiceEnvironment) : Text :=
  env.codexPathOverride.elim [] fun codexPath =>
    keyLine 4 agentCodexPathEnv ++ stringLine indent (xmlEscape codexPath)

/-- `launchd_plist_content`. -/
def launchdPlistContent (executable stateDir : Text) (env : AgentServiceEnvironment) : Text :=
  plistHeader ++ tagLine 0 "dict".toList ++
  keyLine 2 "Label".toList ++ stringLine 2 agentLaunchdLabel ++
  keyLine 2 "ProgramArguments".toList ++ tagLine 2 "array".toList ++
  stringLine 4 (xmlEscape executable) ++ stringLine 4 "agent".toList ++
  stringLine 4 "daemon".toList ++ tagLine 2 "/array".toList ++
  keyLine 2 "EnvironmentVariables".toList ++ tagLine 2 "dict".toList ++
  keyLine 4 agentStateDirEnv ++ stringLine 4 (xmlEscape stateDir) ++
  keyLine 4 agentDaemonModeEnv ++ stringLine 4 "service".toList ++
  codexPathLines 0 env ++ keyLine 4 "PATH".toList ++ stringLine 4 (xmlEscape env.path) ++
  tagLine 2 "/dict".toList ++ keyLine 2 "RunAtLoad".toList ++ tagLine 2 "true/".toList ++
  keyLine 2 "KeepAlive".toList ++ tagLine 2 "true/".toList ++
  keyLine 2 "StandardOutPath".toList ++
  stringLine 2 (xmlEscape (stateDirServiceLogPath stateDir "out".toList)) ++
  keyLine 2 "StandardErrorPath".toList ++
  stringLine 2 (xmlEscape (stateDirServiceLogPath stateDir "err".toList)) ++
  tagLine 0 "/dict".toList ++ tagLine 0 "/plist".toList

/-- `launchd_worker_plist_content`. -/
def launchdWorkerPlistContent (spec : Platform.AgentWorkerLaunchSpec) (env : AgentServiceEnvironment) :
    Text :=
  plistHeader ++ tagLine 0 "dict".toList ++
  keyLine 2 "Label".toList ++ stringLine 2 (xmlEscape spec.serviceLabel) ++
  keyLine 2 "ProgramArguments".toList ++ tagLine 2 "array".toList ++
  stringLine 4 (xmlEscape spec.executable) ++
  ((agentWorkerCommandArguments spec).flatMap fun argument => stringLine 4 (xmlEscape argument)) ++
  tagLine 2 "/array".toList ++
  keyLine 2 "EnvironmentVariables".toList ++ tagLine 2 "dict".toList ++
  keyLine 4 agentStateDirEnv ++ stringLine 4 (xmlEscape spec.stateDir) ++
  codexPathLines 4 env ++ keyLine 4 "PATH".toList ++ stringLine 4 (xmlEscape env.path) ++
  tagLine 2 "/dict".toList ++ keyLine 2 "RunAtLoad".toList ++ tagLine 2 "true/".toList ++
  keyLine 2 "KeepAlive".toList ++ tagLine 2 "false/".toList ++
  keyLine 2 "ProcessType".toList ++ stringLine 2 "Standard".toList ++
  keyLine 2 "StandardOutPath".toList ++
  stringLine 2 (xmlEscape (pathJoin (agentWorkerDir spec.stateDir spec.workerToken)
    "worker.out".toList)) ++
  keyLine 2 "StandardErrorPath".toList ++
  stringLine 2 (xmlEscape (pathJoin (agentWorkerDir spec.stateDir spec.workerToken)
    "worker.err".toList)) ++
  tagLine 0 "/dict".toList ++ tagLine 0 "/plist".toList

/-! ## Escaping -/

theorem xmlEscape_eq (raw : Text) : xmlEscape raw = raw.flatMap escapeChar := by
  unfold xmlEscape replaceChar
  rw [List.flatMap_assoc, List.flatMap_assoc, List.flatMap_assoc, List.flatMap_assoc]
  refine List.flatMap_congr fun c _ => ?_
  unfold escapeChar
  by_cases hamp : c = '&'
  · subst hamp; rfl
  · by_cases hlt : c = '<'
    · subst hlt; rfl
    · by_cases hgt : c = '>'
      · subst hgt; rfl
      · by_cases hquot : c = '"'
        · subst hquot; rfl
        · by_cases hapos : c = '\''
          · subst hapos; rfl
          · simp only [if_neg hamp, if_neg hlt, if_neg hgt, if_neg hquot, if_neg hapos,
              List.flatMap_singleton]

/-! ## Reading the lines -/

namespace Reader

open Markup.Reader

variable {frames opened : List Frame} {entries : List (Text × Value)}

/-- A line is read from the line feed of the one before. -/
def atLine (frames : List Frame) : Markup.Reader := ⟨.text ['\n'], frames⟩

theorem indent_plain (indent : Nat) : (List.replicate indent ' ').all isPlainChar = true := by
  induction indent with
  | zero => rfl
  | succ indent ih =>
    rw [List.replicate_succ, List.all_cons, ih]
    rfl

theorem indent_blank (indent : Nat) : isBlank ('\n' :: List.replicate indent ' ') = true := by
  induction indent with
  | zero => rfl
  | succ indent ih =>
    rw [isBlank, List.all_cons] at ih ⊢
    rw [List.replicate_succ, List.all_cons]
    exact ih

/-- A line with one tag does what the tag does. -/
theorem read_tagLine {indent : Nat} {tag : Text} (htag : tag.all isTagChar = true) :
    (atLine frames).read (tagLine indent tag) =
      (readTag ('\n' :: List.replicate indent ' ') tag frames).map atLine := by
  have hline : tagLine indent tag =
      List.replicate indent ' ' ++ ('<' :: tag ++ ['>']) ++ ['\n'] := by
    simp only [tagLine, List.append_assoc]
    rfl
  rw [hline, read_append, read_append, atLine, read_plain _ (indent_plain indent), Option.bind_some,
    read_tag htag]
  show (Option.map _ (readTag ('\n' :: List.replicate indent ' ') tag frames)).bind _ = _
  cases readTag ('\n' :: List.replicate indent ' ') tag frames with
  | none => rfl
  | some frames => rfl

/-- A line with one element reads its content between its tags. -/
theorem read_elementLine {indent : Nat} {name content : Text}
    (hname : name.all isTagChar = true)
    (hopen : readTag ('\n' :: List.replicate indent ' ') name frames = some opened) :
    (atLine frames).read (elementLine indent name content) =
      (read ⟨.text [], opened⟩ content).bind fun reader =>
        reader.read ("</".toList ++ name ++ ">\n".toList) := by
  have hline : elementLine indent name content = List.replicate indent ' ' ++
      (('<' :: name ++ ['>']) ++ (content ++ ("</".toList ++ name ++ ">\n".toList))) := by
    simp only [elementLine, List.append_assoc, List.cons_append, List.nil_append]
  rw [hline, read_append, atLine, read_plain _ (indent_plain indent), Option.bind_some, read_append,
    read_tag hname]
  show (Option.map _ (readTag ('\n' :: List.replicate indent ' ') name frames)).bind _ = _
  rw [hopen, Option.map_some, Option.bind_some, read_append]

theorem read_endTag {text name : Text} (hname : name.all isTagChar = true) :
    read ⟨.text text, opened⟩ ("</".toList ++ name ++ ">\n".toList) =
      (closeElement (tagName name) text opened).map atLine := by
  have hsplit : "</".toList ++ name ++ ">\n".toList = ('<' :: ('/' :: name) ++ ['>']) ++ ['\n'] := by
    simp
  have htag : ('/' :: name).all isTagChar = true := by
    rw [List.all_cons, hname]
    rfl
  rw [hsplit, read_append, read_tag htag]
  show (Option.map _ (closeElement (tagName name) text opened)).bind _ = _
  cases closeElement (tagName name) text opened with
  | none => rfl
  | some frames => rfl

/-- A start tag after the line feed and the indent. -/
theorem readTag_open {indent : Nat} {name : Text}
    (hname : name = "key".toList ∨ name = "string".toList ∨ name = "dict".toList ∨
      name = "array".toList) :
    readTag ('\n' :: List.replicate indent ' ') name frames = openElement name frames := by
  rcases hname with rfl | rfl | rfl | rfl <;>
  · show (if !isBlank ('\n' :: List.replicate indent ' ') then none else _) = _
    rw [indent_blank]
    rfl

theorem read_keyLine {indent : Nat} {key : Text} {rest : List Frame}
    (hkey : key.all isPlainChar = true) :
    (atLine (.dict entries none :: rest)).read (keyLine indent key) =
      some (atLine (.dict entries (some key) :: rest)) := by
  have hopen : readTag ('\n' :: List.replicate indent ' ') "key".toList
      (.dict entries none :: rest) = some (.key :: .dict entries none :: rest) := by
    rw [readTag_open (.inl rfl)]
    rfl
  rw [keyLine, read_elementLine (by decide) hopen, read_plain [] hkey, Option.bind_some,
    List.nil_append, read_endTag (by decide)]
  rfl

/-- A string is put where it stands, unless it has a character that no document can have. -/
theorem read_stringLine {indent : Nat} {t : Text}
    (hframes : openElement "string".toList frames = some (.string :: frames)) :
    (atLine frames).read (stringLine indent (xmlEscape t)) =
      if t.all isXmlChar then (putValue (.string t) frames).map atLine else none := by
  have hopen : readTag ('\n' :: List.replicate indent ' ') "string".toList frames =
      some (.string :: frames) := by
    rw [readTag_open (.inr (.inl rfl)), hframes]
  rw [stringLine, read_elementLine (by decide) hopen, xmlEscape_eq, read_escaped]
  split
  · rw [Option.bind_some, List.nil_append, read_endTag (by decide)]
    rfl
  · rfl

set_option maxRecDepth 8000 in
theorem read_header : read ⟨.text [], []⟩ plistHeader = some (atLine [.plist none]) := by
  unfold plistHeader
  rw [String.toList_append, String.toList_append, String.toList_append]
  -- A literal is its list of characters, which is read without decoding its bytes.
  repeat rw [String.toList_ofList]
  rfl

/-- One line after the other. -/
theorem read_then {reader next last : Markup.Reader} {line rest : Text}
    (hline : reader.read line = some next) (hrest : next.read rest = some last) :
    reader.read (line ++ rest) = some last := by
  rw [read_append, hline, Option.bind_some, hrest]

theorem read_openLine {indent : Nat} {name : Text} {after : List Frame}
    (hname : name = "dict".toList ∨ name = "array".toList)
    (hopen : openElement name frames = some after) :
    (atLine frames).read (tagLine indent name) = some (atLine after) := by
  have htag : name.all isTagChar = true := by
    rcases hname with rfl | rfl <;> decide
  rw [read_tagLine htag, readTag_open (.inr (.inr hname)), hopen, Option.map_some]

theorem read_closeArray {indent : Nat} {items : List Value} {rest after : List Frame}
    (hput : putValue (.array items) rest = some after) :
    (atLine (.array items :: rest)).read (tagLine indent "/array".toList) = some (atLine after) := by
  rw [read_tagLine (by decide)]
  show Option.map _ (if tagName "array".toList = "array".toList ∧
    isBlank ('\n' :: List.replicate indent ' ') = true then _ else none) = _
  rw [if_pos ⟨by decide, indent_blank indent⟩, hput, Option.map_some]

theorem read_closeDict {indent : Nat} {rest after : List Frame}
    (hput : putValue (.dict entries) rest = some after) :
    (atLine (.dict entries none :: rest)).read (tagLine indent "/dict".toList) =
      some (atLine after) := by
  rw [read_tagLine (by decide)]
  show Option.map _ (if tagName "dict".toList = "dict".toList ∧
    isBlank ('\n' :: List.replicate indent ' ') = true then _ else none) = _
  rw [if_pos ⟨by decide, indent_blank indent⟩, hput, Option.map_some]

theorem read_closePlist {value : Value} :
    (atLine [.plist (some value)]).read (tagLine 0 "/plist".toList) =
      some (atLine [.document value]) := by
  rw [read_tagLine (by decide)]
  rfl

theorem read_trueLine {indent : Nat} {after : List Frame}
    (hput : putValue (.bool true) frames = some after) :
    (atLine frames).read (tagLine indent "true/".toList) = some (atLine after) := by
  rw [read_tagLine (by decide)]
  show Option.map _ (if !isBlank ('\n' :: List.replicate indent ' ') then none
    else putValue (.bool true) frames) = _
  rw [indent_blank, hput]
  rfl

theorem read_falseLine {indent : Nat} {after : List Frame}
    (hput : putValue (.bool false) frames = some after) :
    (atLine frames).read (tagLine indent "false/".toList) = some (atLine after) := by
  rw [read_tagLine (by decide)]
  show Option.map _ (if !isBlank ('\n' :: List.replicate indent ' ') then none
    else putValue (.bool false) frames) = _
  rw [indent_blank, hput]
  rfl

/-- A string that needs no escape. -/
theorem read_plainStringLine {indent : Nat} {t : Text} {after : List Frame}
    (ht : t.all isPlainChar = true)
    (hframes : openElement "string".toList frames = some (.string :: frames))
    (hput : putValue (.string t) frames = some after) :
    (atLine frames).read (stringLine indent t) = some (atLine after) := by
  have hopen : readTag ('\n' :: List.replicate indent ' ') "string".toList frames =
      some (.string :: frames) := by
    rw [readTag_open (.inr (.inl rfl)), hframes]
  rw [stringLine, read_elementLine (by decide) hopen, read_plain [] ht, Option.bind_some,
    List.nil_append, read_endTag (by decide)]
  show Option.map _ (putValue (.string t) frames) = _
  rw [hput, Option.map_some]

/-- A string line where a value is wanted. -/
theorem read_stringLine_ok {indent : Nat} {t : Text} {after : List Frame}
    (ht : t.all isXmlChar = true)
    (hframes : openElement "string".toList frames = some (.string :: frames))
    (hput : putValue (.string t) frames = some after) :
    (atLine frames).read (stringLine indent (xmlEscape t)) = some (atLine after) := by
  rw [read_stringLine hframes, if_pos ht, hput, Option.map_some]

theorem read_stringArray {indent : Nat} {items : List Value} {rest : List Frame}
    {strings : List Text} (hstrings : ∀ t ∈ strings, t.all isXmlChar = true) :
    (atLine (.array items :: rest)).read
        (strings.flatMap fun t => stringLine indent (xmlEscape t)) =
      some (atLine (.array (items ++ strings.map .string) :: rest)) := by
  induction strings generalizing items with
  | nil =>
    rw [List.map_nil, List.append_nil]
    rfl
  | cons t strings ih =>
    have hfirst : (atLine (.array items :: rest)).read (stringLine indent (xmlEscape t)) =
        some (atLine (.array (items ++ [.string t]) :: rest)) :=
      read_stringLine_ok (hstrings t List.mem_cons_self) rfl rfl
    rw [List.flatMap_cons, read_append, hfirst, Option.bind_some,
      ih fun t ht => hstrings t (List.mem_cons_of_mem _ ht), List.append_assoc]
    rfl

/-- The entry of an override. -/
def codexPathEntries (env : AgentServiceEnvironment) : List (Text × Value) :=
  env.codexPathOverride.elim [] fun codexPath => [(agentCodexPathEnv, .string codexPath)]

theorem read_codexPathLines {indent : Nat} {env : AgentServiceEnvironment} {rest : List Frame}
    (hcodex : ∀ codexPath ∈ env.codexPathOverride, codexPath.all isXmlChar = true) :
    (atLine (.dict entries none :: rest)).read (codexPathLines indent env) =
      some (atLine (.dict (entries ++ codexPathEntries env) none :: rest)) := by
  unfold codexPathLines codexPathEntries
  cases hpath : env.codexPathOverride with
  | none =>
    show _ = some (atLine (.dict (entries ++ []) none :: rest))
    rw [List.append_nil]
    rfl
  | some codexPath =>
    have hstring : (atLine (.dict entries (some agentCodexPathEnv) :: rest)).read
        (stringLine indent (xmlEscape codexPath)) =
          some (atLine (.dict (entries ++ [(agentCodexPathEnv, .string codexPath)]) none :: rest)) :=
      read_stringLine_ok (hcodex codexPath hpath) rfl rfl
    show (atLine _).read (keyLine 4 agentCodexPathEnv ++ stringLine indent (xmlEscape codexPath)) = _
    rw [read_append, read_keyLine (by decide), Option.bind_some, hstring]
    rfl

end Reader

/-! ## What launchd reads -/

section Documents

open Markup.Reader Reader

variable {executable stateDir : Text} {env : AgentServiceEnvironment} {spec : Platform.AgentWorkerLaunchSpec}

theorem readPropertyList_of_read {t : Text} {value : Value}
    (h : read ⟨.text [], []⟩ t = some (atLine [.document value])) :
    readPropertyList t = some value := by
  rw [readPropertyList, h]
  rfl

/-- What the agent asks launchd for. -/
def agentPropertyList (executable stateDir : Text) (env : AgentServiceEnvironment) : Value :=
  .dict
    [("Label".toList, .string agentLaunchdLabel),
     ("ProgramArguments".toList, .array
       [.string executable, .string "agent".toList, .string "daemon".toList]),
     ("EnvironmentVariables".toList, .dict
       ([(agentStateDirEnv, .string stateDir), (agentDaemonModeEnv, .string "service".toList)] ++
         codexPathEntries env ++ [("PATH".toList, .string env.path)])),
     ("RunAtLoad".toList, .bool true), ("KeepAlive".toList, .bool true),
     ("StandardOutPath".toList, .string (stateDirServiceLogPath stateDir "out".toList)),
     ("StandardErrorPath".toList, .string (stateDirServiceLogPath stateDir "err".toList))]

theorem readPropertyList_launchdPlistContent
    (hexecutable : executable.all isXmlChar = true) (hstateDir : stateDir.all isXmlChar = true)
    (hcodex : ∀ codexPath ∈ env.codexPathOverride, codexPath.all isXmlChar = true)
    (hpath : env.path.all isXmlChar = true)
    (hout : (stateDirServiceLogPath stateDir "out".toList).all isXmlChar = true)
    (herr : (stateDirServiceLogPath stateDir "err".toList).all isXmlChar = true) :
    readPropertyList (launchdPlistContent executable stateDir env) =
      some (agentPropertyList executable stateDir env) := by
  refine readPropertyList_of_read ?_
  unfold launchdPlistContent
  simp only [List.append_assoc]
  -- The document is read line by line; only lines with a string of its own can fail.
  refine read_then read_header ?_
  refine read_then (read_openLine (.inl rfl) rfl) ?_
  refine read_then (read_keyLine (by decide)) ?_
  refine read_then (read_plainStringLine (by decide) rfl rfl) ?_
  refine read_then (read_keyLine (by decide)) ?_
  refine read_then (read_openLine (.inr rfl) rfl) ?_
  refine read_then (read_stringLine_ok hexecutable rfl rfl) ?_
  refine read_then (read_plainStringLine (by decide) rfl rfl) ?_
  refine read_then (read_plainStringLine (by decide) rfl rfl) ?_
  refine read_then (read_closeArray rfl) ?_
  refine read_then (read_keyLine (by decide)) ?_
  refine read_then (read_openLine (.inl rfl) rfl) ?_
  refine read_then (read_keyLine (by decide)) ?_
  refine read_then (read_stringLine_ok hstateDir rfl rfl) ?_
  refine read_then (read_keyLine (by decide)) ?_
  refine read_then (read_plainStringLine (by decide) rfl rfl) ?_
  refine read_then (read_codexPathLines hcodex) ?_
  refine read_then (read_keyLine (by decide)) ?_
  refine read_then (read_stringLine_ok hpath rfl rfl) ?_
  refine read_then (read_closeDict rfl) ?_
  refine read_then (read_keyLine (by decide)) ?_
  refine read_then (read_trueLine rfl) ?_
  refine read_then (read_keyLine (by decide)) ?_
  refine read_then (read_trueLine rfl) ?_
  refine read_then (read_keyLine (by decide)) ?_
  refine read_then (read_stringLine_ok hout rfl rfl) ?_
  refine read_then (read_keyLine (by decide)) ?_
  refine read_then (read_stringLine_ok herr rfl rfl) ?_
  refine read_then (read_closeDict rfl) ?_
  exact read_closePlist

/-- What a worker asks launchd for. -/
def workerPropertyList (spec : Platform.AgentWorkerLaunchSpec) (env : AgentServiceEnvironment) : Value :=
  .dict
    [("Label".toList, .string spec.serviceLabel),
     ("ProgramArguments".toList, .array
       (.string spec.executable :: (agentWorkerCommandArguments spec).map .string)),
     ("EnvironmentVariables".toList, .dict
       ((agentStateDirEnv, .string spec.stateDir) :: codexPathEntries env ++
         [("PATH".toList, .string env.path)])),
     ("RunAtLoad".toList, .bool true), ("KeepAlive".toList, .bool false),
     ("ProcessType".toList, .string "Standard".toList),
     ("StandardOutPath".toList, .string
       (pathJoin (agentWorkerDir spec.stateDir spec.workerToken) "worker.out".toList)),
     ("StandardErrorPath".toList, .string
       (pathJoin (agentWorkerDir spec.stateDir spec.workerToken) "worker.err".toList))]

theorem readPropertyList_launchdWorkerPlistContent
    (hlabel : spec.serviceLabel.all isXmlChar = true)
    (hexecutable : spec.executable.all isXmlChar = true)
    (harguments : ∀ t ∈ agentWorkerCommandArguments spec, t.all isXmlChar = true)
    (hstateDir : spec.stateDir.all isXmlChar = true)
    (hcodex : ∀ codexPath ∈ env.codexPathOverride, codexPath.all isXmlChar = true)
    (hpath : env.path.all isXmlChar = true)
    (hout : (pathJoin (agentWorkerDir spec.stateDir spec.workerToken) "worker.out".toList).all
      isXmlChar = true)
    (herr : (pathJoin (agentWorkerDir spec.stateDir spec.workerToken) "worker.err".toList).all
      isXmlChar = true) :
    readPropertyList (launchdWorkerPlistContent spec env) = some (workerPropertyList spec env) := by
  refine readPropertyList_of_read ?_
  unfold launchdWorkerPlistContent
  simp only [List.append_assoc]
  -- As for the agent, with the arguments of the worker as one array.
  refine read_then read_header ?_
  refine read_then (read_openLine (.inl rfl) rfl) ?_
  refine read_then (read_keyLine (by decide)) ?_
  refine read_then (read_stringLine_ok hlabel rfl rfl) ?_
  refine read_then (read_keyLine (by decide)) ?_
  refine read_then (read_openLine (.inr rfl) rfl) ?_
  refine read_then (read_stringLine_ok hexecutable rfl rfl) ?_
  refine read_then (read_stringArray harguments) ?_
  refine read_then (read_closeArray rfl) ?_
  refine read_then (read_keyLine (by decide)) ?_
  refine read_then (read_openLine (.inl rfl) rfl) ?_
  refine read_then (read_keyLine (by decide)) ?_
  refine read_then (read_stringLine_ok hstateDir rfl rfl) ?_
  refine read_then (read_codexPathLines hcodex) ?_
  refine read_then (read_keyLine (by decide)) ?_
  refine read_then (read_stringLine_ok hpath rfl rfl) ?_
  refine read_then (read_closeDict rfl) ?_
  refine read_then (read_keyLine (by decide)) ?_
  refine read_then (read_trueLine rfl) ?_
  refine read_then (read_keyLine (by decide)) ?_
  refine read_then (read_falseLine rfl) ?_
  refine read_then (read_keyLine (by decide)) ?_
  refine read_then (read_plainStringLine (by decide) rfl rfl) ?_
  refine read_then (read_keyLine (by decide)) ?_
  refine read_then (read_stringLine_ok hout rfl rfl) ?_
  refine read_then (read_keyLine (by decide)) ?_
  refine read_then (read_stringLine_ok herr rfl rfl) ?_
  refine read_then (read_closeDict rfl) ?_
  exact read_closePlist

/-! ## Characters -/

/-- A document that is read has only characters of XML. -/
theorem all_of_readPropertyList {t : Text} {value : Value} (h : readPropertyList t = some value) :
    t.all isXmlChar = true := by
  unfold readPropertyList at h
  split at h
  · rename_i hread
    exact all_of_read hread
  · cases h

theorem all_of_stringLine (indent : Nat) {t : Text}
    (h : (stringLine indent (xmlEscape t)).all isXmlChar = true) : t.all isXmlChar = true := by
  rw [stringLine, elementLine, xmlEscape_eq] at h
  simp only [List.all_append, List.all_cons, Bool.and_eq_true] at h
  exact all_of_escaped h.1.1.1.2.2

theorem all_pathJoin {base name : Text} {p : Char → Bool} (hslash : p '/' = true)
    (hbase : base.all p = true) (hname : name.all p = true) : (pathJoin base name).all p = true := by
  unfold pathJoin
  split
  · exact hname
  · split
    · rw [List.all_append, hbase, hname]
      rfl
    · rw [List.all_append, List.all_cons, hbase, hslash, hname]
      rfl

theorem all_of_pathJoin {base name : Text} {p : Char → Bool}
    (h : (pathJoin base name).all p = true) : name.all p = true := by
  unfold pathJoin at h
  split at h
  · exact h
  · split at h
    · rw [List.all_append, Bool.and_eq_true] at h
      exact h.2
    · rw [List.all_append, List.all_cons, Bool.and_eq_true, Bool.and_eq_true] at h
      exact h.2.2

theorem all_of_pathJoin_left {base name : Text} {p : Char → Bool} (hname : name.head? ≠ some '/')
    (h : (pathJoin base name).all p = true) : base.all p = true := by
  unfold pathJoin at h
  split at h
  · rename_i hbase
    rw [hbase.resolve_left hname]
    rfl
  · split at h
    · rw [List.all_append, Bool.and_eq_true] at h
      exact h.1
    · rw [List.all_append, Bool.and_eq_true] at h
      exact h.1

/-- The strings that the agent's list holds. -/
def agentStrings (executable stateDir : Text) (env : AgentServiceEnvironment) : List Text :=
  executable :: stateDir :: env.path :: env.codexPathOverride.toList

/-- The strings that a worker's list holds. -/
def workerStrings (spec : Platform.AgentWorkerLaunchSpec) (env : AgentServiceEnvironment) : List Text :=
  spec.serviceLabel :: spec.executable :: spec.stateDir :: spec.workerToken :: env.path ::
    (agentWorkerCommandArguments spec ++ env.codexPathOverride.toList)

theorem all_of_codexPathLines (indent : Nat) (env : AgentServiceEnvironment)
    (h : (codexPathLines indent env).all isXmlChar = true) :
    ∀ codexPath ∈ env.codexPathOverride, codexPath.all isXmlChar = true := by
  intro codexPath hpath
  unfold codexPathLines at h
  rw [Option.mem_def.mp hpath] at h
  replace h : (keyLine 4 agentCodexPathEnv ++ stringLine indent (xmlEscape codexPath)).all
    isXmlChar = true := h
  rw [List.all_append, Bool.and_eq_true] at h
  exact all_of_stringLine indent h.2

/-- The lines with the strings of the agent are parts of its file. -/
theorem all_of_launchdPlistContent
    (h : (launchdPlistContent executable stateDir env).all isXmlChar = true) :
    (stringLine 4 (xmlEscape executable)).all isXmlChar = true ∧
      (stringLine 4 (xmlEscape stateDir)).all isXmlChar = true ∧
      (stringLine 4 (xmlEscape env.path)).all isXmlChar = true ∧
      (codexPathLines 0 env).all isXmlChar = true := by
  unfold launchdPlistContent at h
  simp only [List.all_append, Bool.and_eq_true] at h
  simp only [h, and_self]

/-- The lines with the strings of a worker are parts of its file. -/
theorem all_of_launchdWorkerPlistContent
    (h : (launchdWorkerPlistContent spec env).all isXmlChar = true) :
    (stringLine 2 (xmlEscape spec.serviceLabel)).all isXmlChar = true ∧
      (stringLine 4 (xmlEscape spec.executable)).all isXmlChar = true ∧
      (stringLine 4 (xmlEscape spec.stateDir)).all isXmlChar = true ∧
      (stringLine 4 (xmlEscape env.path)).all isXmlChar = true ∧
      ((agentWorkerCommandArguments spec).flatMap fun argument =>
        stringLine 4 (xmlEscape argument)).all isXmlChar = true ∧
      (codexPathLines 4 env).all isXmlChar = true ∧
      (stringLine 2 (xmlEscape (pathJoin (agentWorkerDir spec.stateDir spec.workerToken)
        "worker.out".toList))).all isXmlChar = true := by
  unfold launchdWorkerPlistContent at h
  simp only [List.all_append, Bool.and_eq_true] at h
  simp only [h, and_self]

/-- The agent's list is read back exactly when XML has the characters of its strings. -/
theorem readPropertyList_agent_iff :
    readPropertyList (launchdPlistContent executable stateDir env) =
        some (agentPropertyList executable stateDir env) ↔
      ∀ t ∈ agentStrings executable stateDir env, t.all isXmlChar = true := by
  constructor
  · intro h
    obtain ⟨hexecutable, hstate, hpath, hcodex⟩ :=
      all_of_launchdPlistContent (all_of_readPropertyList h)
    intro t ht
    simp only [agentStrings, List.mem_cons, Option.mem_toList] at ht
    rcases ht with rfl | rfl | rfl | hmem
    · exact all_of_stringLine 4 hexecutable
    · exact all_of_stringLine 4 hstate
    · exact all_of_stringLine 4 hpath
    · exact all_of_codexPathLines 0 env hcodex t hmem
  · intro h
    have hstateDir := h stateDir (by simp [agentStrings])
    refine readPropertyList_launchdPlistContent (h executable (by simp [agentStrings])) hstateDir
      (fun codexPath hpath => h codexPath ?_) (h env.path (by simp [agentStrings])) ?_ ?_
    · simp [agentStrings, Option.mem_def.mp hpath]
    · exact all_pathJoin (by decide) hstateDir (by decide)
    · exact all_pathJoin (by decide) hstateDir (by decide)

/-- A worker's list is read back exactly when XML has the characters of its strings. -/
theorem readPropertyList_worker_iff :
    readPropertyList (launchdWorkerPlistContent spec env) = some (workerPropertyList spec env) ↔
      ∀ t ∈ workerStrings spec env, t.all isXmlChar = true := by
  constructor
  · intro h
    obtain ⟨hlabel, hexecutable, hstate, hpath, harguments, hcodex, hlog⟩ :=
      all_of_launchdWorkerPlistContent (all_of_readPropertyList h)
    intro t ht
    simp only [workerStrings, List.mem_cons, List.mem_append, Option.mem_toList] at ht
    rcases ht with rfl | rfl | rfl | rfl | rfl | hargument | hmem
    · exact all_of_stringLine 2 hlabel
    · exact all_of_stringLine 4 hexecutable
    · exact all_of_stringLine 4 hstate
    · -- The token has no line of its own: it is the last name in the directory of the logs.
      exact all_of_pathJoin (all_of_pathJoin_left (by decide) (all_of_stringLine 2 hlog))
    · exact all_of_stringLine 4 hpath
    · rw [List.all_flatMap, List.all_eq_true] at harguments
      exact all_of_stringLine 4 (harguments t hargument)
    · exact all_of_codexPathLines 4 env hcodex t hmem
  · intro h
    have hstateDir := h spec.stateDir (by simp [workerStrings])
    have htoken := h spec.workerToken (by simp [workerStrings])
    have hdir : (agentWorkerDir spec.stateDir spec.workerToken).all isXmlChar = true :=
      all_pathJoin (by decide) (all_pathJoin (by decide) hstateDir (by decide)) htoken
    refine readPropertyList_launchdWorkerPlistContent (h _ (by simp [workerStrings]))
      (h _ (by simp [workerStrings])) (fun t ht => h t ?_) hstateDir
      (fun codexPath hpath => h codexPath ?_) (h env.path (by simp [workerStrings])) ?_ ?_
    · simp [workerStrings, ht]
    · simp [workerStrings, Option.mem_def.mp hpath]
    · exact all_pathJoin (by decide) hdir (by decide)
    · exact all_pathJoin (by decide) hdir (by decide)

end Documents

end Clt
