import Clt.Markup.UnitFile
import Clt.Platform.LaunchdFiles

/-!
# The unit of systemd

The agent is described to systemd by a unit file. Quotes and backslashes are escaped in it; percent
signs are not, and systemd expands them in quotes too.
-/

namespace Clt

open Markup

/-! ## The file -/

/-- `systemd_escape_double_quoted`. -/
def systemdEscapeDoubleQuoted (raw : Text) : Text :=
  replaceChar '"' "\\\"".toList (replaceChar '\\' "\\\\".toList raw)

/-- `systemd_env_assignment`. -/
def systemdEnvAssignment (key value : Text) : Text :=
  '"' :: systemdEscapeDoubleQuoted key ++ '=' :: systemdEscapeDoubleQuoted value ++ ['"']

/-- `systemd_quote_arg`. -/
def systemdQuoteArg (raw : Text) : Text :=
  if raw.all fun c => c.isAlphanum || "/._-:".toList.contains c then raw
  else '"' :: systemdEscapeDoubleQuoted raw ++ ['"']

/-- `systemd_unit_content`, by its lines. -/
def systemdUnitLines (executable stateDir : Text) (env : AgentServiceEnvironment) : List Text :=
  ["[Unit]".toList, "Description=CLT Codex agent".toList, "After=default.target".toList, [],
    "[Service]".toList, "Type=simple".toList,
    "ExecStart=".toList ++ systemdQuoteArg executable ++ " agent daemon".toList,
    "Environment=".toList ++ systemdEnvAssignment agentStateDirEnv stateDir,
    "Environment=".toList ++ systemdEnvAssignment agentDaemonModeEnv "service".toList] ++
  (env.codexPathOverride.toList.map fun codexPath =>
    "Environment=".toList ++ systemdEnvAssignment agentCodexPathEnv codexPath) ++
  ["Environment=".toList ++ systemdEnvAssignment "PATH".toList env.path,
    "Restart=always".toList, "RestartSec=10".toList, [],
    "[Install]".toList, "WantedBy=default.target".toList]

/-- `systemd_unit_content`. -/
def systemdUnitContent (executable stateDir : Text) (env : AgentServiceEnvironment) : Text :=
  (systemdUnitLines executable stateDir env).flatMap (· ++ ['\n'])

/-! ## Escaping -/

theorem systemdEscapeDoubleQuoted_eq (raw : Text) :
    systemdEscapeDoubleQuoted raw = raw.flatMap escapeQuoted := by
  unfold systemdEscapeDoubleQuoted replaceChar
  rw [List.flatMap_assoc]
  refine List.flatMap_congr fun c _ => ?_
  unfold escapeQuoted
  by_cases hback : c = '\\'
  · subst hback; rfl
  · by_cases hquote : c = '"'
    · subst hquote; rfl
    · rw [if_neg hback, if_neg hback, if_neg hquote, List.flatMap_singleton, if_neg hquote]

theorem systemdEnvAssignment_eq (key value : Text) : systemdEnvAssignment key value =
    '"' :: (key ++ '=' :: value).flatMap escapeQuoted ++ ['"'] := by
  rw [systemdEnvAssignment, systemdEscapeDoubleQuoted_eq, systemdEscapeDoubleQuoted_eq,
    List.flatMap_append, List.flatMap_cons]
  rfl

theorem newline_not_mem_escapeQuoted {t : Text} (h : '\n' ∉ t) :
    '\n' ∉ t.flatMap escapeQuoted := by
  rw [List.mem_flatMap]
  rintro ⟨c, hc, hmem⟩
  unfold escapeQuoted at hmem
  split at hmem
  · exact absurd hmem (by decide)
  · split at hmem
    · exact absurd hmem (by decide)
    · rw [List.mem_singleton] at hmem
      exact h (hmem ▸ hc)

theorem isBareChar_of_plain {c : Char} (h : (c.isAlphanum || "/._-:".toList.contains c) = true) :
    Words.isBareChar c = true := by
  have hne : ∀ d : Char, (d.isAlphanum || "/._-:".toList.contains d) = false → c ≠ d := by
    rintro d hd rfl
    rw [hd] at h
    cases h
  simp only [Words.isBareChar, isUnitSpace, Bool.and_eq_true, Bool.not_eq_true', Bool.or_eq_false_iff,
    decide_eq_false_iff_not, bne_iff_ne]
  exact ⟨⟨⟨⟨⟨⟨hne ' ' (by decide), hne '\t' (by decide)⟩, hne '\n' (by decide)⟩,
    hne '\r' (by decide)⟩, hne '"' (by decide)⟩, hne '\'' (by decide)⟩, hne '\\' (by decide)⟩

/-! ## The lines -/

section Lines

variable {executable stateDir : Text} {env : AgentServiceEnvironment}
  {table : Char → Option Text} {substitute : Text → List Text}

/-- The quoted program is one word, without which the words of the line are its arguments. -/
theorem unquoteWords_execStart (hne : executable ≠ []) :
    unquoteWords (systemdQuoteArg executable ++ " agent daemon".toList) =
      some [executable, "agent".toList, "daemon".toList] := by
  rw [unquoteWords, Words.read_append]
  unfold systemdQuoteArg
  split
  · rename_i hall
    have hbare : executable.all Words.isBareChar = true := by
      rw [List.all_eq_true] at hall ⊢
      intro c hc
      exact isBareChar_of_plain (hall c hc)
    rw [Words.read_bare hne hbare]
    rfl
  · rw [systemdEscapeDoubleQuoted_eq, Words.read_quoted]
    rfl

/-- What the line of the program has behind its key. -/
theorem isSetting_execStart (hne : executable ≠ []) :
    IsSetting "ExecStart".toList (systemdQuoteArg executable ++ " agent daemon".toList) where
  first := ⟨'E', rfl, by decide, by decide, by decide, by decide⟩
  name := by decide
  text := by
    refine unitTrim_eq_self (fun c hc => ?_) fun c hc => ?_
    · unfold systemdQuoteArg at hc
      split at hc
      · rename_i hall
        cases executable with
        | nil => exact absurd rfl hne
        | cons d rest =>
          rw [List.all_cons, Bool.and_eq_true] at hall
          have hbare := isBareChar_of_plain hall.1
          cases hc
          simp only [Words.isBareChar, Bool.and_eq_true, Bool.not_eq_true'] at hbare
          exact hbare.1.1.1
      · cases hc
        rfl
    · rw [List.getLast?_append] at hc
      cases hc
      rfl
  last := ⟨'n', by rw [List.getLast?_append]; rfl, by decide⟩

theorem getLast?_systemdEnvAssignment (key value : Text) :
    (systemdEnvAssignment key value).getLast? = some '"' := by
  rw [systemdEnvAssignment, List.getLast?_append]
  rfl

theorem isSetting_environment (key value : Text) :
    IsSetting "Environment".toList (systemdEnvAssignment key value) where
  first := ⟨'E', rfl, by decide, by decide, by decide, by decide⟩
  name := by decide
  text := by
    refine unitTrim_eq_self (fun c hc => ?_) fun c hc => ?_
    · cases hc
      rfl
    · rw [getLast?_systemdEnvAssignment] at hc
      cases hc
      rfl
  last := ⟨'"', getLast?_systemdEnvAssignment key value, by decide⟩

/-- No text of the unit goes over a line. -/
structure OneLine (executable stateDir : Text) (env : AgentServiceEnvironment) : Prop where
  executable : '\n' ∉ executable
  stateDir : '\n' ∉ stateDir
  codexPath : ∀ codexPath ∈ env.codexPathOverride, '\n' ∉ codexPath
  path : '\n' ∉ env.path

theorem newline_not_mem_environment {key value : Text} (hkey : '\n' ∉ key) (hvalue : '\n' ∉ value) :
    '\n' ∉ "Environment=".toList ++ systemdEnvAssignment key value := by
  rw [systemdEnvAssignment_eq, List.mem_append, not_or, List.mem_append, not_or, List.mem_cons,
    not_or]
  refine ⟨by decide, ⟨by decide, newline_not_mem_escapeQuoted ?_⟩, by decide⟩
  rw [List.mem_append, not_or, List.mem_cons, not_or]
  exact ⟨hkey, by decide, hvalue⟩

theorem newline_not_mem_execStart (h : '\n' ∉ executable) :
    '\n' ∉ "ExecStart=".toList ++ systemdQuoteArg executable ++ " agent daemon".toList := by
  rw [List.mem_append, not_or, List.mem_append, not_or]
  refine ⟨⟨by decide, ?_⟩, by decide⟩
  unfold systemdQuoteArg
  split
  · exact h
  · rw [systemdEscapeDoubleQuoted_eq, List.mem_append, not_or, List.mem_cons, not_or]
    exact ⟨⟨by decide, newline_not_mem_escapeQuoted h⟩, by decide⟩

/-- A line that is written is one line, and does not go on with the next. -/
def IsWhole (line : Text) : Prop := '\n' ∉ line ∧ line.getLast? ≠ some '\\'

theorem isWhole_environment {key value : Text} (hkey : '\n' ∉ key) (hvalue : '\n' ∉ value) :
    IsWhole ("Environment=".toList ++ systemdEnvAssignment key value) := by
  refine ⟨newline_not_mem_environment hkey hvalue, ?_⟩
  rw [List.getLast?_append, getLast?_systemdEnvAssignment]
  decide

theorem isWhole_lines (h : OneLine executable stateDir env) :
    ∀ line ∈ systemdUnitLines executable stateDir env, IsWhole line := by
  have hexec : IsWhole ("ExecStart=".toList ++ systemdQuoteArg executable ++
      " agent daemon".toList) := by
    refine ⟨newline_not_mem_execStart h.executable, ?_⟩
    rw [List.getLast?_append]
    show some 'n' ≠ some '\\'
    decide
  unfold systemdUnitLines
  simp only [List.forall_mem_append, List.forall_mem_cons, List.forall_mem_map, Option.mem_toList]
  refine ⟨⟨⟨?_, ?_, ?_, ?_, ?_, ?_, hexec, isWhole_environment (by decide) h.stateDir,
    isWhole_environment (by decide) (by decide), ?_⟩, fun codexPath hpath =>
      isWhole_environment (by decide) (h.codexPath codexPath hpath)⟩,
    isWhole_environment (by decide) h.path, ?_, ?_, ?_, ?_, ?_, ?_⟩
  all_goals first
    | exact ⟨by decide, by decide⟩
    | exact fun line hline => absurd hline List.not_mem_nil

/-! ## The settings -/

/-- The settings that are the same for every agent, in front of the program. -/
def headSettings : List Setting :=
  [⟨"Unit".toList, "Description".toList, "CLT Codex agent".toList⟩,
   ⟨"Unit".toList, "After".toList, "default.target".toList⟩,
   ⟨"Service".toList, "Type".toList, "simple".toList⟩]

/-- The same, behind the environment. -/
def tailSettings : List Setting :=
  [⟨"Service".toList, "Restart".toList, "always".toList⟩,
   ⟨"Service".toList, "RestartSec".toList, "10".toList⟩,
   ⟨"Install".toList, "WantedBy".toList, "default.target".toList⟩]

/-- The environment that the agent is given. -/
def agentEnvironment (stateDir : Text) (env : AgentServiceEnvironment) : List (Text × Text) :=
  [(agentStateDirEnv, stateDir), (agentDaemonModeEnv, "service".toList)] ++
    (env.codexPathOverride.toList.map fun codexPath => (agentCodexPathEnv, codexPath)) ++
    [("PATH".toList, env.path)]

/-- The line of an assignment, as it is read. -/
def environmentSetting (entry : Text × Text) : Setting :=
  ⟨"Service".toList, "Environment".toList, systemdEnvAssignment entry.1 entry.2⟩

theorem readLines_environment (area : Text) (entries : List (Text × Text)) (rest : List Text) :
    readLines area ((entries.map fun entry =>
        "Environment=".toList ++ systemdEnvAssignment entry.1 entry.2) ++ rest) =
      (readLines area rest).map fun settings =>
        (entries.map fun entry =>
          (⟨area, "Environment".toList, systemdEnvAssignment entry.1 entry.2⟩ : Setting)) ++
            settings := by
  induction entries with
  | nil =>
    show readLines area rest = (readLines area rest).map id
    rw [Option.map_id_fun]
    rfl
  | cons entry entries ih =>
    rw [List.map_cons, List.cons_append]
    show readLines area (("Environment".toList ++ '=' :: systemdEnvAssignment entry.1 entry.2) :: _) =
      _
    rw [readLines_setting (isSetting_environment entry.1 entry.2), ih, Option.map_map]
    rfl

theorem systemdUnitLines_eq : systemdUnitLines executable stateDir env =
    ["[Unit]".toList, "Description=CLT Codex agent".toList, "After=default.target".toList, [],
      "[Service]".toList, "Type=simple".toList] ++
    ("ExecStart=".toList ++ systemdQuoteArg executable ++ " agent daemon".toList) ::
    (((agentEnvironment stateDir env).map fun entry =>
        "Environment=".toList ++ systemdEnvAssignment entry.1 entry.2) ++
      ["Restart=always".toList, "RestartSec=10".toList, [],
        "[Install]".toList, "WantedBy=default.target".toList]) := by
  unfold systemdUnitLines agentEnvironment
  simp only [List.map_append, List.map_cons, List.map_nil, List.map_map, List.append_assoc,
    List.cons_append, List.nil_append]
  rfl

theorem readLines_head (rest : List Text) :
    readLines [] (["[Unit]".toList, "Description=CLT Codex agent".toList,
      "After=default.target".toList, [], "[Service]".toList, "Type=simple".toList] ++ rest) =
    (readLines "Service".toList rest).map fun settings => headSettings ++ settings := by
  -- The lines are read one after another, so that the settings are put in front one by one.
  have hstep : readLines [] (["[Unit]".toList, "Description=CLT Codex agent".toList,
      "After=default.target".toList, [], "[Service]".toList, "Type=simple".toList] ++ rest) =
    (((readLines "Service".toList rest).map
      (List.cons ⟨"Service".toList, "Type".toList, "simple".toList⟩)).map
      (List.cons ⟨"Unit".toList, "After".toList, "default.target".toList⟩)).map
      (List.cons ⟨"Unit".toList, "Description".toList, "CLT Codex agent".toList⟩) := rfl
  rw [hstep, Option.map_map, Option.map_map]
  rfl

theorem readLines_tail :
    readLines "Service".toList (["Restart=always".toList, "RestartSec=10".toList, [],
      "[Install]".toList, "WantedBy=default.target".toList] ++ [[]]) = some tailSettings := rfl

/-- The value of the program's line, as it is read. -/
def execStartValue (executable : Text) : Text :=
  if executable = [] then "agent daemon".toList
  else systemdQuoteArg executable ++ " agent daemon".toList

theorem readLines_execStart (area : Text) (rest : List Text) :
    readLines area (("ExecStart=".toList ++ systemdQuoteArg executable ++
        " agent daemon".toList) :: rest) =
      (readLines area rest).map fun settings =>
        ⟨area, "ExecStart".toList, execStartValue executable⟩ :: settings := by
  unfold execStartValue
  split
  · rename_i hempty
    subst hempty
    rfl
  · rename_i hne
    exact readLines_setting (isSetting_execStart hne)

/-- The settings of the unit, with the line of the program as it is read. -/
theorem readUnit_systemdUnitContent (h : OneLine executable stateDir env) :
    readUnit (systemdUnitContent executable stateDir env) =
      some (headSettings ++
        ⟨"Service".toList, "ExecStart".toList, execStartValue executable⟩ ::
        ((agentEnvironment stateDir env).map environmentSetting ++ tailSettings)) := by
  have hwhole := isWhole_lines h
  rw [readUnit, systemdUnitContent, splitOn_lines fun line hline => (hwhole line hline).1,
    joinContinued_eq_self fun line hline => ?_]
  · rw [systemdUnitLines_eq, List.append_assoc, readLines_head, List.cons_append,
      readLines_execStart, List.append_assoc, readLines_environment, readLines_tail]
    rfl
  · rcases List.mem_append.mp hline with hmem | hmem
    · exact (hwhole line hmem).2
    · rw [List.mem_singleton.mp hmem]
      decide

/-! ## The service -/

/-- The service of an agent: its command, the environment it is given, and the other settings. -/
def agentService (command : Command) (environment : List (Text × Text)) : Service where
  commands := [command]
  environment := environment
  others := headSettings ++ tailSettings

/-- The command that the unit is written for. -/
def agentCommand (executable : Text) : Command where
  program := executable
  arguments := ["agent".toList, "daemon".toList]

theorem foldlM_environment (service : Service) {entries : List (Text × Text)}
    (hkeys : ∀ entry ∈ entries, '%' ∉ entry.1 ∧ '=' ∉ entry.1) :
    (entries.map environmentSetting).foldlM (addSetting table substitute) service =
      some { service with
        environment := service.environment ++
          entries.map fun entry => (entry.1, expandSpecifiers table entry.2) } := by
  induction entries generalizing service with
  | nil =>
    rw [List.map_nil, List.map_nil, List.append_nil]
    rfl
  | cons entry entries ih =>
    obtain ⟨hpercent, hequals⟩ := hkeys entry List.mem_cons_self
    -- The keys are constants without percent and equals signs; only the value is expanded.
    have hread : readEnvironment table (environmentSetting entry).value =
        some [(entry.1, expandSpecifiers table entry.2)] := by
      show readEnvironment table (systemdEnvAssignment entry.1 entry.2) = _
      rw [systemdEnvAssignment_eq]
      exact readEnvironment_quoted entry.2 hpercent hequals
    have hadd : addSetting table substitute service (environmentSetting entry) =
        some { service with
          environment := service.environment ++ [(entry.1, expandSpecifiers table entry.2)] } := by
      rw [addSetting_environment service ⟨rfl, rfl⟩ (List.cons_ne_nil _ _), hread]
      rfl
    rw [List.map_cons, List.foldlM_cons, hadd, Option.bind_eq_bind, Option.bind_some,
      ih _ fun e he => hkeys e (List.mem_cons_of_mem _ he), List.map_cons]
    dsimp only
    rw [List.append_assoc]
    rfl

theorem keys_agentEnvironment :
    ∀ entry ∈ agentEnvironment stateDir env, '%' ∉ entry.1 ∧ '=' ∉ entry.1 := by
  unfold agentEnvironment
  simp only [List.forall_mem_append, List.forall_mem_cons, List.forall_mem_map]
  exact ⟨⟨⟨by decide, by decide, fun _ h => absurd h List.not_mem_nil⟩, fun _ _ => by decide⟩,
    by decide, fun _ h => absurd h List.not_mem_nil⟩

theorem readCommand_execStartValue (hne : executable ≠ []) :
    readCommand table substitute (execStartValue executable) =
      (programOf table executable).map agentCommand := by
  rw [execStartValue, if_neg hne, readCommand, unquoteWords_execStart hne]
  rfl

/-- What systemd makes of the unit: the specifiers in the values of the environment are expanded. -/
theorem readService_systemdUnitContent (h : OneLine executable stateDir env) :
    readService table substitute (systemdUnitContent executable stateDir env) =
      (readCommand table substitute (execStartValue executable)).map fun command =>
        agentService command ((agentEnvironment stateDir env).map fun entry =>
          (entry.1, expandSpecifiers table entry.2)) := by
  have hvalue : execStartValue executable ≠ [] := by
    unfold execStartValue
    split
    · decide
    · exact List.append_ne_nil_of_right_ne_nil _ (by decide)
  have hhead : headSettings.foldlM (addSetting table substitute) ⟨[], [], []⟩ =
      some ⟨[], [], headSettings⟩ := rfl
  rw [readService, readUnit_systemdUnitContent h, Option.bind_some, List.foldlM_append, hhead,
    Option.bind_eq_bind, Option.bind_some, List.foldlM_cons, addSetting_command _ ⟨rfl, rfl⟩ hvalue]
  cases readCommand table substitute (execStartValue executable) with
  | none => rfl
  | some command =>
    rw [Option.map_some, Option.bind_eq_bind, Option.bind_some, List.foldlM_append,
      foldlM_environment _ keys_agentEnvironment]
    rfl

/-- systemd takes the strings of the unit as they are: none has a specifier that is expanded, and
the executable is a path or a file name that does not begin with a mark of its own. -/
structure KeptBySystemd (table : Char → Option Text) (executable stateDir : Text)
    (env : AgentServiceEnvironment) : Prop where
  named : executable ≠ []
  found : executable.head? = some '/' ∨ '/' ∉ executable
  program : expandSpecifiers table (executable.dropWhile isProgramMark) = executable
  stateDir : expandSpecifiers table stateDir = stateDir
  codexPath : ∀ codexPath ∈ env.codexPathOverride, expandSpecifiers table codexPath = codexPath
  path : expandSpecifiers table env.path = env.path

theorem programOf_eq_self_iff : programOf table executable = some executable ↔
    executable ≠ [] ∧ (executable.head? = some '/' ∨ '/' ∉ executable) ∧
      expandSpecifiers table (executable.dropWhile isProgramMark) = executable := by
  unfold programOf
  dsimp only
  constructor
  · intro h
    split at h
    · rename_i hprogram
      have heq := Option.some.inj h
      rw [heq] at hprogram
      exact ⟨hprogram.1, hprogram.2, heq⟩
    · cases h
  · rintro ⟨hne, hfound, heq⟩
    rw [heq, if_pos ⟨hne, hfound⟩]

/-- The command is read back exactly when the executable names itself. -/
theorem readCommand_eq_agentCommand_iff :
    readCommand table substitute (execStartValue executable) = some (agentCommand executable) ↔
      programOf table executable = some executable := by
  by_cases hne : executable = []
  · subst hne
    have hread : readCommand table substitute (execStartValue []) =
        some ⟨"agent".toList, ["daemon".toList]⟩ := rfl
    rw [hread]
    constructor
    · intro h
      exact absurd h (by decide)
    · intro h
      exact absurd rfl (programOf_eq_self_iff.mp h).1
  · rw [readCommand_execStartValue hne]
    cases programOf table executable with
    | none =>
      constructor
      · rintro ⟨⟩
      · rintro ⟨⟩
    | some program =>
      rw [Option.map_some, Option.some.injEq, Option.some.injEq]
      exact ⟨fun h => congrArg Command.program h, fun h => congrArg agentCommand h⟩

theorem expand_agentEnvironment_iff :
    ((agentEnvironment stateDir env).map fun entry => (entry.1, expandSpecifiers table entry.2)) =
        agentEnvironment stateDir env ↔
      expandSpecifiers table stateDir = stateDir ∧
        (∀ codexPath ∈ env.codexPathOverride, expandSpecifiers table codexPath = codexPath) ∧
        expandSpecifiers table env.path = env.path := by
  have hmode : expandSpecifiers table "service".toList = "service".toList :=
    expandSpecifiers_of_not_mem (by decide)
  have hmap : ((agentEnvironment stateDir env).map fun entry =>
        (entry.1, expandSpecifiers table entry.2)) = agentEnvironment stateDir env ↔
      ∀ entry ∈ agentEnvironment stateDir env,
        (entry.1, expandSpecifiers table entry.2) = entry := by
    conv_lhs => rhs; rw [← List.map_id (agentEnvironment stateDir env)]
    exact List.map_inj_left
  rw [hmap]
  unfold agentEnvironment
  simp only [List.forall_mem_append, List.forall_mem_cons, List.forall_mem_map, Option.mem_toList,
    Prod.mk.injEq, true_and, hmode, List.not_mem_nil, false_implies, implies_true, and_true, and_assoc]
  rfl

/-- The unit is read back exactly when systemd takes its strings as they are. -/
theorem readService_eq_iff (h : OneLine executable stateDir env) :
    readService table substitute (systemdUnitContent executable stateDir env) =
        some (agentService (agentCommand executable) (agentEnvironment stateDir env)) ↔
      KeptBySystemd table executable stateDir env := by
  have hsplit : readService table substitute (systemdUnitContent executable stateDir env) =
        some (agentService (agentCommand executable) (agentEnvironment stateDir env)) ↔
      readCommand table substitute (execStartValue executable) = some (agentCommand executable) ∧
        ((agentEnvironment stateDir env).map fun entry =>
          (entry.1, expandSpecifiers table entry.2)) = agentEnvironment stateDir env := by
    rw [readService_systemdUnitContent h, Option.map_eq_some_iff]
    constructor
    · rintro ⟨command, hcommand, hservice⟩
      have hcommands := List.singleton_inj.mp (congrArg Service.commands hservice)
      exact ⟨hcommands ▸ hcommand, congrArg Service.environment hservice⟩
    · rintro ⟨hcommand, henvironment⟩
      exact ⟨_, hcommand, by rw [henvironment]⟩
  rw [hsplit, readCommand_eq_agentCommand_iff, programOf_eq_self_iff, expand_agentEnvironment_iff]
  constructor
  · rintro ⟨⟨hne, hfound, hprogram⟩, hstate, hcodex, hpath⟩
    exact ⟨hne, hfound, hprogram, hstate, hcodex, hpath⟩
  · rintro ⟨hne, hfound, hprogram, hstate, hcodex, hpath⟩
    exact ⟨⟨hne, hfound, hprogram⟩, hstate, hcodex, hpath⟩

end Lines

/-! ## The files of a service -/

/-- A control character. -/
def isControl (c : Char) : Bool := c.toNat < 0x20 || (0x7F ≤ c.toNat && c.toNat ≤ 0x9F)

/-- A text without newlines and other control characters. -/
def NoControl (t : Text) : Prop := (t.all fun c => !isControl c) = true

instance (t : Text) : Decidable (NoControl t) := inferInstanceAs (Decidable (_ = true))

theorem NoControl.isControl_eq_false {t : Text} {c : Char} (h : NoControl t) (hc : c ∈ t) :
    isControl c = false := by
  rw [NoControl, List.all_eq_true] at h
  rw [← Bool.not_eq_true']
  exact h c hc

/-- XML 1.0 has every character but the last two of the basic plane, and most control characters. -/
theorem isXmlChar_iff {c : Char} (h : isControl c = false) :
    isXmlChar c = true ↔ c ≠ '\uFFFE' ∧ c ≠ '\uFFFF' := by
  have hvalid : c.toNat < 0xD800 ∨ (0xDFFF < c.toNat ∧ c.toNat < 0x110000) := c.valid
  have hcode : ∀ d : Char, c ≠ d ↔ c.toNat ≠ d.toNat := fun d =>
    not_congr Char.toNat_inj.symm
  rw [hcode, hcode]
  simp only [isControl, Bool.or_eq_false_iff, Bool.and_eq_false_iff, decide_eq_false_iff_not] at h
  simp only [isXmlChar, Bool.or_eq_true, Bool.and_eq_true, decide_eq_true_eq]
  show _ ↔ c.toNat ≠ 0xFFFE ∧ c.toNat ≠ 0xFFFF
  omega

theorem all_isXmlChar_iff {t : Text} (h : NoControl t) :
    t.all isXmlChar = true ↔ '\uFFFE' ∉ t ∧ '\uFFFF' ∉ t := by
  rw [List.all_eq_true]
  constructor
  · intro hall
    refine ⟨fun hmem => ?_, fun hmem => ?_⟩
    · exact absurd (hall _ hmem) (by decide)
    · exact absurd (hall _ hmem) (by decide)
  · rintro ⟨hfirst, hsecond⟩ c hc
    rw [isXmlChar_iff (h.isControl_eq_false hc)]
    refine ⟨?_, ?_⟩
    · rintro rfl
      exact hfirst hc
    · rintro rfl
      exact hsecond hc

/-- None of the strings has one of the two characters that XML leaves out. -/
def KeptByXml (strings : List Text) : Prop := ∀ t ∈ strings, '\uFFFE' ∉ t ∧ '\uFFFF' ∉ t

theorem forall_all_isXmlChar_iff {strings : List Text} (h : ∀ t ∈ strings, NoControl t) :
    (∀ t ∈ strings, t.all isXmlChar = true) ↔ KeptByXml strings := by
  unfold KeptByXml
  constructor
  · intro hall t ht
    exact (all_isXmlChar_iff (h t ht)).mp (hall t ht)
  · intro hkept t ht
    exact (all_isXmlChar_iff (h t ht)).mpr (hkept t ht)

theorem NoControl.newline_not_mem {t : Text} (h : NoControl t) : '\n' ∉ t := by
  intro hmem
  exact absurd (h.isControl_eq_false hmem) (by decide)

theorem OneLine.of_noControl {executable stateDir : Text} {env : AgentServiceEnvironment}
    (h : ∀ t ∈ agentStrings executable stateDir env, NoControl t) :
    OneLine executable stateDir env := by
  unfold agentStrings at h
  simp only [List.forall_mem_cons, Option.mem_toList] at h
  obtain ⟨hexecutable, hstate, hpath, hcodex⟩ := h
  exact ⟨hexecutable.newline_not_mem, hstate.newline_not_mem,
    fun codexPath hmem => (hcodex codexPath hmem).newline_not_mem, hpath.newline_not_mem⟩

/-- The specifier of the home directory. -/
def homeSpecifier (c : Char) : Option Text := if c = 'h' then some "/home/ada".toList else none

def spacedEnvironment : AgentServiceEnvironment where
  codexPathOverride := some "/opt/my codex/bin/codex".toList
  path := "/usr/bin:/bin".toList

def reviewerSpec : Platform.AgentWorkerLaunchSpec where
  stateDir := "/home/ada/state & <logs>".toList
  executable := "/usr/bin/clt".toList
  workerToken := "w-1".toList
  projectId := 7
  taskSelection := .nextTodo
  resumeSessionId := none
  serviceLabel := "com.alpinevibrations.clt.agent.worker.w-1".toList
  commandArguments := some ["agent".toList, "worker".toList]

end Clt
