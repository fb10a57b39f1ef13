import Clt.Markup.TomlString
import Clt.Task.Attachment

/-!
# The Codex command of a run

The options that a run passes to Codex, and how `launch_spec` reads them back for the app server.
-/

namespace Clt

open Markup

/-! ## The command -/

/-- `AgentModelDefaults`. -/
structure AgentModelDefaults where
  providerId : Option Text
  modelId : Option Text

/-- The settings of a project that `set_project_codex_settings` writes, as they are given. -/
structure CodexSettings where
  codexProvider : Option Text
  codexModel : Option Text
  codexReasoningEffort : Option Text
  codexFastEnabled : Bool

/-- What the store and the task have when the project sets nothing: `model_defaults`,
`model_target_reasoning`, and `selected_task_thinking`. -/
structure LaunchDefaults where
  modelDefaults : AgentModelDefaults
  modelTargetReasoning : Text → Text → Option Text
  taskReasoningEffort : Option Text

section Settings

variable (settings : CodexSettings) (defaults : LaunchDefaults)

/-- `resolve_model_target`. -/
def modelTarget : AgentModelDefaults :=
  settings.codexModel.elim defaults.modelDefaults fun modelId =>
    ⟨some (settings.codexProvider.getD "openai".toList), some modelId⟩

/-- The provider and the model of a run, when it has both. -/
def providerAndModel : Option (Text × Text) :=
  (modelTarget settings defaults).providerId.bind fun provider =>
    (modelTarget settings defaults).modelId.map fun model => (provider, model)

/-- The effort of the task, of the project or of the model, in this order. -/
def reasoningEffort : Option Text :=
  defaults.taskReasoningEffort.or <| settings.codexReasoningEffort.or <|
    (providerAndModel settings defaults).bind fun target =>
      defaults.modelTargetReasoning target.1 target.2

end Settings

/-- A character as `Debug` writes it in a string. `unprintable` is the table of the characters beyond
ASCII that are not written as they are. -/
def debugChar (unprintable : Char → Bool) (c : Char) : Text :=
  if c = '\x00' then "\\0".toList
  else if c = '\t' then "\\t".toList
  else if c = '\r' then "\\r".toList
  else if c = '\n' then "\\n".toList
  else if c = '\\' ∨ c = '"' then ['\\', c]
  else if c.toNat < 0x20 || c.toNat = 0x7F || unprintable c then
    "\\u\x7b".toList ++ Nat.toDigits 16 c.toNat ++ ['\x7d']
  else [c]

/-- `{provider:?}`. -/
def debugText (unprintable : Char → Bool) (t : Text) : Text :=
  '"' :: t.flatMap (debugChar unprintable) ++ ['"']

/-- `Command::arg`, as `get_args` gives it back: what has a NUL is replaced. -/
def commandArg (t : Text) : Text := if '\x00' ∈ t then "<string-with-nul>".toList else t

section Command

variable (unprintable : Char → Bool) (taskSelection : AgentTaskSelection)
  (target : Option (Text × Text)) (effort : Option Text) (fast : Bool)

/-- The options in front of the model. -/
def headOptions : List (Text × Text) :=
  [("--sandbox".toList,
      if taskSelection = .supervisorReview then "read-only".toList else "danger-full-access".toList),
   ("--ask-for-approval".toList, "never".toList),
   (if taskSelection = .supervisorReview then "--disable".toList else "--enable".toList,
      "goals".toList)]

/-- `model_provider={provider:?}`. -/
def providerConfig (provider : Text) : Text :=
  "model_provider".toList ++ '=' :: debugText unprintable provider

def modelOptions : List (Text × Text) :=
  target.elim [] fun target =>
    [("--config".toList, providerConfig unprintable target.1), ("--model".toList, target.2)]

/-- `model_reasoning_effort="{reasoning_effort}"`. -/
def effortConfig (effort : Text) : Text :=
  "model_reasoning_effort".toList ++ '=' :: '"' :: (effort ++ ['"'])

def effortOptions : List (Text × Text) :=
  effort.elim [] fun effort => [("--config".toList, effortConfig effort)]

def fastOptions : List (Text × Text) :=
  if fast then
    [("--enable".toList, "fast_mode".toList),
     ("--config".toList, "service_tier".toList ++ '=' :: '"' :: ("fast".toList ++ ['"']))]
  else [("--disable".toList, "fast_mode".toList)]

/-- The options of the command that `launch` builds. -/
def codexOptions : List (Text × Text) :=
  headOptions taskSelection ++ modelOptions unprintable target ++ effortOptions effort ++
    fastOptions fast

end Command

/-- `configure_automated_codex_subcommand_with_direction`. -/
def automatedSubcommand (path : Text) (resume : Option Text) (prompt : Text) : List Text :=
  "exec".toList :: resume.elim ["--skip-git-repo-check".toList, "-C".toList, path, prompt] fun session =>
    ["resume".toList, "--skip-git-repo-check".toList, session, prompt]

/-- The arguments of the command that `launch` builds. -/
def codexCommand (unprintable : Char → Bool) (taskSelection : AgentTaskSelection)
    (settings : CodexSettings) (defaults : LaunchDefaults) (path : Text) (resume : Option Text)
    (prompt : Text) : List Text :=
  ((codexOptions unprintable taskSelection (providerAndModel settings defaults)
      (reasoningEffort settings defaults) settings.codexFastEnabled).flatMap fun option =>
        [option.1, option.2]).map commandArg ++
    (automatedSubcommand path resume prompt).map commandArg

/-! ## Reading it back -/

/-- A value of the app server's configuration. -/
inductive ConfigValue where
  | text (value : Text)
  | flag (value : Bool)

/-- `params`. -/
structure LaunchParams where
  sandbox : Option Text
  approvalPolicy : Option Text
  model : Option Text
  modelProvider : Option ConfigValue
  config : List (Text × ConfigValue)

/-- `LaunchSpec`, as far as it comes from the arguments. -/
structure AppServer.LaunchSpec where
  arguments : List Text
  params : LaunchParams
  prompt : Text
  resume : Option Text

/-- A key is set in an object. -/
def setKey (key : Text) (value : ConfigValue) :
    List (Text × ConfigValue) → List (Text × ConfigValue)
  | [] => [(key, value)]
  | (other, old) :: rest =>
    if other = key then (key, value) :: rest else (other, old) :: setKey key value rest

/-- The options read so far. -/
structure ReadOptions where
  arguments : List Text
  params : LaunchParams

def ReadOptions.start : ReadOptions where
  arguments := ["app-server".toList, "--listen".toList, "stdio://".toList]
  params := ⟨none, none, none, none, []⟩

/-- A key of the configuration is set, and the provider with it when it is that key. -/
def ReadOptions.setConfig (read : ReadOptions) (key : Text) (value : ConfigValue) (raw : Text) :
    ReadOptions where
  arguments := read.arguments ++ ["--config".toList, raw]
  params := { read.params with
    modelProvider := if key = "model_provider".toList then some value else read.params.modelProvider
    config := setKey key value read.params.config }

def ReadOptions.setFeature (read : ReadOptions) (flag value : Text) : ReadOptions where
  arguments := read.arguments ++ [flag, value]
  params := { read.params with
    config := setKey ("features.".toList ++ value) (.flag (flag = "--enable".toList))
      read.params.config }

section Read

variable (toml : Text → Except String TomlDocument)

/-- The configuration in the value of an option. -/
def readConfig (read : ReadOptions) (value : Text) : Except String ReadOptions :=
  if '=' ∈ value then
    (toml value).bind fun document =>
      match document (value.takeWhile (· != '=')) with
      | none => .error "Unsupported Codex configuration"
      | some (.string text) => .ok (read.setConfig (value.takeWhile (· != '=')) (.text text) value)
      | some (.boolean flag) => .ok (read.setConfig (value.takeWhile (· != '=')) (.flag flag) value)
      | some .other => .error ("Unsupported automated Codex configuration: " ++
          String.ofList (value.takeWhile (· != '=')))
  else .error "Invalid Codex configuration"

/-- One turn of the loop over the options. -/
def readOption (read : ReadOptions) (flag value : Text) : Except String ReadOptions :=
  if flag = "--sandbox".toList then
    .ok { read with params := { read.params with sandbox := some value } }
  else if flag = "--ask-for-approval".toList then
    .ok { read with params := { read.params with approvalPolicy := some value } }
  else if flag = "--model".toList then
    .ok { read with params := { read.params with model := some value } }
  else if flag = "--config".toList then readConfig toml read value
  else if flag = "--enable".toList ∨ flag = "--disable".toList then .ok (read.setFeature flag value)
  else .error ("Unsupported automated Codex flag: " ++ String.ofList flag)

/-- The loop over the options, and the arguments behind `exec`. -/
def readOptions (read : ReadOptions) : List Text → Except String (ReadOptions × List Text)
  | [] => .error "Missing automated Codex subcommand"
  | [flag] =>
    if flag = "exec".toList then .ok (read, []) else .error "Missing Codex option value"
  | flag :: value :: rest =>
    if flag = "exec".toList then .ok (read, value :: rest)
    else (readOption toml read flag value).bind fun read => readOptions read rest

/-- The session and the prompt in the arguments behind `exec`. -/
def readTail : List Text → Except String (Option Text × Text)
  | [first, second, third, prompt] =>
    if first = "resume".toList ∧ second = "--skip-git-repo-check".toList then .ok (some third, prompt)
    else if first = "--skip-git-repo-check".toList ∧ second = "-C".toList then .ok (none, prompt)
    else .error "Unsupported automated Codex command shape"
  | _ => .error "Unsupported automated Codex command shape"

/-- `launch_spec`. -/
def launchSpec (args : List Text) : Except String AppServer.LaunchSpec :=
  (readOptions toml .start args).bind fun read =>
    (readTail read.2).map fun tail =>
      { arguments := read.1.arguments, params := read.1.params, prompt := tail.2, resume := tail.1 }

end Read

/-! ## The provider in its quotes -/

/-- A character that TOML reads back from what `Debug` writes. -/
def debugKeeps (unprintable : Char → Bool) (c : Char) : Bool :=
  ['\t', '\r', '\n', '\\', '"'].contains c ||
    !(c.toNat < 0x20 || c.toNat = 0x7F || unprintable c)

section Debug

variable {unprintable : Char → Bool}

theorem readBasic_debugChar {c : Char} (u : Text) (h : debugKeeps unprintable c = true) :
    readBasic .plain (debugChar unprintable c ++ u) =
      (readBasic .plain u).map fun read => (c :: read.1, read.2) := by
  unfold debugChar
  split_ifs with hnul htab hreturn hnewline hescape htable
  · subst hnul
    cases h
  · subst htab; rfl
  · subst hreturn; rfl
  · subst hnewline; rfl
  · rcases hescape with rfl | rfl
    · rfl
    · rfl
  · have hnone : ['\t', '\r', '\n', '\\', '"'].contains c = false := by
      rw [not_or] at hescape
      simp only [List.contains_cons, List.contains_nil, Bool.or_false, Bool.or_eq_false_iff,
        beq_eq_false_iff_ne]
      exact ⟨htab, hreturn, hnewline, hescape.1, hescape.2⟩
    rw [debugKeeps, hnone, htable] at h
    cases h
  · rw [not_or] at hescape
    simp only [Bool.or_eq_true, decide_eq_true_eq, not_or] at htable
    have hcontrol : isTomlControl c = false := by
      simp only [isTomlControl, Bool.or_eq_false_iff, Bool.and_eq_false_iff, decide_eq_false_iff_not]
      exact ⟨.inl htable.1.1, htable.1.2⟩
    rw [List.singleton_append, readBasic, if_neg hescape.2, if_neg hescape.1, hcontrol,
      if_neg Bool.false_ne_true]

/-- What `Debug` writes as a code in braces or as `\0` is no escape of TOML. -/
theorem readBasic_debugChar_none {c : Char} (u : Text) (h : debugKeeps unprintable c = false) :
    readBasic .plain (debugChar unprintable c ++ u) = none := by
  rw [debugKeeps, Bool.or_eq_false_iff, Bool.not_eq_false'] at h
  obtain ⟨hnone, htable⟩ := h
  simp only [List.contains_cons, List.contains_nil, Bool.or_false, Bool.or_eq_false_iff,
    beq_eq_false_iff_ne] at hnone
  obtain ⟨htab, hreturn, hnewline, hback, hquote⟩ := hnone
  unfold debugChar
  by_cases hnul : c = '\x00'
  · rw [if_pos hnul]
    rfl
  · rw [if_neg hnul, if_neg htab, if_neg hreturn, if_neg hnewline,
      if_neg (not_or.mpr ⟨hback, hquote⟩), if_pos htable]
    rfl

theorem readBasic_debug {t : Text} (u : Text) (h : t.all (debugKeeps unprintable) = true) :
    readBasic .plain (t.flatMap (debugChar unprintable) ++ u) =
      (readBasic .plain u).map fun read => (t ++ read.1, read.2) := by
  induction t with
  | nil =>
    show readBasic .plain u = (readBasic .plain u).map id
    rw [Option.map_id_fun]
    rfl
  | cons c t ih =>
    rw [List.all_cons, Bool.and_eq_true] at h
    rw [List.flatMap_cons, List.append_assoc, readBasic_debugChar _ h.1, ih h.2, Option.map_map]
    rfl

theorem readBasic_debug_none {t : Text} (u : Text) (h : t.all (debugKeeps unprintable) = false) :
    readBasic .plain (t.flatMap (debugChar unprintable) ++ u) = none := by
  induction t with
  | nil => cases h
  | cons c t ih =>
    rw [List.flatMap_cons, List.append_assoc]
    cases hc : debugKeeps unprintable c with
    | false => exact readBasic_debugChar_none _ hc
    | true =>
      rw [List.all_cons, hc, Bool.true_and] at h
      rw [readBasic_debugChar _ hc, ih h]
      rfl

theorem nul_not_mem_toDigitsCore {fuel n : Nat} {digits : Text} (h : '\x00' ∉ digits) :
    '\x00' ∉ Nat.toDigitsCore 16 fuel n digits := by
  have hdigit : ∀ m < 16, '\x00' ≠ Nat.digitChar m := by decide
  induction fuel generalizing n digits with
  | zero => exact h
  | succ fuel ih =>
    have hcons : '\x00' ∉ Nat.digitChar (n % 16) :: digits := by
      rw [List.mem_cons, not_or]
      exact ⟨hdigit _ (Nat.mod_lt n (by decide)), h⟩
    rw [Nat.toDigitsCore]
    split
    · exact hcons
    · exact ih hcons

theorem nul_not_mem_toDigits (n : Nat) : '\x00' ∉ Nat.toDigits 16 n := by
  rw [Nat.toDigits]
  exact nul_not_mem_toDigitsCore List.not_mem_nil

theorem nul_not_mem_debugChar (c : Char) : '\x00' ∉ debugChar unprintable c := by
  unfold debugChar
  split_ifs with hnul htab hreturn hnewline hescape htable
  · decide
  · decide
  · decide
  · decide
  · rw [List.mem_cons, List.mem_singleton, not_or]
    exact ⟨by decide, Ne.symm hnul⟩
  · rw [List.mem_append, List.mem_append, not_or, not_or]
    exact ⟨⟨by decide, nul_not_mem_toDigits c.toNat⟩, by decide⟩
  · rw [List.mem_singleton]
    exact Ne.symm hnul

theorem nul_not_mem_providerConfig (provider : Text) :
    '\x00' ∉ providerConfig unprintable provider := by
  have hdebug : '\x00' ∉ provider.flatMap (debugChar unprintable) := by
    rw [List.mem_flatMap]
    rintro ⟨c, -, hmem⟩
    exact nul_not_mem_debugChar c hmem
  intro hmem
  rcases List.mem_append.mp hmem with hkey | hvalue
  · exact absurd hkey (by decide)
  · rcases List.mem_cons.mp hvalue with heq | htext
    · exact absurd heq (by decide)
    · rcases List.mem_append.mp htext with hopen | hclose
      · rcases List.mem_cons.mp hopen with heq | hbody
        · exact absurd heq (by decide)
        · exact hdebug hbody
      · exact absurd (List.mem_singleton.mp hclose) (by decide)

theorem opensMultiLine_debug (t : Text) :
    opensMultiLine (t.flatMap (debugChar unprintable) ++ ['"']) = false := by
  cases t with
  | nil => rfl
  | cons c t =>
    -- The first character is a backslash, or one that is not a quote.
    obtain ⟨d, rest, hchar, hd⟩ : ∃ d rest, debugChar unprintable c = d :: rest ∧ d ≠ '"' := by
      unfold debugChar
      split_ifs with hnul htab hreturn hnewline hescape htable
      · exact ⟨_, _, rfl, by decide⟩
      · exact ⟨_, _, rfl, by decide⟩
      · exact ⟨_, _, rfl, by decide⟩
      · exact ⟨_, _, rfl, by decide⟩
      · exact ⟨_, _, rfl, by decide⟩
      · exact ⟨_, _, rfl, by decide⟩
      · exact ⟨c, [], rfl, (not_or.mp hescape).2⟩
    rw [List.flatMap_cons, hchar, opensMultiLine, decide_eq_false_iff_not]
    intro htake
    exact hd (List.cons.inj htake).1

end Debug


end Clt
