import Clt.Runner.CodexCommand

/-!
# The launch of the app server

`launch_spec` reads the options of a Codex command one after another. What it makes of the options of
a run is the run's provider, model, effort and features when TOML reads back the strings between the
quotes.
-/

namespace Clt

open Markup

/-! ## The loop over the options -/

section Loop

variable {toml : Text → Except String TomlDocument} {read : ReadOptions}

/-- The options of a command are read one after another, up to the subcommand. -/
theorem readOptions_append {options : List (Text × Text)}
    (hflag : ∀ option ∈ options, option.1 ≠ "exec".toList) (tail : List Text) (hne : tail ≠ []) :
    readOptions toml read ((options.flatMap fun option => [option.1, option.2]) ++
        "exec".toList :: tail) =
      (options.foldlM (fun read option => readOption toml read option.1 option.2) read).map
        fun read => (read, tail) := by
  induction options generalizing read with
  | nil =>
    cases tail with
    | nil => exact absurd rfl hne
    | cons value rest =>
      show readOptions toml read ("exec".toList :: value :: rest) = .ok (read, value :: rest)
      rw [readOptions, if_pos rfl]
  | cons option options ih =>
    rw [List.flatMap_cons, List.append_assoc]
    show readOptions toml read (option.1 :: option.2 :: _) = _
    rw [readOptions, if_neg (hflag option List.mem_cons_self), List.foldlM_cons]
    cases readOption toml read option.1 option.2 with
    | error message => rfl
    | ok next => exact ih fun o ho => hflag o (List.mem_cons_of_mem _ ho)

theorem readOption_model (value : Text) : readOption toml read "--model".toList value =
    .ok { read with params := { read.params with model := some value } } := rfl

theorem readOption_config (value : Text) :
    readOption toml read "--config".toList value = readConfig toml read value := rfl

/-- A document with one string sets its key. -/
theorem readConfig_eq {key t value : Text} {document : TomlDocument} (hkey : isBareKey key = true)
    (hparse : toml (key ++ '=' :: '"' :: t) = .ok document)
    (hget : document key = some (.string value)) :
    readConfig toml read (key ++ '=' :: '"' :: t) =
      .ok (read.setConfig key (.text value) (key ++ '=' :: '"' :: t)) := by
  have hmem : '=' ∈ key ++ '=' :: '"' :: t := List.mem_append_right _ List.mem_cons_self
  rw [readConfig, if_pos hmem, hparse, Text.takeWhile_bne_append _ (equals_not_mem_of_isBareKey hkey)]
  dsimp only [Except.bind]
  rw [hget]

theorem readConfig_of_readBasic (h : ReadsStrings toml) {key t value : Text}
    (hkey : isBareKey key = true) (hmulti : opensMultiLine t = false)
    (hread : readBasic .plain t = some (value, [])) :
    readConfig toml read (key ++ '=' :: '"' :: t) =
      .ok (read.setConfig key (.text value) (key ++ '=' :: '"' :: t)) := by
  obtain ⟨document, hparse, hget⟩ := h.line key t value hkey hmulti hread
  exact readConfig_eq hkey hparse hget

theorem toml_of_readConfig {key t : Text} {next : ReadOptions}
    (hread : readConfig toml read (key ++ '=' :: t) = .ok next) :
    ∃ document, toml (key ++ '=' :: t) = .ok document := by
  rw [readConfig, if_pos (List.mem_append_right _ List.mem_cons_self)] at hread
  cases hparse : toml (key ++ '=' :: t) with
  | error message =>
    rw [hparse] at hread
    cases hread
  | ok document => exact ⟨document, rfl⟩

/-- What a document that begins with a string of one line sets. -/
theorem of_readConfig_basic (h : ReadsStrings toml) {key t : Text} {next : ReadOptions}
    (hkey : isBareKey key = true) (hmulti : opensMultiLine t = false)
    (hread : readConfig toml read (key ++ '=' :: '"' :: t) = .ok next) :
    ∃ value rest, next = read.setConfig key (.text value) (key ++ '=' :: '"' :: t) ∧
      readBasic .plain t = some (value, rest) := by
  obtain ⟨document, hparse⟩ := toml_of_readConfig hread
  obtain ⟨value, rest, hbasic, hget⟩ := h.first key t document hkey hmulti hparse
  rw [readConfig_eq hkey hparse hget] at hread
  exact ⟨value, rest, (Except.ok.inj hread).symm, hbasic⟩

/-- What a document that begins with a string of several lines sets. -/
theorem of_readConfig_multiLine (h : ReadsStrings toml) {key t : Text} {next : ReadOptions}
    (hkey : isBareKey key = true) (hmulti : opensMultiLine t = true)
    (hread : readConfig toml read (key ++ '=' :: '"' :: t) = .ok next) :
    ∃ value, next = read.setConfig key (.text value) (key ++ '=' :: '"' :: t) ∧
      value.length + 5 ≤ t.length := by
  obtain ⟨document, hparse⟩ := toml_of_readConfig hread
  obtain ⟨value, hlength, hget⟩ := h.multiLine key t document hkey hmulti hparse
  rw [readConfig_eq hkey hparse hget] at hread
  exact ⟨value, (Except.ok.inj hread).symm, hlength⟩

end Loop

/-! ## What each option sets -/

section Options

variable {toml : Text → Except String TomlDocument} {unprintable : Char → Bool} {read : ReadOptions}

theorem commandArg_eq_self {t : Text} (h : '\x00' ∉ t) : commandArg t = t := if_neg h

theorem commandArg_eq_self_iff {t : Text} : commandArg t = t ↔ '\x00' ∉ t := by
  constructor
  · intro heq hmem
    rw [commandArg, if_pos hmem] at heq
    rw [← heq] at hmem
    exact absurd hmem (by decide)
  · exact commandArg_eq_self

/-- The provider is read back, or nothing is. -/
theorem readConfig_provider_iff (h : ReadsStrings toml) (provider : Text) {next : ReadOptions} :
    readConfig toml read (commandArg (providerConfig unprintable provider)) = .ok next ↔
      provider.all (debugKeeps unprintable) = true ∧
        next = read.setConfig "model_provider".toList (.text provider)
          (providerConfig unprintable provider) := by
  rw [commandArg_eq_self (nul_not_mem_providerConfig provider)]
  have hkey : isBareKey "model_provider".toList = true := by decide
  constructor
  · intro hread
    obtain ⟨value, rest, hnext, hbasic⟩ := of_readConfig_basic h hkey (opensMultiLine_debug provider)
      hread
    -- A character that is not kept makes the string end in an error, never in another string.
    cases hkeeps : provider.all (debugKeeps unprintable) with
    | false =>
      rw [readBasic_debug_none _ hkeeps] at hbasic
      cases hbasic
    | true =>
      rw [readBasic_debug _ hkeeps] at hbasic
      have heq : provider ++ [] = value := (Prod.mk.inj (Option.some.inj hbasic)).1
      rw [List.append_nil] at heq
      exact ⟨rfl, heq ▸ hnext⟩
  · rintro ⟨hkeeps, rfl⟩
    refine readConfig_of_readBasic h hkey (opensMultiLine_debug provider) ?_
    show readBasic .plain (provider.flatMap (debugChar unprintable) ++ ['"']) = _
    rw [readBasic_debug _ hkeeps]
    show some (provider ++ [], []) = _
    rw [List.append_nil]

theorem opensMultiLine_effort {effort : Text} (h : effort.all isTomlPlain = true) :
    opensMultiLine (effort ++ ['"']) = false := by
  cases effort with
  | nil => rfl
  | cons c effort =>
    rw [List.all_cons, Bool.and_eq_true] at h
    rw [List.cons_append, opensMultiLine, decide_eq_false_iff_not]
    intro htake
    obtain rfl : c = '"' := (List.cons.inj htake).1
    exact absurd h.1 (by decide)

theorem nul_not_mem_of_plain {t : Text} (h : t.all isTomlPlain = true) : '\x00' ∉ t := by
  intro hmem
  rw [List.all_eq_true] at h
  exact absurd (h _ hmem) (by decide)

theorem nul_not_mem_effortConfig_iff {effort : Text} :
    '\x00' ∉ effortConfig effort ↔ '\x00' ∉ effort := by
  constructor
  · intro h hmem
    exact h (List.mem_append_right _ (List.mem_cons_of_mem _ (List.mem_cons_of_mem _
      (List.mem_append_left _ hmem))))
  · intro h hmem
    rcases List.mem_append.mp hmem with hkey | hvalue
    · exact absurd hkey (by decide)
    · rcases List.mem_cons.mp hvalue with heq | htext
      · exact absurd heq (by decide)
      · rcases List.mem_cons.mp htext with heq | hbody
        · exact absurd heq (by decide)
        · rcases List.mem_append.mp hbody with heffort | hclose
          · exact h heffort
          · exact absurd (List.mem_singleton.mp hclose) (by decide)

/-- A plain effort is read back. -/
theorem readConfig_effort (h : ReadsStrings toml) {effort : Text}
    (hplain : effort.all isTomlPlain = true) :
    readConfig toml read (commandArg (effortConfig effort)) =
      .ok (read.setConfig "model_reasoning_effort".toList (.text effort) (effortConfig effort)) := by
  rw [commandArg_eq_self (nul_not_mem_effortConfig_iff.mpr (nul_not_mem_of_plain hplain))]
  exact readConfig_of_readBasic h (by decide) (opensMultiLine_effort hplain) (readBasic_plain hplain)

/-- What is read back is the effort only if it is plain. -/
theorem of_readConfig_effort (h : ReadsStrings toml) {effort : Text} {next : ReadOptions}
    (hread : readConfig toml read (commandArg (effortConfig effort)) = .ok next) :
    ∃ value raw, next = read.setConfig "model_reasoning_effort".toList (.text value) raw ∧
      (value = effort → effort.all isTomlPlain = true) := by
  have hkey : isBareKey "model_reasoning_effort".toList = true := by decide
  by_cases hnul : '\x00' ∈ effort
  · -- The argument is replaced by a text that has no equals sign.
    have hreplaced : commandArg (effortConfig effort) = "<string-with-nul>".toList :=
      if_pos (not_not.mp fun hmem => nul_not_mem_effortConfig_iff.mp hmem hnul)
    rw [hreplaced] at hread
    cases hread
  · rw [commandArg_eq_self (nul_not_mem_effortConfig_iff.mpr hnul)] at hread
    cases hmulti : opensMultiLine (effort ++ ['"']) with
    | false =>
      obtain ⟨value, rest, hnext, hbasic⟩ := of_readConfig_basic h hkey hmulti hread
      refine ⟨value, _, hnext, ?_⟩
      rintro rfl
      exact all_of_readBasic hbasic rfl
    | true =>
      obtain ⟨value, hnext, hlength⟩ := of_readConfig_multiLine h hkey hmulti hread
      refine ⟨value, _, hnext, ?_⟩
      rintro rfl
      simp only [List.length_append, List.length_cons, List.length_nil] at hlength
      omega

end Options

/-! ## The launch -/

section Launch

variable {toml : Text → Except String TomlDocument} {unprintable : Char → Bool} {read : ReadOptions}
  {taskSelection : AgentTaskSelection} {target : Option (Text × Text)} {effort : Option Text}
  {fast : Bool}

/-- An option as `get_args` gives it back. -/
def passed (option : Text × Text) : Text × Text := (commandArg option.1, commandArg option.2)

/-- The options of a block, read one after another. -/
def readAll (toml : Text → Except String TomlDocument) (read : ReadOptions)
    (options : List (Text × Text)) : Except String ReadOptions :=
  (options.map passed).foldlM (fun read option => readOption toml read option.1 option.2) read

theorem readAll_append (options others : List (Text × Text)) :
    readAll toml read (options ++ others) =
      (readAll toml read options).bind fun read => readAll toml read others := by
  rw [readAll, List.map_append, List.foldlM_append]
  rfl

theorem readAll_cons (option : Text × Text) (options : List (Text × Text)) :
    readAll toml read (option :: options) =
      (readOption toml read (commandArg option.1) (commandArg option.2)).bind fun read =>
        readAll toml read options := rfl

theorem passed_flag_ne_exec : ∀ option ∈ (codexOptions unprintable taskSelection target effort
    fast).map passed, option.1 ≠ "exec".toList := by
  have hhead : ∀ option ∈ headOptions taskSelection, commandArg option.1 ≠ "exec".toList := by
    cases taskSelection <;> decide
  have hmodel : ∀ option ∈ modelOptions unprintable target, commandArg option.1 ≠ "exec".toList := by
    cases target with
    | none => exact fun _ hmem => absurd hmem List.not_mem_nil
    | some target =>
      rw [modelOptions, Option.elim_some, List.forall_mem_cons, List.forall_mem_singleton]
      exact ⟨(by decide : commandArg "--config".toList ≠ "exec".toList),
        (by decide : commandArg "--model".toList ≠ "exec".toList)⟩
  have heffort : ∀ option ∈ effortOptions effort, commandArg option.1 ≠ "exec".toList := by
    cases effort with
    | none => exact fun _ hmem => absurd hmem List.not_mem_nil
    | some effort =>
      rw [effortOptions, Option.elim_some, List.forall_mem_singleton]
      exact (by decide : commandArg "--config".toList ≠ "exec".toList)
  have hfast : ∀ option ∈ fastOptions fast, commandArg option.1 ≠ "exec".toList := by
    cases fast <;> decide
  rw [List.forall_mem_map, codexOptions]
  simp only [List.forall_mem_append]
  exact ⟨⟨⟨hhead, hmodel⟩, heffort⟩, hfast⟩

/-- The session and the prompt that the command ends with. -/
theorem readTail_automatedSubcommand (path : Text) (resume : Option Text) (prompt : Text) :
    ∃ tail, (automatedSubcommand path resume prompt).map commandArg = "exec".toList :: tail ∧
      tail ≠ [] ∧ readTail tail = .ok (resume.map commandArg, commandArg prompt) := by
  cases resume with
  | none => exact ⟨_, rfl, List.cons_ne_nil _ _, rfl⟩
  | some session => exact ⟨_, rfl, List.cons_ne_nil _ _, rfl⟩

theorem launchSpec_codexCommand (settings : CodexSettings) (defaults : LaunchDefaults) (path : Text)
    (resume : Option Text) (prompt : Text) :
    launchSpec toml (codexCommand unprintable taskSelection settings defaults path resume prompt) =
      (readAll toml .start (codexOptions unprintable taskSelection
        (providerAndModel settings defaults) (reasoningEffort settings defaults)
        settings.codexFastEnabled)).map fun read =>
          { arguments := read.arguments, params := read.params, prompt := commandArg prompt
            resume := resume.map commandArg } := by
  obtain ⟨tail, htail, hne, hread⟩ := readTail_automatedSubcommand path resume prompt
  -- The arguments are the options two by two, each as the command hands it on.
  have hflatten : ∀ options : List (Text × Text),
      (options.flatMap fun option => [option.1, option.2]).map commandArg =
        (options.map passed).flatMap fun option => [option.1, option.2] := by
    intro options
    rw [List.map_flatMap, List.flatMap_map]
    rfl
  rw [launchSpec, codexCommand, htail, hflatten, readOptions_append passed_flag_ne_exec tail hne]
  show Except.bind (Except.map _ (readAll toml .start _)) _ = _
  cases readAll toml .start (codexOptions unprintable taskSelection
      (providerAndModel settings defaults) (reasoningEffort settings defaults)
      settings.codexFastEnabled) with
  | error message => rfl
  | ok read =>
    show Except.map _ (readTail tail) = _
    rw [hread]
    rfl

/-! ## What the app server is given -/

def goalsEntry (taskSelection : AgentTaskSelection) : List (Text × ConfigValue) :=
  [("features.goals".toList, .flag (taskSelection ≠ .supervisorReview))]

def providerEntry (target : Option (Text × Text)) : List (Text × ConfigValue) :=
  target.elim [] fun target => [("model_provider".toList, .text target.1)]

def effortEntry (effort : Option Text) : List (Text × ConfigValue) :=
  effort.elim [] fun effort => [("model_reasoning_effort".toList, .text effort)]

def fastEntry (fast : Bool) : List (Text × ConfigValue) :=
  if fast then
    [("features.fast_mode".toList, .flag true), ("service_tier".toList, .text "fast".toList)]
  else [("features.fast_mode".toList, .flag false)]

/-- A specification that has the provider, the model, the effort and the features of a run, its
session and its prompt, and no other configuration. -/
structure AppServer.LaunchSpec.Carries (spec : AppServer.LaunchSpec) (taskSelection : AgentTaskSelection)
    (target : Option (Text × Text)) (effort : Option Text) (fast : Bool) (resume : Option Text)
    (prompt : Text) : Prop where
  provider : spec.params.modelProvider = target.map fun target => .text target.1
  model : spec.params.model = target.map Prod.snd
  config : spec.params.config =
    goalsEntry taskSelection ++ providerEntry target ++ effortEntry effort ++ fastEntry fast
  resume : spec.resume = resume
  prompt : spec.prompt = prompt

theorem setKey_eq_append {key : Text} {value : ConfigValue} {entries : List (Text × ConfigValue)}
    (h : ∀ entry ∈ entries, entry.1 ≠ key) :
    setKey key value entries = entries ++ [(key, value)] := by
  induction entries with
  | nil => rfl
  | cons entry entries ih =>
    obtain ⟨other, old⟩ := entry
    rw [setKey, if_neg (h (other, old) List.mem_cons_self),
      ih fun e he => h e (List.mem_cons_of_mem _ he)]
    rfl

/-- The parameters with more entries of the configuration. -/
def LaunchParams.withConfig (params : LaunchParams) (entries : List (Text × ConfigValue)) :
    LaunchParams :=
  { params with config := params.config ++ entries }

/-- The parameters with the provider and the model of a run. -/
def LaunchParams.withTarget (params : LaunchParams) (target : Option (Text × Text)) : LaunchParams :=
  { params with
    model := (target.map fun target => commandArg target.2).or params.model
    modelProvider := (target.map fun target => ConfigValue.text target.1).or params.modelProvider
    config := params.config ++ providerEntry target }

theorem readAll_config (config : Text) (options : List (Text × Text)) :
    readAll toml read (("--config".toList, config) :: options) =
      (readConfig toml read (commandArg config)).bind fun read => readAll toml read options := rfl

/-- The parameters that the options in front of the model set. -/
def headParams (taskSelection : AgentTaskSelection) : LaunchParams where
  sandbox := if taskSelection = .supervisorReview then "read-only".toList
    else "danger-full-access".toList
  approvalPolicy := "never".toList
  model := none
  modelProvider := none
  config := goalsEntry taskSelection

/-- The parameters of a run, with the effort that was read. -/
def runParams (taskSelection : AgentTaskSelection) (target : Option (Text × Text))
    (effort : Option Text) (fast : Bool) : LaunchParams :=
  (((headParams taskSelection).withTarget target).withConfig (effortEntry effort)).withConfig
    (fastEntry fast)

theorem readAll_headOptions : ∃ arguments,
    readAll toml .start (headOptions taskSelection) = .ok ⟨arguments, headParams taskSelection⟩ := by
  cases taskSelection <;> exact ⟨_, rfl⟩

/-- The provider and the model are read when TOML reads back what `Debug` writes. -/
theorem readAll_modelOptions (h : ReadsStrings toml)
    (hconfig : ∀ entry ∈ read.params.config, entry.1 ≠ "model_provider".toList)
    (hkeeps : ∀ t ∈ target, t.1.all (debugKeeps unprintable) = true) :
    ∃ arguments, readAll toml read (modelOptions unprintable target) =
      .ok ⟨arguments, read.params.withTarget target⟩ := by
  cases target with
  | none =>
    refine ⟨read.arguments, ?_⟩
    rw [LaunchParams.withTarget, providerEntry, Option.elim_none, List.append_nil]
    rfl
  | some target =>
    have hread : readConfig toml read (commandArg (providerConfig unprintable target.1)) =
        .ok (read.setConfig "model_provider".toList (.text target.1)
          (providerConfig unprintable target.1)) :=
      (readConfig_provider_iff h target.1).mpr ⟨hkeeps target rfl, rfl⟩
    rw [modelOptions, Option.elim_some, readAll_config, hread]
    refine ⟨read.arguments ++ ["--config".toList, providerConfig unprintable target.1], ?_⟩
    rw [LaunchParams.withTarget, providerEntry, Option.elim_some, ← setKey_eq_append hconfig]
    rfl

theorem of_readAll_modelOptions (h : ReadsStrings toml) {next : ReadOptions}
    (hread : readAll toml read (modelOptions unprintable target) = .ok next) :
    ∀ t ∈ target, t.1.all (debugKeeps unprintable) = true := by
  rintro t rfl
  rw [modelOptions, Option.elim_some, readAll_config] at hread
  cases hconfig : readConfig toml read (commandArg (providerConfig unprintable t.1)) with
  | error message =>
    rw [hconfig] at hread
    cases hread
  | ok read' => exact ((readConfig_provider_iff h t.1).mp hconfig).1

/-- A plain effort is read. -/
theorem readAll_effortOptions (h : ReadsStrings toml)
    (hconfig : ∀ entry ∈ read.params.config, entry.1 ≠ "model_reasoning_effort".toList)
    (hplain : ∀ t ∈ effort, t.all isTomlPlain = true) :
    ∃ arguments, readAll toml read (effortOptions effort) =
      .ok ⟨arguments, read.params.withConfig (effortEntry effort)⟩ := by
  cases effort with
  | none =>
    refine ⟨read.arguments, ?_⟩
    rw [LaunchParams.withConfig, effortEntry, Option.elim_none, List.append_nil]
    rfl
  | some effort =>
    rw [effortOptions, Option.elim_some, readAll_config, readConfig_effort h (hplain effort rfl)]
    refine ⟨read.arguments ++ ["--config".toList, effortConfig effort], ?_⟩
    rw [LaunchParams.withConfig, effortEntry, Option.elim_some, ← setKey_eq_append hconfig]
    rfl

/-- Some effort is read, which is the given one only if that is plain. -/
theorem of_readAll_effortOptions (h : ReadsStrings toml) {next : ReadOptions}
    (hconfig : ∀ entry ∈ read.params.config, entry.1 ≠ "model_reasoning_effort".toList)
    (hread : readAll toml read (effortOptions effort) = .ok next) :
    ∃ value, next.params = read.params.withConfig (effortEntry value) ∧
      (value = effort → ∀ t ∈ effort, t.all isTomlPlain = true) := by
  cases effort with
  | none =>
    cases hread
    refine ⟨none, ?_, fun _ t ht => by cases ht⟩
    rw [LaunchParams.withConfig, effortEntry, Option.elim_none, List.append_nil]
  | some effort =>
    rw [effortOptions, Option.elim_some, readAll_config] at hread
    cases hvalue : readConfig toml read (commandArg (effortConfig effort)) with
    | error message =>
      rw [hvalue] at hread
      cases hread
    | ok read' =>
      -- What is set is the string that TOML reads, which may be shorter than the effort.
      obtain ⟨value, raw, hread', hplain⟩ := of_readConfig_effort h hvalue
      rw [hvalue] at hread
      cases hread
      refine ⟨some value, ?_, ?_⟩
      · rw [hread', LaunchParams.withConfig, effortEntry, Option.elim_some,
          ← setKey_eq_append hconfig]
        rfl
      · intro heq t ht
        cases ht
        exact hplain (Option.some.inj heq)

/-- The fast mode is read as it is set. -/
theorem readAll_fastOptions (h : ReadsStrings toml)
    (hmode : ∀ entry ∈ read.params.config, entry.1 ≠ "features.fast_mode".toList)
    (htier : ∀ entry ∈ read.params.config, entry.1 ≠ "service_tier".toList) :
    ∃ arguments, readAll toml read (fastOptions fast) =
      .ok ⟨arguments, read.params.withConfig (fastEntry fast)⟩ := by
  cases fast with
  | false =>
    refine ⟨read.arguments ++ ["--disable".toList, "fast_mode".toList], ?_⟩
    rw [LaunchParams.withConfig, fastEntry, if_neg Bool.false_ne_true, ← setKey_eq_append hmode]
    rfl
  | true =>
    have hconfig : ∀ entry ∈ read.params.config ++
        [("features.fast_mode".toList, ConfigValue.flag true)], entry.1 ≠ "service_tier".toList := by
      rw [List.forall_mem_append, List.forall_mem_singleton]
      exact ⟨htier, (by decide : "features.fast_mode".toList ≠ "service_tier".toList)⟩
    -- The tier is a constant that TOML reads.
    have hread : ∀ read : ReadOptions,
        readConfig toml read ("service_tier".toList ++ '=' :: '"' :: ("fast".toList ++ ['"'])) =
          .ok (read.setConfig "service_tier".toList (.text "fast".toList)
            ("service_tier".toList ++ '=' :: '"' :: ("fast".toList ++ ['"']))) := fun read =>
      readConfig_of_readBasic h (by decide) (by decide) (readBasic_plain (by decide))
    refine ⟨read.arguments ++ ["--enable".toList, "fast_mode".toList] ++ ["--config".toList,
      "service_tier".toList ++ '=' :: '"' :: ("fast".toList ++ ['"'])], ?_⟩
    rw [fastOptions, if_pos rfl, readAll_cons]
    show readAll toml (read.setFeature "--enable".toList "fast_mode".toList) _ = _
    rw [readAll_config, commandArg_eq_self (by decide), hread]
    have hentries : fastEntry true = [("features.fast_mode".toList, ConfigValue.flag true)] ++
        [("service_tier".toList, .text "fast".toList)] := rfl
    rw [LaunchParams.withConfig, hentries, ← List.append_assoc, ← setKey_eq_append hconfig,
      ← setKey_eq_append hmode]
    rfl

/-! ## What comes back -/

/-- The strings of a run that come back: TOML reads back the provider and the effort, and no
argument has a NUL. -/
structure KeptByLaunch (unprintable : Char → Bool) (target : Option (Text × Text))
    (effort resume : Option Text) (prompt : Text) : Prop where
  provider : ∀ t ∈ target, t.1.all (debugKeeps unprintable) = true
  model : ∀ t ∈ target, '\x00' ∉ t.2
  effort : ∀ t ∈ effort, t.all isTomlPlain = true
  session : ∀ t ∈ resume, '\x00' ∉ t
  prompt : '\x00' ∉ prompt

theorem effortEntry_inj {value : Option Text} (h : effortEntry value = effortEntry effort) :
    value = effort := by
  cases value with
  | none =>
    cases effort with
    | none => rfl
    | some effort => cases h
  | some value =>
    cases effort with
    | none => cases h
    | some effort =>
      injection h with hentry
      injection hentry with _ htext
      injection htext with heq
      rw [heq]

/-- A key that is set for the first time behind the provider. -/
theorem key_ne_of_provider {key : Text}
    (hkey : key ∉ ["features.goals".toList, "model_provider".toList]) :
    ∀ entry ∈ goalsEntry taskSelection ++ providerEntry target, entry.1 ≠ key := by
  rw [List.mem_cons, List.mem_singleton, not_or] at hkey
  intro entry hentry
  rcases List.mem_append.mp hentry with hgoals | hprovider
  · rw [List.mem_singleton.mp hgoals]
    exact Ne.symm hkey.1
  · cases target with
    | none => cases hprovider
    | some target =>
      rw [List.mem_singleton.mp hprovider]
      exact Ne.symm hkey.2

/-- A key that is set for the first time behind the effort. -/
theorem key_ne_of_effort (value : Option Text) {key : Text}
    (hkey : key ∉ ["features.goals".toList, "model_provider".toList])
    (heffort : "model_reasoning_effort".toList ≠ key) :
    ∀ entry ∈ goalsEntry taskSelection ++ providerEntry target ++ effortEntry value,
      entry.1 ≠ key := by
  intro entry hentry
  rcases List.mem_append.mp hentry with hfront | hvalue
  · exact key_ne_of_provider hkey entry hfront
  · cases value with
    | none => cases hvalue
    | some value =>
      rw [List.mem_singleton.mp hvalue]
      exact heffort

theorem map_commandArg_eq_iff {t : Option Text} :
    t.map commandArg = t ↔ ∀ s ∈ t, '\x00' ∉ s := by
  cases t with
  | none =>
    constructor
    · intro _ s hs
      cases hs
    · intro _
      rfl
  | some t =>
    rw [Option.map_some, Option.some.injEq, commandArg_eq_self_iff]
    constructor
    · intro h s hs
      cases hs
      exact h
    · intro h
      exact h t rfl

theorem commandArg_model_eq_iff :
    (runParams taskSelection target effort fast).model = target.map Prod.snd ↔
      ∀ t ∈ target, '\x00' ∉ t.2 := by
  have hmodel : (runParams taskSelection target effort fast).model =
      (target.map Prod.snd).map commandArg := by
    rw [Option.map_map]
    exact Option.or_none
  rw [hmodel, map_commandArg_eq_iff]
  constructor
  · intro h t ht
    exact h t.2 (Option.mem_map_of_mem Prod.snd ht)
  · intro h s hs
    obtain ⟨t, ht, rfl⟩ := Option.mem_map.mp hs
    exact h t ht

theorem readAll_codexOptions_eq :
    readAll toml read (codexOptions unprintable taskSelection target effort fast) =
      (((readAll toml read (headOptions taskSelection)).bind fun read =>
        readAll toml read (modelOptions unprintable target)).bind fun read =>
          readAll toml read (effortOptions effort)).bind fun read =>
            readAll toml read (fastOptions fast) := by
  rw [codexOptions, readAll_append, readAll_append, readAll_append]

variable (taskSelection target fast) in
theorem readAll_fast (h : ReadsStrings toml) (arguments : List Text) (value : Option Text) :
    ∃ last, readAll toml ⟨arguments, ((headParams taskSelection).withTarget target).withConfig
        (effortEntry value)⟩ (fastOptions fast) =
      .ok ⟨last, runParams taskSelection target value fast⟩ :=
  readAll_fastOptions h (key_ne_of_effort value (by decide) (by decide))
    (key_ne_of_effort value (by decide) (by decide))

variable (taskSelection) in
theorem readAll_model (h : ReadsStrings toml) (arguments : List Text)
    (hkeeps : ∀ t ∈ target, t.1.all (debugKeeps unprintable) = true) :
    ∃ last, readAll toml ⟨arguments, headParams taskSelection⟩ (modelOptions unprintable target) =
      .ok ⟨last, (headParams taskSelection).withTarget target⟩ := by
  refine readAll_modelOptions h (fun entry hentry => ?_) hkeeps
  rw [List.mem_singleton.mp hentry]
  exact (by decide : "features.goals".toList ≠ "model_provider".toList)

variable (taskSelection fast) in
/-- The options of a run are read when its provider and its effort are kept. -/
theorem readAll_codexOptions (h : ReadsStrings toml)
    (hkeeps : ∀ t ∈ target, t.1.all (debugKeeps unprintable) = true)
    (hplain : ∀ t ∈ effort, t.all isTomlPlain = true) :
    ∃ arguments, readAll toml .start (codexOptions unprintable taskSelection target effort fast) =
      .ok ⟨arguments, runParams taskSelection target effort fast⟩ := by
  obtain ⟨first, hhead⟩ : ∃ arguments, readAll toml .start (headOptions taskSelection) =
    .ok ⟨arguments, headParams taskSelection⟩ := readAll_headOptions
  obtain ⟨second, hmodel⟩ := readAll_model taskSelection h first hkeeps
  obtain ⟨third, heffort⟩ : ∃ arguments, readAll toml ⟨second, (headParams taskSelection).withTarget
      target⟩ (effortOptions effort) = .ok ⟨arguments, ((headParams taskSelection).withTarget
        target).withConfig (effortEntry effort)⟩ :=
    readAll_effortOptions h (key_ne_of_provider (by decide)) hplain
  obtain ⟨fourth, hfast⟩ := readAll_fast taskSelection target fast h third effort
  refine ⟨fourth, ?_⟩
  rw [readAll_codexOptions_eq, hhead]
  show ((readAll toml _ (modelOptions unprintable target)).bind _).bind _ = _
  rw [hmodel]
  show (readAll toml _ (effortOptions effort)).bind _ = _
  rw [heffort]
  exact hfast

/-- When the options of a run are read, its provider is kept, and some effort is read. -/
theorem of_readAll_codexOptions (h : ReadsStrings toml) {last : ReadOptions}
    (hread : readAll toml .start (codexOptions unprintable taskSelection target effort fast) =
      .ok last) :
    (∀ t ∈ target, t.1.all (debugKeeps unprintable) = true) ∧
      ∃ value, last.params = runParams taskSelection target value fast ∧
        (value = effort → ∀ t ∈ effort, t.all isTomlPlain = true) := by
  obtain ⟨first, hhead⟩ : ∃ arguments, readAll toml .start (headOptions taskSelection) =
    .ok ⟨arguments, headParams taskSelection⟩ := readAll_headOptions
  rw [readAll_codexOptions_eq, hhead] at hread
  change ((readAll toml _ (modelOptions unprintable target)).bind _).bind _ = _ at hread
  cases hmodel : readAll toml ⟨first, headParams taskSelection⟩
      (modelOptions unprintable target) with
  | error message =>
    rw [hmodel] at hread
    cases hread
  | ok next =>
    -- Once the provider is known to be kept, what is set for it is known too.
    have hkeeps := of_readAll_modelOptions h hmodel
    obtain ⟨second, hsecond⟩ := readAll_model taskSelection h first hkeeps
    rw [hsecond] at hread
    change (readAll toml _ (effortOptions effort)).bind _ = _ at hread
    cases heffort : readAll toml ⟨second, (headParams taskSelection).withTarget target⟩
        (effortOptions effort) with
    | error message =>
      rw [heffort] at hread
      cases hread
    | ok next =>
      obtain ⟨value, hparams, hplain⟩ := of_readAll_effortOptions h
        (key_ne_of_provider (by decide)) heffort
      obtain ⟨third, params⟩ := next
      cases hparams
      obtain ⟨fourth, hfast⟩ := readAll_fast taskSelection target fast h third value
      rw [heffort] at hread
      change readAll toml ⟨third, ((headParams taskSelection).withTarget target).withConfig
        (effortEntry value)⟩ (fastOptions fast) = _ at hread
      rw [hfast] at hread
      cases hread
      exact ⟨hkeeps, value, rfl, hplain⟩

end Launch

def oddProviderSettings : CodexSettings where
  codexProvider := some "my \"odd\" provider".toList
  codexModel := some "--model".toList
  codexReasoningEffort := some "high".toList
  codexFastEnabled := true

def noDefaults : LaunchDefaults where
  modelDefaults := ⟨none, none⟩
  modelTargetReasoning := fun _ _ => none
  taskReasoningEffort := none

end Clt
