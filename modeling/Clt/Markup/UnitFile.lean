import Clt.Text.Basic

/-!
# Unit files

The rules by which systemd reads a unit: lines and sections, the words of a value, the specifiers in
a word, and the command and the environment that come of them. Words that were quoted are read back
(`words_quoted`), while specifiers are expanded in quotes too.
-/

namespace Markup

/-! ## Lines -/

/-- White space of a unit file. -/
def isUnitSpace (c : Char) : Bool := c = ' ' || c = '\t' || c = '\n' || c = '\r'

/-- A text without the white space around it. -/
def unitTrim (t : Text) : Text := (t.dropWhile isUnitSpace).rdropWhile isUnitSpace

/-- A line that ends with a backslash goes on with the next one. -/
def joinContinued : List Text → List Text
  | [] => []
  | line :: rest =>
    match joinContinued rest with
    | [] => [line]
    | next :: lines =>
      if line.getLast? = some '\\' then (line.dropLast ++ ' ' :: next) :: lines
      else line :: next :: lines

/-- A setting of a section. -/
structure Setting where
  area : Text
  key : Text
  value : Text
  deriving DecidableEq

/-- The key and the value of a line, at its first equals sign. -/
def splitSetting (line : Text) : Option (Text × Text) :=
  if '=' ∈ line then
    some (unitTrim (line.takeWhile (· != '=')), unitTrim ((line.dropWhile (· != '=')).drop 1))
  else none

/-- The settings of the lines, in the section so far. -/
def readLines (area : Text) : List Text → Option (List Setting)
  | [] => some []
  | line :: rest =>
    let line := unitTrim line
    match line with
    | [] => readLines area rest
    | '#' :: _ => readLines area rest
    | ';' :: _ => readLines area rest
    | '[' :: name =>
      if name.getLast? = some ']' then readLines name.dropLast rest else none
    | _ =>
      (splitSetting line).bind fun setting =>
        (readLines area rest).map fun settings => ⟨area, setting.1, setting.2⟩ :: settings

/-- The settings of a unit file. -/
def readUnit (t : Text) : Option (List Setting) := readLines [] (joinContinued (t.splitOn '\n'))

/-! ## Words -/

/-- The character that a backslash and a letter stand for. -/
def unescape (c : Char) : Option Char :=
  if c = '\\' ∨ c = '"' ∨ c = '\'' then some c
  else if c = 'n' then some '\n'
  else if c = 't' then some '\t'
  else if c = 'r' then some '\r'
  else if c = 's' then some ' '
  else if c = 'a' then some '\x07'
  else if c = 'b' then some '\x08'
  else if c = 'f' then some '\x0c'
  else if c = 'v' then some '\x0b'
  else none

/-- Where the next character of a value stands: between words, in a word that no quotes wrap, in a
word that they do, after its closing quote, or after a backslash. -/
inductive WordScan where
  | gap
  | bare (word : Text)
  | quoted (mark : Char) (word : Text)
  | closed (word : Text)
  | escape (mark : Option Char) (word : Text)

/-- The words so far. -/
structure Words where
  done : List Text
  scan : WordScan

namespace Words

/-- The next character; a closing quote ends its word. -/
def step (words : Words) (c : Char) : Option Words :=
  match words.scan with
  | .gap =>
    if isUnitSpace c then some words
    else if c = '"' ∨ c = '\'' then some { words with scan := .quoted c [] }
    else if c = '\\' then some { words with scan := .escape none [] }
    else some { words with scan := .bare [c] }
  | .bare word =>
    if isUnitSpace c then some ⟨words.done ++ [word], .gap⟩
    else if c = '\\' then some { words with scan := .escape none word }
    else some { words with scan := .bare (word ++ [c]) }
  | .quoted mark word =>
    if c = mark then some { words with scan := .closed word }
    else if c = '\\' then some { words with scan := .escape (some mark) word }
    else some { words with scan := .quoted mark (word ++ [c]) }
  | .closed word => if isUnitSpace c then some ⟨words.done ++ [word], .gap⟩ else none
  | .escape none word => (unescape c).map fun c => { words with scan := .bare (word ++ [c]) }
  | .escape (some mark) word =>
    (unescape c).map fun c => { words with scan := .quoted mark (word ++ [c]) }

def read (words : Words) (t : Text) : Option Words := t.foldlM step words

/-- The words when the value ends. -/
def finish (words : Words) : Option (List Text) :=
  match words.scan with
  | .gap => some words.done
  | .bare word => some (words.done ++ [word])
  | .closed word => some (words.done ++ [word])
  | _ => none

theorem read_append (words : Words) (s t : Text) :
    words.read (s ++ t) = (words.read s).bind fun words => words.read t :=
  List.foldlM_append

end Words

/-- The words of a value, without their quotes. -/
def unquoteWords (value : Text) : Option (List Text) :=
  (Words.read ⟨[], .gap⟩ value).bind Words.finish

/-! ## Specifiers -/

/-- The percent signs of a word: two stand for one, and one with a letter of the table for what the
table has. -/
def expandSpecifiers (table : Char → Option Text) : Text → Text
  | '%' :: '%' :: t => '%' :: expandSpecifiers table t
  | '%' :: c :: t => (table c).getD ['%', c] ++ expandSpecifiers table t
  | c :: t => c :: expandSpecifiers table t
  | [] => []

/-- A word without percent signs is left as it is. -/
theorem expandSpecifiers_of_not_mem {table : Char → Option Text} {t : Text} (h : '%' ∉ t) :
    expandSpecifiers table t = t := by
  induction t with
  | nil => rfl
  | cons c t ih =>
    have hc : c ≠ '%' := fun hc => h (hc ▸ List.mem_cons_self)
    have ht := ih fun hmem => h (List.mem_cons_of_mem c hmem)
    rw [expandSpecifiers]
    · rw [ht]
    · rintro t' hhead -
      exact hc hhead
    · rintro d t' hhead -
      exact hc hhead

/-! ## What a service is -/

/-- A command: the program and its arguments. -/
structure Command where
  program : Text
  arguments : List Text
  deriving DecidableEq

/-- The characters in front of a program that say how it is started. -/
def isProgramMark (c : Char) : Bool := "@-:+!|".toList.contains c

/-- The program that a word names: an absolute path, or a file name. -/
def programOf (table : Char → Option Text) (word : Text) : Option Text :=
  let program := expandSpecifiers table (word.dropWhile isProgramMark)
  if program ≠ [] ∧ (program.head? = some '/' ∨ '/' ∉ program) then some program else none

/-- A value of `ExecStart=`. The program may not be a variable; in the arguments variables are
expanded where there is a dollar sign. -/
def readCommand (table : Char → Option Text) (substitute : Text → List Text) (value : Text) :
    Option Command :=
  match unquoteWords value with
  | some (first :: rest) =>
    (programOf table first).map fun program =>
      { program := program
        arguments := rest.flatMap fun word =>
          let word := expandSpecifiers table word
          if '$' ∈ word then substitute word else [word] }
  | _ => none

/-- A value of `Environment=`: names and values. -/
def readEnvironment (table : Char → Option Text) (value : Text) : Option (List (Text × Text)) :=
  (unquoteWords value).bind fun words => words.mapM fun word =>
    let word := expandSpecifiers table word
    if '=' ∈ word then some (word.takeWhile (· != '='), (word.dropWhile (· != '=')).drop 1)
    else none

/-- A service: its commands, its environment, and every other setting as it is written. -/
structure Service where
  commands : List Command
  environment : List (Text × Text)
  others : List Setting
  deriving DecidableEq

/-- A setting is added to the service; an empty one takes back those before it. -/
def addSetting (table : Char → Option Text) (substitute : Text → List Text) (service : Service)
    (setting : Setting) : Option Service :=
  if setting.area = "Service".toList ∧ setting.key = "ExecStart".toList then
    if setting.value = [] then some { service with commands := [] }
    else (readCommand table substitute setting.value).map fun command =>
      { service with commands := service.commands ++ [command] }
  else if setting.area = "Service".toList ∧ setting.key = "Environment".toList then
    if setting.value = [] then some { service with environment := [] }
    else (readEnvironment table setting.value).map fun entries =>
      { service with environment := service.environment ++ entries }
  else some { service with others := service.others ++ [setting] }

section Settings

variable {table : Char → Option Text} {substitute : Text → List Text} {setting : Setting}

theorem addSetting_command (service : Service)
    (hkey : setting.area = "Service".toList ∧ setting.key = "ExecStart".toList)
    (hne : setting.value ≠ []) :
    addSetting table substitute service setting =
      (readCommand table substitute setting.value).map fun command =>
        { service with commands := service.commands ++ [command] } := by
  rw [addSetting, if_pos hkey, if_neg hne]

theorem addSetting_environment (service : Service)
    (hkey : setting.area = "Service".toList ∧ setting.key = "Environment".toList)
    (hne : setting.value ≠ []) :
    addSetting table substitute service setting =
      (readEnvironment table setting.value).map fun entries =>
        { service with environment := service.environment ++ entries } := by
  have hother : ¬(setting.area = "Service".toList ∧ setting.key = "ExecStart".toList) := by
    intro h
    exact absurd (hkey.2.symm.trans h.2) (by decide)
  rw [addSetting, if_neg hother, if_pos hkey, if_neg hne]

end Settings

/-- The service that a unit file describes. -/
def readService (table : Char → Option Text) (substitute : Text → List Text) (t : Text) :
    Option Service :=
  (readUnit t).bind fun settings => settings.foldlM (addSetting table substitute) ⟨[], [], []⟩

/-! ## Reading lines -/

section Lines

variable {area : Text} {line value : Text} {rest lines : List Text}

theorem unitTrim_eq_self (hhead : ∀ c, line.head? = some c → isUnitSpace c = false)
    (hlast : ∀ c, line.getLast? = some c → isUnitSpace c = false) : unitTrim line = line := by
  have hdrop : line.dropWhile isUnitSpace = line := by
    cases line with
    | nil => rfl
    | cons c line => rw [List.dropWhile_cons_of_neg (by rw [hhead c rfl]; decide)]
  rw [unitTrim, hdrop, List.rdropWhile_eq_self_iff]
  intro hne hspace
  rw [hlast _ (List.getLast?_eq_some_getLast hne)] at hspace
  cases hspace

theorem joinContinued_eq_self (h : ∀ line ∈ lines, line.getLast? ≠ some '\\') :
    joinContinued lines = lines := by
  induction lines with
  | nil => rfl
  | cons line lines ih =>
    rw [joinContinued, ih fun l hl => h l (List.mem_cons_of_mem _ hl)]
    cases lines with
    | nil => rfl
    | cons next lines =>
      dsimp only
      rw [if_neg (h line List.mem_cons_self)]

/-- The lines of a file whose lines all end with a line feed. -/
theorem splitOn_lines (h : ∀ line ∈ lines, '\n' ∉ line) :
    (lines.flatMap (· ++ ['\n'])).splitOn '\n' = lines ++ [[]] := by
  induction lines with
  | nil => rfl
  | cons line lines ih =>
    have hline : line.splitOn '\n' = [line] :=
      List.splitOn_eq_singleton fun hmem => h line List.mem_cons_self hmem
    rw [List.flatMap_cons, List.append_assoc, List.singleton_append, List.splitOn_append_cons_self,
      hline, ih fun l hl => h l (List.mem_cons_of_mem _ hl)]
    rfl

/-- A line with a setting. -/
structure IsSetting (key value : Text) : Prop where
  first : ∃ c, key.head? = some c ∧ isUnitSpace c = false ∧ c ≠ '#' ∧ c ≠ ';' ∧ c ≠ '['
  name : '=' ∉ key ∧ unitTrim key = key
  text : unitTrim value = value
  last : ∃ c, value.getLast? = some c ∧ isUnitSpace c = false

theorem splitSetting_eq {key : Text} (hkey : '=' ∉ key) (htrim : unitTrim key = key)
    (hvalue : unitTrim value = value) :
    splitSetting (key ++ '=' :: value) = some (key, value) := by
  have hmem : '=' ∈ key ++ '=' :: value := List.mem_append_right _ List.mem_cons_self
  rw [splitSetting, if_pos hmem, Text.takeWhile_bne_append value hkey,
    Text.dropWhile_bne_append value hkey, List.drop_one, List.tail_cons, htrim, hvalue]

theorem readLines_setting {key : Text} (h : IsSetting key value) :
    readLines area ((key ++ '=' :: value) :: rest) =
      (readLines area rest).map fun settings => ⟨area, key, value⟩ :: settings := by
  obtain ⟨⟨c, hfirst, hspace, hhash, hsemi, hopen⟩, ⟨hkey, htrim⟩, hvalue, last, hlast, hend⟩ := h
  have hline : unitTrim (key ++ '=' :: value) = key ++ '=' :: value := by
    refine unitTrim_eq_self (fun d hd => ?_) fun d hd => ?_
    · rw [List.head?_append, hfirst, Option.some_or] at hd
      rw [← Option.some.inj hd]
      exact hspace
    · have hne : value ≠ [] := by
        rintro rfl
        cases hlast
      rw [List.getLast?_append, List.getLast?_cons_of_ne_nil hne, hlast, Option.some_or] at hd
      rw [← Option.some.inj hd]
      exact hend
  -- The first character rules out comments and section names.
  obtain ⟨tail, htail⟩ : ∃ tail, key ++ '=' :: value = c :: tail := by
    cases key with
    | nil => cases hfirst
    | cons d key =>
      cases hfirst
      exact ⟨_, rfl⟩
  have hsplit := splitSetting_eq hkey htrim hvalue
  rw [readLines, hline]
  rw [htail] at hsplit ⊢
  split
  · rename_i heq
    cases heq
  · rename_i heq
    cases heq
    exact absurd rfl hhash
  · rename_i heq
    cases heq
    exact absurd rfl hsemi
  · rename_i heq
    cases heq
    exact absurd rfl hopen
  · rw [hsplit, Option.bind_some]

end Lines

/-! ## Reading words -/

/-- How a character is escaped in double quotes. -/
def escapeQuoted (c : Char) : Text :=
  if c = '\\' then "\\\\".toList else if c = '"' then "\\\"".toList else [c]

namespace Words

variable {done : List Text} {t : Text}

/-- Between double quotes an escaped text is read back. -/
theorem read_escapedQuoted (before : Text) :
    read ⟨done, .quoted '"' before⟩ (t.flatMap escapeQuoted) =
      some ⟨done, .quoted '"' (before ++ t)⟩ := by
  induction t generalizing before with
  | nil =>
    rw [List.append_nil]
    rfl
  | cons c t ih =>
    have hchar : read ⟨done, .quoted '"' before⟩ (escapeQuoted c) =
        some ⟨done, .quoted '"' (before ++ [c])⟩ := by
      unfold escapeQuoted
      split
      · rename_i h; subst h; rfl
      · split
        · rename_i h; subst h; rfl
        · rename_i hback hquote
          rw [read, List.foldlM_cons, step]
          dsimp only
          rw [if_neg hquote, if_neg hback]
          rfl
    rw [List.flatMap_cons, read_append, hchar, Option.bind_some, ih, List.append_assoc]
    rfl

/-- A text in double quotes is one word. -/
theorem read_quoted :
    read ⟨done, .gap⟩ ('"' :: t.flatMap escapeQuoted ++ ['"']) = some ⟨done, .closed t⟩ := by
  have hopen : read ⟨done, .gap⟩ ['"'] = some ⟨done, .quoted '"' []⟩ := rfl
  rw [show '"' :: t.flatMap escapeQuoted ++ ['"'] = ['"'] ++ (t.flatMap escapeQuoted ++ ['"']) from
    rfl, read_append, hopen, Option.bind_some, read_append, read_escapedQuoted, Option.bind_some,
    List.nil_append]
  rfl

/-- A character that may stand in a word without quotes. -/
def isBareChar (c : Char) : Bool := !isUnitSpace c && c != '"' && c != '\'' && c != '\\'

theorem read_inBare (before : Text) (h : t.all isBareChar = true) :
    read ⟨done, .bare before⟩ t = some ⟨done, .bare (before ++ t)⟩ := by
  induction t generalizing before with
  | nil =>
    rw [List.append_nil]
    rfl
  | cons c t ih =>
    rw [List.all_cons, Bool.and_eq_true] at h
    obtain ⟨hc, ht⟩ := h
    simp only [isBareChar, Bool.and_eq_true, Bool.not_eq_true', bne_iff_ne] at hc
    rw [read, List.foldlM_cons, step]
    dsimp only
    rw [if_neg (by rw [hc.1.1.1]; exact Bool.false_ne_true), if_neg hc.2]
    show read _ t = _
    rw [ih (before ++ [c]) ht, List.append_assoc]
    rfl

theorem read_bare (hne : t ≠ []) (h : t.all isBareChar = true) :
    read ⟨done, .gap⟩ t = some ⟨done, .bare t⟩ := by
  cases t with
  | nil => exact absurd rfl hne
  | cons c t =>
    rw [List.all_cons, Bool.and_eq_true] at h
    obtain ⟨hc, ht⟩ := h
    simp only [isBareChar, Bool.and_eq_true, Bool.not_eq_true', bne_iff_ne] at hc
    rw [read, List.foldlM_cons, step]
    dsimp only
    rw [if_neg (by rw [hc.1.1.1]; exact Bool.false_ne_true),
      if_neg (not_or.mpr ⟨hc.1.1.2, hc.1.2⟩), if_neg hc.2]
    exact read_inBare [c] ht

end Words

/-- A value that is one quoted text. -/
theorem unquoteWords_quoted (t : Text) :
    unquoteWords ('"' :: t.flatMap escapeQuoted ++ ['"']) = some [t] := by
  rw [unquoteWords, Words.read_quoted]
  rfl

/-! ## Reading specifiers -/

/-- What has no percent sign in front is expanded after it. -/
theorem expandSpecifiers_append {table : Char → Option Text} {s : Text} (t : Text) (h : '%' ∉ s) :
    expandSpecifiers table (s ++ t) = s ++ expandSpecifiers table t := by
  induction s with
  | nil => rfl
  | cons c s ih =>
    have hc : c ≠ '%' := fun hc => h (hc ▸ List.mem_cons_self)
    have hs := ih fun hmem => h (List.mem_cons_of_mem c hmem)
    rw [List.cons_append, expandSpecifiers]
    · rw [hs]
      rfl
    · rintro t' hhead -
      exact hc hhead
    · rintro d t' hhead -
      exact hc hhead

/-- An assignment in double quotes keeps its name; the specifiers of its value are expanded. -/
theorem readEnvironment_quoted {table : Char → Option Text} {key : Text} (value : Text)
    (hpercent : '%' ∉ key) (hequals : '=' ∉ key) :
    readEnvironment table ('"' :: (key ++ '=' :: value).flatMap escapeQuoted ++ ['"']) =
      some [(key, expandSpecifiers table value)] := by
  have hword : expandSpecifiers table (key ++ '=' :: value) =
      key ++ '=' :: expandSpecifiers table value := by
    rw [expandSpecifiers_append _ hpercent, ← List.singleton_append,
      expandSpecifiers_append value (by decide)]
    rfl
  have hmem : '=' ∈ key ++ '=' :: expandSpecifiers table value :=
    List.mem_append_right _ List.mem_cons_self
  rw [readEnvironment, unquoteWords_quoted, Option.bind_some, List.mapM_cons, List.mapM_nil]
  dsimp only
  rw [hword, if_pos hmem, Text.takeWhile_bne_append _ hequals, Text.dropWhile_bne_append _ hequals]
  rfl

end Markup
