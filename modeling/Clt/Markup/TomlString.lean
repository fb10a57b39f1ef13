import Clt.Text.Basic

/-!
# Strings of TOML

How TOML 1.0 reads a basic string, and what it says of a document that begins with a string.
-/

namespace Markup

/-! ## Basic strings -/

/-- A control character that TOML does not have in a string of one line. -/
def isTomlControl (c : Char) : Bool := (c.toNat < 0x20 && c != '\t') || c.toNat = 0x7F

/-- A character that stands for itself in a basic string. -/
def isTomlPlain (c : Char) : Bool := !isTomlControl c && c != '"' && c != '\\'

/-- The character that a backslash and a letter stand for. -/
def tomlEscape (c : Char) : Option Char :=
  if c = '"' ∨ c = '\\' then some c
  else if c = 'b' then some '\x08'
  else if c = 't' then some '\t'
  else if c = 'n' then some '\n'
  else if c = 'f' then some '\x0c'
  else if c = 'r' then some '\r'
  else none

def hexDigit (c : Char) : Option Nat :=
  if '0' ≤ c ∧ c ≤ '9' then some (c.toNat - '0'.toNat)
  else if 'a' ≤ c ∧ c ≤ 'f' then some (c.toNat - 'a'.toNat + 10)
  else if 'A' ≤ c ∧ c ≤ 'F' then some (c.toNat - 'A'.toNat + 10)
  else none

/-- Where the next character stands: in the text, after a backslash, or in the digits of a code. -/
inductive StringScan where
  | plain
  | escape
  | hex (left code : Nat)

/-- A basic string behind its opening quote: what it stands for, and what comes after it. -/
def readBasic : StringScan → Text → Option (Text × Text)
  | _, [] => none
  | .plain, c :: t =>
    if c = '"' then some ([], t)
    else if c = '\\' then readBasic .escape t
    else if isTomlControl c then none
    else (readBasic .plain t).map fun read => (c :: read.1, read.2)
  | .escape, c :: t =>
    if c = 'u' then readBasic (.hex 4 0) t
    else if c = 'U' then readBasic (.hex 8 0) t
    else (tomlEscape c).bind fun d => (readBasic .plain t).map fun read => (d :: read.1, read.2)
  | .hex left code, c :: t =>
    (hexDigit c).bind fun digit =>
      if 1 < left then readBasic (.hex (left - 1) (code * 16 + digit)) t
      else if (code * 16 + digit).isValidChar then
        (readBasic .plain t).map fun read => (Char.ofNat (code * 16 + digit) :: read.1, read.2)
      else none

section Basic

variable {t value rest : Text}

/-- Plain characters are read as they are. -/
theorem readBasic_plain_append (u : Text) (h : t.all isTomlPlain = true) :
    readBasic .plain (t ++ u) = (readBasic .plain u).map fun read => (t ++ read.1, read.2) := by
  induction t with
  | nil =>
    show readBasic .plain u = (readBasic .plain u).map id
    rw [Option.map_id_fun]
    rfl
  | cons c t ih =>
    rw [List.all_cons, Bool.and_eq_true] at h
    obtain ⟨hc, ht⟩ := h
    simp only [isTomlPlain, Bool.and_eq_true, Bool.not_eq_true', bne_iff_ne] at hc
    rw [List.cons_append, readBasic, if_neg hc.1.2, if_neg hc.2, hc.1.1, if_neg Bool.false_ne_true,
      ih ht, Option.map_map]
    rfl

theorem readBasic_plain (h : t.all isTomlPlain = true) :
    readBasic .plain (t ++ ['"']) = some (t, []) := by
  rw [readBasic_plain_append ['"'] h]
  show some (t ++ [], []) = _
  rw [List.append_nil]

/-- No string stands for more characters than it is written with. -/
theorem length_readBasic {scan : StringScan} (h : readBasic scan t = some (value, rest)) :
    value.length + rest.length + 1 ≤ t.length := by
  induction t generalizing scan value rest with
  | nil =>
    rw [readBasic] at h
    cases h
  | cons c t ih =>
    -- One more character of the string takes at least one more of the text.
    have hone : ∀ {d : Char}, ((readBasic .plain t).map fun read => (d :: read.1, read.2)) =
        some (value, rest) → value.length + rest.length + 1 ≤ (c :: t).length := by
      intro d hd
      obtain ⟨read, hread, heq⟩ := Option.map_eq_some_iff.mp hd
      cases heq
      have := ih hread
      simp only [List.length_cons]
      omega
    have hnone : ∀ {next : StringScan}, readBasic next t = some (value, rest) →
        value.length + rest.length + 1 ≤ (c :: t).length := by
      intro next hnext
      have := ih hnext
      simp only [List.length_cons]
      omega
    cases scan with
    | plain =>
      rw [readBasic] at h
      split at h
      · cases h
        simp only [List.length_nil, List.length_cons]
        omega
      · split at h
        · exact hnone h
        · split at h
          · cases h
          · exact hone h
    | escape =>
      rw [readBasic] at h
      split at h
      · exact hnone h
      · split at h
        · exact hnone h
        · obtain ⟨d, -, hd⟩ := Option.bind_eq_some_iff.mp h
          exact hone hd
    | hex left code =>
      rw [readBasic] at h
      obtain ⟨digit, -, hdigit⟩ := Option.bind_eq_some_iff.mp h
      split at hdigit
      · exact hnone hdigit
      · split at hdigit
        · exact hone hdigit
        · cases hdigit

/-- A string that stands for as many characters as it is written with stands for those. -/
theorem all_of_readBasic (h : readBasic .plain (t ++ ['"']) = some (value, rest))
    (hlength : value.length = t.length) : t.all isTomlPlain = true := by
  induction t generalizing value rest with
  | nil => rfl
  | cons c t ih =>
    have hshort : ∀ {next : StringScan}, readBasic next (t ++ ['"']) ≠ some (value, rest) := by
      intro next hnext
      have := length_readBasic hnext
      simp only [List.length_append, List.length_cons, List.length_nil] at this hlength
      omega
    rw [List.cons_append, readBasic] at h
    split at h
    · cases h
      cases hlength
    · rename_i hquote
      split at h
      · exact absurd h hshort
      · rename_i hback
        split at h
        · cases h
        · rename_i hcontrol
          obtain ⟨read, hread, heq⟩ := Option.map_eq_some_iff.mp h
          cases heq
          have hrest := ih hread (Nat.succ.inj hlength)
          rw [List.all_cons, hrest, Bool.and_true, isTomlPlain, Bool.and_eq_true, Bool.and_eq_true,
            bne_iff_ne, bne_iff_ne, Bool.not_eq_true']
          exact ⟨⟨Bool.eq_false_iff.mpr hcontrol, hquote⟩, hback⟩

end Basic

/-! ## Documents -/

/-- What a key of a document has. -/
inductive TomlItem where
  | string (value : Text)
  | boolean (value : Bool)
  | other

abbrev TomlDocument := Text → Option TomlItem

/-- A key that needs no quotes. -/
def isBareKey (key : Text) : Bool :=
  key ≠ [] && key.all fun c => c.isAlphanum || c = '-' || c = '_'

/-- Two more quotes behind the first open a string of several lines. -/
def opensMultiLine (t : Text) : Bool := t.take 2 = ['"', '"']

/-- How a parser of TOML 1.0 reads a document that begins with a string: a line that is one basic
string is a document, and the key has what the string stands for whatever comes after it. A string of
several lines stands for no more characters than are between its quotes. -/
structure ReadsStrings (toml : Text → Except String TomlDocument) : Prop where
  line : ∀ key t value, isBareKey key = true → opensMultiLine t = false →
    readBasic .plain t = some (value, []) →
    ∃ document, toml (key ++ '=' :: '"' :: t) = .ok document ∧ document key = some (.string value)
  first : ∀ key t document, isBareKey key = true → opensMultiLine t = false →
    toml (key ++ '=' :: '"' :: t) = .ok document →
    ∃ value rest, readBasic .plain t = some (value, rest) ∧ document key = some (.string value)
  multiLine : ∀ key t document, isBareKey key = true → opensMultiLine t = true →
    toml (key ++ '=' :: '"' :: t) = .ok document →
    ∃ value, value.length + 5 ≤ t.length ∧ document key = some (.string value)

/-- The documents of one line with a basic string. -/
def tomlLine (t : Text) : Except String TomlDocument :=
  match (t.dropWhile (· != '=')).drop 1 with
  | '"' :: rest =>
    if opensMultiLine rest then .error "no basic string"
    else
      match readBasic .plain rest with
      | some (value, []) => .ok fun key =>
        if key = t.takeWhile (· != '=') then some (.string value) else none
      | _ => .error "no basic string"
  | _ => .error "no basic string"

theorem equals_not_mem_of_isBareKey {key : Text} (h : isBareKey key = true) : '=' ∉ key := by
  intro hmem
  rw [isBareKey, Bool.and_eq_true, List.all_eq_true] at h
  exact absurd (h.2 '=' hmem) (by decide)

theorem tomlLine_eq {key t : Text} (hkey : isBareKey key = true) (hmulti : opensMultiLine t = false) :
    tomlLine (key ++ '=' :: '"' :: t) =
      match readBasic .plain t with
      | some (value, []) => .ok fun other => if other = key then some (.string value) else none
      | _ => .error "no basic string" := by
  have hequals := equals_not_mem_of_isBareKey hkey
  unfold tomlLine
  rw [Text.takeWhile_bne_append _ hequals, Text.dropWhile_bne_append _ hequals, List.drop_one, List.tail_cons]
  show (if opensMultiLine t then _ else _) = _
  rw [hmulti, if_neg Bool.false_ne_true]

theorem readsStrings_tomlLine : ReadsStrings tomlLine where
  line := by
    intro key t value hkey hmulti hread
    rw [tomlLine_eq hkey hmulti, hread]
    exact ⟨_, rfl, if_pos rfl⟩
  first := by
    intro key t document hkey hmulti h
    rw [tomlLine_eq hkey hmulti] at h
    split at h
    · rename_i value hread
      cases h
      exact ⟨value, [], hread, if_pos rfl⟩
    · cases h
  multiLine := by
    intro key t document hkey hmulti h
    have hequals := equals_not_mem_of_isBareKey hkey
    unfold tomlLine at h
    rw [Text.dropWhile_bne_append _ hequals, List.drop_one, List.tail_cons] at h
    change (if opensMultiLine t then _ else _) = _ at h
    rw [hmulti, if_pos rfl] at h
    cases h

end Markup
