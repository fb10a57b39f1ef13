import Clt.Text.Basic

/-!
# Property lists in XML

A property list is read character by character: a `Reader` is inside text or markup, and below the
elements that are open. What is read one after the other composes (`read_append`), and text that was
escaped is read back where XML has its characters (`read_escaped`).
-/

namespace Markup

/-- A character that an XML 1.0 document may have. -/
def isXmlChar (c : Char) : Bool :=
  c.toNat = 0x9 || c.toNat = 0xA || c.toNat = 0xD || (0x20 ≤ c.toNat && c.toNat ≤ 0xD7FF) ||
    (0xE000 ≤ c.toNat && c.toNat ≤ 0xFFFD) || 0x10000 ≤ c.toNat

/-- White space of XML. -/
def isBlank (t : Text) : Bool := t.all fun c => c = ' ' || c = '\t' || c = '\n' || c = '\r'

/-- The predefined entities. -/
def entity (name : Text) : Option Char :=
  if name = "amp".toList then some '&'
  else if name = "lt".toList then some '<'
  else if name = "gt".toList then some '>'
  else if name = "quot".toList then some '"'
  else if name = "apos".toList then some '\''
  else none

/-- A value of a property list. -/
inductive Value where
  | string (text : Text)
  | bool (value : Bool)
  | array (items : List Value)
  | dict (entries : List (Text × Value))

/-- An element that is open, with what it has so far; `document` is a list that was closed. -/
inductive Frame where
  | plist (value : Option Value)
  | array (items : List Value)
  | dict (entries : List (Text × Value)) (key : Option Text)
  | string
  | key
  | document (value : Value)

/-- A value in the element that is open. -/
def putValue (value : Value) : List Frame → Option (List Frame)
  | [.plist none] => some [.plist (some value)]
  | .array items :: rest => some (.array (items ++ [value]) :: rest)
  | .dict entries (some key) :: rest => some (.dict (entries ++ [(key, value)]) none :: rest)
  | _ => none

/-- A start tag, by its name. -/
def openElement (name : Text) : List Frame → Option (List Frame)
  | [] => if name = "plist".toList then some [.plist none] else none
  | .string :: _ => none
  | .key :: _ => none
  | frames =>
    if name = "dict".toList then some (.dict [] none :: frames)
    else if name = "array".toList then some (.array [] :: frames)
    else if name = "string".toList then some (.string :: frames)
    else if name = "key".toList then some (.key :: frames)
    else none

/-- An end tag, by its name; `text` came right before it. -/
def closeElement (name text : Text) : List Frame → Option (List Frame)
  | .string :: rest => if name = "string".toList then putValue (.string text) rest else none
  | .key :: .dict entries none :: rest =>
    if name = "key".toList then some (.dict entries (some text) :: rest) else none
  | .array items :: rest =>
    if name = "array".toList ∧ isBlank text then putValue (.array items) rest else none
  | .dict entries none :: rest =>
    if name = "dict".toList ∧ isBlank text then putValue (.dict entries) rest else none
  | [.plist (some value)] =>
    if name = "plist".toList ∧ isBlank text then some [.document value] else none
  | _ => none

/-- An empty element, by its name. -/
def emptyElement (name : Text) (frames : List Frame) : Option (List Frame) :=
  if name = "true".toList then putValue (.bool true) frames
  else if name = "false".toList then putValue (.bool false) frames
  else none

/-- The name at the head of a tag. -/
def tagName (tag : Text) : Text := tag.takeWhile fun c => !isBlank [c]

/-- What stands between the angle brackets, after the text. -/
def readTag (text tag : Text) (frames : List Frame) : Option (List Frame) :=
  match tag with
  | [] => none
  | '/' :: name => closeElement (tagName name) text frames
  | '?' :: _ => if frames.isEmpty && isBlank text then some frames else none
  | '!' :: _ => if frames.isEmpty && isBlank text then some frames else none
  | _ =>
    if !isBlank text then none
    else if tag.getLast? = some '/' then emptyElement (tagName tag.dropLast) frames
    else openElement (tagName tag) frames

/-- Where the next character stands: in text, in a reference, in a tag after some text, or in a
quoted value of a tag. -/
inductive Scan where
  | text (read : Text)
  | reference (read name : Text)
  | tag (text read : Text)
  | quoted (mark : Char) (text read : Text)

/-- A reader in the middle of a document. -/
structure Reader where
  scan : Scan
  frames : List Frame

namespace Reader

/-- The next character; no document goes on with it where there is none. -/
def step (reader : Reader) (c : Char) : Option Reader :=
  if !isXmlChar c then none
  else
    match reader.scan with
    | .text read =>
      if c = '<' then some { reader with scan := .tag read [] }
      else if c = '&' then some { reader with scan := .reference read [] }
      else some { reader with scan := .text (read ++ [c]) }
    | .reference read name =>
      if c = ';' then (entity name).map fun c => { reader with scan := .text (read ++ [c]) }
      else some { reader with scan := .reference read (name ++ [c]) }
    | .tag text read =>
      if c = '>' then (readTag text read reader.frames).map fun frames => ⟨.text [], frames⟩
      else if c = '"' ∨ c = '\'' then some { reader with scan := .quoted c text (read ++ [c]) }
      else some { reader with scan := .tag text (read ++ [c]) }
    | .quoted mark text read =>
      if c = mark then some { reader with scan := .tag text (read ++ [c]) }
      else some { reader with scan := .quoted mark text (read ++ [c]) }

/-- The reader after some text. -/
def read (reader : Reader) (t : Text) : Option Reader := t.foldlM step reader

theorem read_append (reader : Reader) (s t : Text) :
    reader.read (s ++ t) = (reader.read s).bind fun reader => reader.read t :=
  List.foldlM_append

end Reader

/-- The property list that a document is. -/
def readPropertyList (t : Text) : Option Value :=
  match Reader.read ⟨.text [], []⟩ t with
  | some ⟨.text rest, [.document value]⟩ => if isBlank rest then some value else none
  | _ => none

/-! ## Escaped text -/

/-- How a character is escaped. -/
def escapeChar (c : Char) : Text :=
  if c = '&' then "&amp;".toList
  else if c = '<' then "&lt;".toList
  else if c = '>' then "&gt;".toList
  else if c = '"' then "&quot;".toList
  else if c = '\'' then "&apos;".toList
  else [c]

namespace Reader

variable {frames : List Frame}

theorem step_text {c : Char} {before : Text} (hxml : isXmlChar c = true) (hlt : c ≠ '<')
    (hamp : c ≠ '&') :
    step ⟨.text before, frames⟩ c = some ⟨.text (before ++ [c]), frames⟩ := by
  rw [step, hxml]
  dsimp only
  rw [if_neg (by decide), if_neg hlt, if_neg hamp]

/-- A character is read back from its escape, unless no document can have it. -/
theorem read_escapeChar (c : Char) (before : Text) :
    read ⟨.text before, frames⟩ (escapeChar c) =
      if isXmlChar c then some ⟨.text (before ++ [c]), frames⟩ else none := by
  unfold escapeChar
  split
  · rename_i h; subst h; rfl
  · split
    · rename_i h; subst h; rfl
    · split
      · rename_i h; subst h; rfl
      · split
        · rename_i h; subst h; rfl
        · split
          · rename_i h; subst h; rfl
          · rename_i hamp hlt _ _ _
            cases hxml : isXmlChar c with
            | false =>
              rw [read, List.foldlM_cons, step, hxml]
              rfl
            | true =>
              rw [read, List.foldlM_cons, step_text hxml hlt hamp]
              rfl

/-- Escaped text is read back, unless it has a character that no document can have. -/
theorem read_escaped (t before : Text) :
    read ⟨.text before, frames⟩ (t.flatMap escapeChar) =
      if t.all isXmlChar then some ⟨.text (before ++ t), frames⟩ else none := by
  induction t generalizing before with
  | nil =>
    rw [List.append_nil]
    rfl
  | cons c t ih =>
    rw [List.flatMap_cons, read_append, read_escapeChar, List.all_cons]
    cases isXmlChar c with
    | false => rfl
    | true =>
      rw [if_pos rfl, Option.bind_some, ih, List.append_assoc]
      rfl

/-- Whatever is read has only characters of XML. -/
theorem all_of_read {reader after : Reader} {t : Text} (h : reader.read t = some after) :
    t.all isXmlChar = true := by
  induction t generalizing reader with
  | nil => rfl
  | cons c t ih =>
    rw [read, List.foldlM_cons] at h
    obtain ⟨next, hstep, hrest⟩ := Option.bind_eq_some_iff.mp h
    have hxml : isXmlChar c = true := by
      by_contra hnot
      rw [step, if_pos (by simpa using hnot)] at hstep
      cases hstep
    rw [List.all_cons, hxml, ih hrest]
    rfl

/-- The escape of a character that no document can have is that character. -/
theorem all_of_escaped {t : Text} (h : (t.flatMap escapeChar).all isXmlChar = true) :
    t.all isXmlChar = true := by
  rw [List.all_eq_true] at h ⊢
  intro c hc
  unfold escapeChar at h
  by_contra hnot
  have hne : ∀ d : Char, isXmlChar d = true → c ≠ d := by
    rintro d hd rfl
    exact hnot hd
  have hmem : c ∈ escapeChar c := by
    unfold escapeChar
    rw [if_neg (hne '&' (by decide)), if_neg (hne '<' (by decide)), if_neg (hne '>' (by decide)),
      if_neg (hne '"' (by decide)), if_neg (hne '\'' (by decide))]
    exact List.mem_singleton_self c
  exact hnot (h c (List.mem_flatMap.mpr ⟨c, hc, hmem⟩))

/-! ## Tags -/

/-- A character of a tag that has no quoted values. -/
def isTagChar (c : Char) : Bool := isXmlChar c && c != '>' && c != '"' && c != '\''

/-- A character that needs no escape. -/
def isPlainChar (c : Char) : Bool := isXmlChar c && c != '<' && c != '&'

theorem read_plain {t : Text} (before : Text) (h : t.all isPlainChar = true) :
    read ⟨.text before, frames⟩ t = some ⟨.text (before ++ t), frames⟩ := by
  induction t generalizing before with
  | nil =>
    rw [List.append_nil]
    rfl
  | cons c t ih =>
    simp only [List.all_cons, Bool.and_eq_true, isPlainChar, bne_iff_ne] at h
    obtain ⟨⟨⟨hxml, hlt⟩, hamp⟩, ht⟩ := h
    have hrest := ih (before ++ [c]) (by simpa [isPlainChar] using ht)
    rw [read, List.foldlM_cons, step_text hxml hlt hamp]
    show read _ t = _
    rw [hrest, List.append_assoc]
    rfl

theorem read_inTag {text tag : Text} (before : Text) (h : tag.all isTagChar = true) :
    read ⟨.tag text before, frames⟩ tag = some ⟨.tag text (before ++ tag), frames⟩ := by
  induction tag generalizing before with
  | nil =>
    rw [List.append_nil]
    rfl
  | cons c tag ih =>
    simp only [List.all_cons, Bool.and_eq_true, isTagChar, bne_iff_ne] at h
    obtain ⟨⟨⟨⟨hxml, hgt⟩, hquot⟩, hapos⟩, ht⟩ := h
    have hrest := ih (before ++ [c]) (by simpa [isTagChar] using ht)
    have hquote : ¬ (c = '"' ∨ c = '\'') := not_or.mpr ⟨hquot, hapos⟩
    rw [read, List.foldlM_cons, step, hxml]
    dsimp only
    rw [if_neg (by decide), if_neg hgt, if_neg hquote]
    show read _ tag = _
    rw [hrest, List.append_assoc]
    rfl

/-- A tag does to the open elements what `readTag` says. -/
theorem read_tag {text tag : Text} (h : tag.all isTagChar = true) :
    read ⟨.text text, frames⟩ ('<' :: tag ++ ['>']) =
      (readTag text tag frames).map fun frames => ⟨.text [], frames⟩ := by
  have hopen : read ⟨.text text, frames⟩ ['<'] = some ⟨.tag text [], frames⟩ := rfl
  have hclose : read ⟨.tag text tag, frames⟩ ['>'] =
      (readTag text tag frames).map fun frames => ⟨.text [], frames⟩ := by
    have hstep : step ⟨.tag text tag, frames⟩ '>' =
        (readTag text tag frames).map fun frames => ⟨.text [], frames⟩ := rfl
    rw [read, List.foldlM_cons, hstep]
    cases readTag text tag frames with
    | none => rfl
    | some frames => rfl
  rw [show '<' :: tag ++ ['>'] = ['<'] ++ (tag ++ ['>']) from rfl, read_append, hopen,
    Option.bind_some, read_append, read_inTag [] h, Option.bind_some, List.nil_append, hclose]

end Reader

end Markup
