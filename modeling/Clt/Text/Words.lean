import Clt.Text.Basic

/-!
# Words

A text is a sequence of words, each behind a gap of whitespace, and a tail. A marker in
a text is a word of its own, so that finding one reads `splitWhitespace`, and taking one
out is `removeWords`; `splitWhitespace_removeWords` says that the other words stay.
-/

namespace Text

/-- A word and the whitespace before it. -/
structure Piece where
  gap : Text
  word : Text
  deriving DecidableEq

/-- Put a character in front of a text that is already in pieces: it widens the first gap,
or begins the first word, or is a word of its own. -/
def pieceCons (c : Char) : List Piece × Text → List Piece × Text
  | ([], tail) => if isWhitespace c then ([], c :: tail) else ([⟨[], [c]⟩], tail)
  | (p :: ps, tail) =>
    if isWhitespace c then (⟨c :: p.gap, p.word⟩ :: ps, tail)
    else if p.gap = [] then (⟨[], c :: p.word⟩ :: ps, tail)
    else (⟨[], [c]⟩ :: p :: ps, tail)

/-- The words of a text with the gaps before them, and the whitespace after the last. -/
def pieces (t : Text) : List Piece × Text := t.foldr pieceCons ([], [])

/-- `str::split_whitespace`. -/
def splitWhitespace (t : Text) : List Text := (pieces t).1.map Piece.word

/-- The text of pieces. -/
def joinPieces (ps : List Piece) (tail : Text) : Text :=
  ps.flatMap (fun p => p.gap ++ p.word) ++ tail

/-- A word: not empty, and without whitespace. -/
def IsWord (w : Text) : Prop := w ≠ [] ∧ ∀ c ∈ w, isWhitespace c = false

theorem isWord_of_all {w : Text} (hne : w.isEmpty = false)
    (h : (w.all fun c => !isWhitespace c) = true) : IsWord w := by
  refine ⟨fun hnil => ?_, fun c hc => ?_⟩
  · rw [hnil] at hne
    cases hne
  · simpa using List.all_eq_true.mp h c hc

/-- Every character is whitespace. -/
def IsBlank (t : Text) : Prop := ∀ c ∈ t, isWhitespace c = true

/-- Words behind gaps, of which only the first may be empty. -/
structure Separated (ps : List Piece) : Prop where
  word : ∀ p ∈ ps, IsWord p.word
  gap : ∀ p ∈ ps, IsBlank p.gap
  apart : ∀ p ∈ ps.tail, p.gap ≠ []

theorem joinPieces_pieceCons (c : Char) (r : List Piece × Text) :
    joinPieces (pieceCons c r).1 (pieceCons c r).2 = c :: joinPieces r.1 r.2 := by
  rcases r with ⟨_ | ⟨p, ps⟩, tail⟩
  · simp only [pieceCons]
    split <;> simp [joinPieces]
  · simp only [pieceCons]
    split
    · simp [joinPieces]
    · split
      · rename_i hgap
        simp [joinPieces, hgap]
      · simp [joinPieces]

theorem joinPieces_pieces (t : Text) : joinPieces (pieces t).1 (pieces t).2 = t := by
  induction t with
  | nil => rfl
  | cons c t ih =>
    have hcons := joinPieces_pieceCons c (pieces t)
    rwa [ih] at hcons

theorem isBlank_nil : IsBlank [] := fun _ h => nomatch h

theorem isBlank_cons {c : Char} {t : Text} :
    IsBlank (c :: t) ↔ isWhitespace c = true ∧ IsBlank t := List.forall_mem_cons

theorem isWord_cons {c : Char} {w : Text} :
    IsWord (c :: w) ↔ isWhitespace c = false ∧ ∀ d ∈ w, isWhitespace d = false := by
  simp only [IsWord, ne_eq, List.cons_ne_nil, not_false_eq_true, true_and, List.forall_mem_cons]

theorem separated_nil : Separated [] := ⟨nofun, nofun, nofun⟩

theorem separated_cons {p : Piece} {ps : List Piece} :
    Separated (p :: ps) ↔
      IsWord p.word ∧ IsBlank p.gap ∧ (∀ q ∈ ps, q.gap ≠ []) ∧ Separated ps := by
  constructor
  · intro h
    obtain ⟨hw, hws⟩ := List.forall_mem_cons.mp h.word
    obtain ⟨hg, hgs⟩ := List.forall_mem_cons.mp h.gap
    exact ⟨hw, hg, h.apart, hws, hgs, fun q hq => h.apart q (List.mem_of_mem_tail hq)⟩
  · rintro ⟨hw, hg, hapart, hps⟩
    exact ⟨List.forall_mem_cons.mpr ⟨hw, hps.word⟩, List.forall_mem_cons.mpr ⟨hg, hps.gap⟩, hapart⟩

theorem separated_pieceCons (c : Char) {r : List Piece × Text} (hsep : Separated r.1)
    (htail : IsBlank r.2) : Separated (pieceCons c r).1 ∧ IsBlank (pieceCons c r).2 := by
  rcases r with ⟨_ | ⟨p, ps⟩, tail⟩
  · simp only [pieceCons]
    split
    · rename_i hc
      exact ⟨separated_nil, isBlank_cons.mpr ⟨hc, htail⟩⟩
    · rename_i hc
      rw [Bool.not_eq_true] at hc
      exact ⟨separated_cons.mpr ⟨isWord_cons.mpr ⟨hc, nofun⟩, isBlank_nil, nofun, separated_nil⟩,
        htail⟩
  · obtain ⟨hw, hg, hrest, hps⟩ := separated_cons.mp hsep
    simp only [pieceCons]
    split
    · rename_i hc
      exact ⟨separated_cons.mpr ⟨hw, isBlank_cons.mpr ⟨hc, hg⟩, hrest, hps⟩, htail⟩
    · rename_i hc
      rw [Bool.not_eq_true] at hc
      split
      · exact ⟨separated_cons.mpr ⟨isWord_cons.mpr ⟨hc, hw.2⟩, isBlank_nil, hrest, hps⟩, htail⟩
      · rename_i hgap
        have hgaps : ∀ q ∈ p :: ps, q.gap ≠ [] := List.forall_mem_cons.mpr ⟨hgap, hrest⟩
        exact ⟨separated_cons.mpr ⟨isWord_cons.mpr ⟨hc, nofun⟩, isBlank_nil, hgaps, hsep⟩, htail⟩

theorem separated_pieces (t : Text) : Separated (pieces t).1 ∧ IsBlank (pieces t).2 := by
  induction t with
  | nil => exact ⟨separated_nil, isBlank_nil⟩
  | cons c t ih => exact separated_pieceCons c ih.1 ih.2

/-! ### Putting pieces together -/

theorem foldr_pieceCons_word {w : Text} (hw : IsWord w) {ps : List Piece}
    (hgaps : ∀ q ∈ ps, q.gap ≠ []) (tail : Text) :
    w.foldr pieceCons (ps, tail) = (⟨[], w⟩ :: ps, tail) := by
  induction w with
  | nil => exact absurd rfl hw.1
  | cons c w ih =>
    obtain ⟨hc, hrest⟩ := isWord_cons.mp hw
    rw [List.foldr_cons]
    cases w with
    | nil =>
      cases ps with
      | nil => simp [pieceCons, hc]
      | cons q qs => simp [pieceCons, hc, hgaps q List.mem_cons_self]
    | cons d w =>
      rw [ih ⟨List.cons_ne_nil d w, hrest⟩]
      simp [pieceCons, hc]

/-- Put whitespace in front of a text in pieces. -/
def prependGap (g : Text) : List Piece × Text → List Piece × Text
  | ([], tail) => ([], g ++ tail)
  | (p :: ps, tail) => (⟨g ++ p.gap, p.word⟩ :: ps, tail)

theorem foldr_pieceCons_gap {g : Text} (hg : IsBlank g) (r : List Piece × Text) :
    g.foldr pieceCons r = prependGap g r := by
  induction g with
  | nil => rcases r with ⟨_ | ⟨p, ps⟩, tail⟩ <;> rfl
  | cons c g ih =>
    obtain ⟨hc, hrest⟩ := isBlank_cons.mp hg
    rw [List.foldr_cons, ih hrest]
    rcases r with ⟨_ | ⟨p, ps⟩, tail⟩ <;> simp [prependGap, pieceCons, hc]

theorem joinPieces_prependGap (g : Text) (r : List Piece × Text) :
    joinPieces (prependGap g r).1 (prependGap g r).2 = g ++ joinPieces r.1 r.2 := by
  rcases r with ⟨_ | ⟨p, ps⟩, tail⟩ <;> simp [prependGap, joinPieces]

/-- A text put together from words behind gaps falls apart into them again. -/
theorem pieces_joinPieces {ps : List Piece} {tail : Text} (hps : Separated ps)
    (htail : IsBlank tail) : pieces (joinPieces ps tail) = (ps, tail) := by
  induction ps with
  | nil =>
    show tail.foldr pieceCons ([], []) = ([], tail)
    rw [foldr_pieceCons_gap htail, prependGap, List.append_nil]
  | cons p ps ih =>
    obtain ⟨hw, hg, hgaps, hrest⟩ := separated_cons.mp hps
    have hjoin : joinPieces (p :: ps) tail = p.gap ++ (p.word ++ joinPieces ps tail) := by
      simp [joinPieces]
    rw [hjoin, pieces, List.foldr_append, List.foldr_append]
    show p.gap.foldr pieceCons (p.word.foldr pieceCons (pieces (joinPieces ps tail))) = _
    rw [ih hrest, foldr_pieceCons_word hw hgaps, foldr_pieceCons_gap hg]
    simp [prependGap]

theorem splitWhitespace_joinPieces {ps : List Piece} {tail : Text} (hps : Separated ps)
    (htail : IsBlank tail) : splitWhitespace (joinPieces ps tail) = ps.map Piece.word := by
  rw [splitWhitespace, pieces_joinPieces hps htail]

/-! ### Taking words out -/

/-- A gap without the blank at its end. -/
def dropBlank (blank : Char → Bool) (g : Text) : Text :=
  if g.getLast?.any blank then g.dropLast else g

/-- The pieces that stay when words go, each with one blank of the gap before it. -/
def keepPieces (blank : Char → Bool) (gone : Text → Bool) (r : List Piece × Text) :
    List Piece × Text :=
  r.1.foldr (fun p s =>
    if gone p.word then prependGap (dropBlank blank p.gap) s else (p :: s.1, s.2)) ([], r.2)

/-- The text without some of its words. -/
def removeWords (blank : Char → Bool) (gone : Text → Bool) (t : Text) : Text :=
  let kept := keepPieces blank gone (pieces t)
  joinPieces kept.1 kept.2

theorem isBlank_dropBlank {blank : Char → Bool} {g : Text} (hg : IsBlank g) :
    IsBlank (dropBlank blank g) := by
  unfold dropBlank
  split
  · exact fun c hc => hg c ((List.dropLast_sublist g).subset hc)
  · exact hg

theorem isBlank_append {g h : Text} (hg : IsBlank g) (hh : IsBlank h) : IsBlank (g ++ h) := by
  intro c hc
  rcases List.mem_append.mp hc with hc | hc
  · exact hg c hc
  · exact hh c hc

theorem separated_prependGap {g : Text} (hg : IsBlank g) {r : List Piece × Text}
    (hr : Separated r.1) (htail : IsBlank r.2) :
    Separated (prependGap g r).1 ∧ IsBlank (prependGap g r).2 := by
  rcases r with ⟨_ | ⟨p, ps⟩, tail⟩
  · exact ⟨separated_nil, isBlank_append hg htail⟩
  · obtain ⟨hw, hgap, hrest⟩ := separated_cons.mp hr
    exact ⟨separated_cons.mpr ⟨hw, isBlank_append hg hgap, hrest⟩, htail⟩

theorem map_word_prependGap (g : Text) (r : List Piece × Text) :
    (prependGap g r).1.map Piece.word = r.1.map Piece.word := by
  rcases r with ⟨_ | ⟨p, ps⟩, tail⟩ <;> rfl

theorem gap_ne_nil_prependGap {g : Text} {r : List Piece × Text} (h : ∀ q ∈ r.1, q.gap ≠ []) :
    ∀ q ∈ (prependGap g r).1, q.gap ≠ [] := by
  rcases r with ⟨_ | ⟨p, ps⟩, tail⟩
  · exact h
  · obtain ⟨hp, hps⟩ := List.forall_mem_cons.mp h
    exact List.forall_mem_cons.mpr ⟨by simp [hp], hps⟩

section Keep

variable {blank : Char → Bool} {gone : Text → Bool} {tail : Text}

theorem keepPieces_cons (p : Piece) (ps : List Piece) :
    keepPieces blank gone (p :: ps, tail) =
      if gone p.word then prependGap (dropBlank blank p.gap) (keepPieces blank gone (ps, tail))
      else (p :: (keepPieces blank gone (ps, tail)).1, (keepPieces blank gone (ps, tail)).2) := rfl

theorem gap_ne_nil_keepPieces {ps : List Piece} (h : ∀ q ∈ ps, q.gap ≠ []) :
    ∀ q ∈ (keepPieces blank gone (ps, tail)).1, q.gap ≠ [] := by
  induction ps with
  | nil => exact nofun
  | cons p ps ih =>
    obtain ⟨hp, hps⟩ := List.forall_mem_cons.mp h
    rw [keepPieces_cons]
    split
    · exact gap_ne_nil_prependGap (ih hps)
    · exact List.forall_mem_cons.mpr ⟨hp, ih hps⟩

theorem separated_keepPieces {ps : List Piece} (hps : Separated ps) (htail : IsBlank tail) :
    Separated (keepPieces blank gone (ps, tail)).1 ∧
      IsBlank (keepPieces blank gone (ps, tail)).2 := by
  induction ps with
  | nil => exact ⟨separated_nil, htail⟩
  | cons p ps ih =>
    obtain ⟨hw, hg, hgaps, hrest⟩ := separated_cons.mp hps
    obtain ⟨hsep, hblank⟩ := ih hrest
    rw [keepPieces_cons]
    split
    · exact separated_prependGap (isBlank_dropBlank hg) hsep hblank
    · exact ⟨separated_cons.mpr ⟨hw, hg, gap_ne_nil_keepPieces hgaps, hsep⟩, hblank⟩

theorem map_word_keepPieces (ps : List Piece) :
    (keepPieces blank gone (ps, tail)).1.map Piece.word =
      (ps.map Piece.word).filter fun w => !gone w := by
  induction ps with
  | nil => rfl
  | cons p ps ih =>
    rw [keepPieces_cons]
    split
    · rename_i hgone
      rw [map_word_prependGap, ih, List.map_cons, List.filter_cons_of_neg (by simp [hgone])]
    · rename_i hgone
      rw [List.map_cons, ih, List.map_cons, List.filter_cons_of_pos (by simpa using hgone)]

end Keep

/-- Taking words out leaves the others. -/
theorem splitWhitespace_removeWords (blank : Char → Bool) (gone : Text → Bool) (t : Text) :
    splitWhitespace (removeWords blank gone t) = (splitWhitespace t).filter fun w => !gone w := by
  obtain ⟨hsep, htail⟩ := separated_pieces t
  obtain ⟨hsep', htail'⟩ : Separated (keepPieces blank gone (pieces t)).1 ∧
      IsBlank (keepPieces blank gone (pieces t)).2 := separated_keepPieces hsep htail
  exact (splitWhitespace_joinPieces hsep' htail').trans (map_word_keepPieces (pieces t).1)

/-- Taking words out leaves nothing new. -/
theorem removeWords_sublist (blank : Char → Bool) (gone : Text → Bool) (t : Text) :
    (removeWords blank gone t).Sublist t := by
  have hblank : ∀ g : Text, (dropBlank blank g).Sublist g := by
    intro g
    unfold dropBlank
    split
    · exact List.dropLast_sublist g
    · exact List.Sublist.refl g
  have hkeep : ∀ ps tail, (joinPieces (keepPieces blank gone (ps, tail)).1
      (keepPieces blank gone (ps, tail)).2).Sublist (joinPieces ps tail) := by
    intro ps tail
    induction ps with
    | nil => exact List.Sublist.refl _
    | cons p ps ih =>
      have hcons : joinPieces (p :: ps) tail = p.gap ++ (p.word ++ joinPieces ps tail) := by
        simp [joinPieces]
      rw [keepPieces_cons, hcons]
      split
      · rw [joinPieces_prependGap]
        exact (hblank p.gap).append (ih.trans (List.sublist_append_right _ _))
      · have hkept : ∀ qs rest, joinPieces (p :: qs) rest = p.gap ++ (p.word ++ joinPieces qs rest) := by
          intro qs rest
          simp [joinPieces]
        rw [hkept]
        exact (List.Sublist.refl _).append ((List.Sublist.refl _).append ih)
  have h := hkeep (pieces t).1 (pieces t).2
  rwa [joinPieces_pieces] at h

/-- A text without such words stays as it is. -/
theorem removeWords_eq_self {blank : Char → Bool} {gone : Text → Bool} {t : Text}
    (h : ∀ w ∈ splitWhitespace t, gone w = false) : removeWords blank gone t = t := by
  have hkeep : ∀ ps : List Piece, (∀ p ∈ ps, gone p.word = false) →
      keepPieces blank gone (ps, (pieces t).2) = (ps, (pieces t).2) := by
    intro ps hps
    induction ps with
    | nil => rfl
    | cons p ps ih =>
      obtain ⟨hp, hrest⟩ := List.forall_mem_cons.mp hps
      rw [keepPieces_cons, ih hrest, if_neg (by simp [hp])]
  have hall : ∀ p ∈ (pieces t).1, gone p.word = false := fun p hp => h p.word (List.mem_map_of_mem hp)
  have hkept : keepPieces blank gone (pieces t) = pieces t := hkeep (pieces t).1 hall
  show joinPieces (keepPieces blank gone (pieces t)).1 (keepPieces blank gone (pieces t)).2 = t
  rw [hkept, joinPieces_pieces]

theorem separated_append {ps qs : List Piece} (hps : Separated ps) (hqs : Separated qs)
    (hgaps : ∀ q ∈ qs, q.gap ≠ []) : Separated (ps ++ qs) := by
  induction ps with
  | nil => exact hqs
  | cons p ps ih =>
    obtain ⟨hw, hg, happ, hrest⟩ := separated_cons.mp hps
    refine separated_cons.mpr ⟨hw, hg, fun q hq => ?_, ih hrest⟩
    rcases List.mem_append.mp hq with hq | hq
    · exact happ q hq
    · exact hgaps q hq

/-- The pieces on either side of whitespace stand side by side. -/
theorem pieces_append {c : Char} (hc : isWhitespace c = true) (s t : Text) :
    pieces (s ++ c :: t) =
      ((pieces s).1 ++ (prependGap ((pieces s).2 ++ [c]) (pieces t)).1,
        (prependGap ((pieces s).2 ++ [c]) (pieces t)).2) := by
  obtain ⟨hsep, htail⟩ := separated_pieces s
  obtain ⟨hsep', htail'⟩ := separated_pieces t
  let gap := (pieces s).2 ++ [c]
  have hgap : IsBlank gap := isBlank_append htail (isBlank_cons.mpr ⟨hc, isBlank_nil⟩)
  let rest := prependGap gap (pieces t)
  obtain ⟨hrest, hblank⟩ : Separated rest.1 ∧ IsBlank rest.2 :=
    separated_prependGap hgap hsep' htail'
  have hgaps : ∀ q ∈ rest.1, q.gap ≠ [] := by
    intro q hq
    rcases hp : pieces t with ⟨_ | ⟨p, ps⟩, tail⟩
    · simp [rest, hp, prependGap] at hq
    · rw [hp] at hsep'
      simp only [rest, hp, prependGap] at hq
      rcases List.mem_cons.mp hq with rfl | hq
      · simp [gap]
      · exact hsep'.apart q hq
  have hjoin : s ++ c :: t = joinPieces ((pieces s).1 ++ rest.1) rest.2 := by
    have ht : joinPieces rest.1 rest.2 = gap ++ t := by
      rw [joinPieces_prependGap, joinPieces_pieces]
    calc s ++ c :: t = joinPieces (pieces s).1 (pieces s).2 ++ c :: t := by rw [joinPieces_pieces]
      _ = (pieces s).1.flatMap (fun p => p.gap ++ p.word) ++ (gap ++ t) := by
          simp [joinPieces, gap]
      _ = joinPieces ((pieces s).1 ++ rest.1) rest.2 := by
          rw [← ht]
          simp [joinPieces]
  rw [hjoin, pieces_joinPieces (separated_append hsep hrest hgaps) hblank]

/-- A text that is one word. -/
theorem pieces_word {w : Text} (hw : IsWord w) : pieces w = ([⟨[], w⟩], []) := by
  have hsep : Separated [⟨[], w⟩] := separated_cons.mpr ⟨hw, isBlank_nil, nofun, separated_nil⟩
  have hjoin : w = joinPieces [⟨[], w⟩] [] := by simp [joinPieces]
  rw [hjoin, pieces_joinPieces hsep isBlank_nil]
  simp [joinPieces]

/-- A word behind whitespace is a piece of its own. -/
theorem pieces_append_word {c : Char} (hc : isWhitespace c = true) (t : Text) {w : Text}
    (hw : IsWord w) :
    pieces (t ++ c :: w) = ((pieces t).1 ++ [⟨(pieces t).2 ++ [c], w⟩], []) := by
  rw [pieces_append hc, pieces_word hw]
  simp [prependGap]

theorem splitWhitespace_word {w : Text} (hw : IsWord w) : splitWhitespace w = [w] := by
  rw [splitWhitespace, pieces_word hw]
  rfl

/-- The last word of a text may go or stay; the others do what they do without it. -/
theorem removeWords_append_word {blank : Char → Bool} (gone : Text → Bool) {c : Char}
    (hc : isWhitespace c = true) (hblank : blank c = true) (t : Text) {w : Text} (hw : IsWord w) :
    removeWords blank gone (t ++ c :: w) =
      if gone w then removeWords blank gone t else removeWords blank gone t ++ c :: w := by
  have hkeep : ∀ (ps : List Piece) (tail : Text),
      joinPieces (keepPieces blank gone (ps ++ [⟨tail ++ [c], w⟩], [])).1
          (keepPieces blank gone (ps ++ [⟨tail ++ [c], w⟩], [])).2 =
        joinPieces (keepPieces blank gone (ps, tail)).1 (keepPieces blank gone (ps, tail)).2 ++
          if gone w then [] else c :: w := by
    intro ps tail
    induction ps with
    | nil =>
      have hdrop : dropBlank blank (tail ++ [c]) = tail := by simp [dropBlank, hblank]
      rw [List.nil_append, keepPieces_cons]
      split
      · simp [hdrop, keepPieces, prependGap, joinPieces]
      · simp [keepPieces, joinPieces]
    | cons p ps ih =>
      have hcons : ∀ (q : Piece) (qs : List Piece) (rest : Text),
          joinPieces (q :: qs) rest = q.gap ++ (q.word ++ joinPieces qs rest) := by
        intro q qs rest
        simp [joinPieces]
      rw [List.cons_append, keepPieces_cons, keepPieces_cons]
      split
      · rw [joinPieces_prependGap, joinPieces_prependGap, ih, List.append_assoc]
      · rw [hcons, hcons, ih, List.append_assoc, List.append_assoc]
  have h := hkeep (pieces t).1 (pieces t).2
  rw [← pieces_append_word hc t hw] at h
  unfold removeWords
  rw [h]
  split
  · rw [List.append_nil]
  · rfl

/-- Taking out the only word leaves nothing. -/
theorem removeWords_word {blank : Char → Bool} {gone : Text → Bool} {w : Text} (hw : IsWord w)
    (hgone : gone w = true) : removeWords blank gone w = [] := by
  rw [removeWords, pieces_word hw, keepPieces_cons, if_pos hgone]
  simp [keepPieces, prependGap, joinPieces, dropBlank]

/-! ### Words at the end -/

theorem trimEnd_append_word (t : Text) {w : Text} (hw : IsWord w) : trimEnd (t ++ w) = t ++ w := by
  induction w using List.reverseRecOn with
  | nil => exact absurd rfl hw.1
  | append_singleton w c _ =>
    have hc : isWhitespace c = false := hw.2 c (by simp)
    rw [← List.append_assoc, trimEnd_concat _ hc]

theorem trimEnd_joinPieces {ps : List Piece} {tail : Text} (hps : Separated ps)
    (htail : IsBlank tail) : trimEnd (joinPieces ps tail) = joinPieces ps [] := by
  have hjoin : joinPieces ps tail = joinPieces ps [] ++ tail := by simp [joinPieces]
  rw [hjoin, trimEnd_append_of_whitespace _ htail]
  induction ps using List.reverseRecOn with
  | nil => exact trimEnd_nil
  | append_singleton qs q _ =>
    have hq : IsWord q.word := hps.word q (by simp)
    have hlast : joinPieces (qs ++ [q]) [] = (joinPieces qs [] ++ q.gap) ++ q.word := by
      simp [joinPieces]
    rw [hlast, trimEnd_append_word _ hq]

/-- Whitespace at the end is behind the last word. -/
theorem pieces_trimEnd (t : Text) : pieces (trimEnd t) = ((pieces t).1, []) := by
  obtain ⟨hsep, htail⟩ := separated_pieces t
  have htrim : trimEnd t = joinPieces (pieces t).1 [] := by
    rw [← trimEnd_joinPieces hsep htail, joinPieces_pieces]
  rw [htrim, pieces_joinPieces hsep isBlank_nil]

theorem splitWhitespace_trimEnd (t : Text) : splitWhitespace (trimEnd t) = splitWhitespace t := by
  rw [splitWhitespace, pieces_trimEnd, splitWhitespace]

theorem splitWhitespace_cons_of_whitespace {c : Char} (hc : isWhitespace c = true) (t : Text) :
    splitWhitespace (c :: t) = splitWhitespace t := by
  show ((pieceCons c (pieces t)).1).map Piece.word = _
  rw [splitWhitespace]
  rcases pieces t with ⟨_ | ⟨p, ps⟩, tail⟩ <;> simp [pieceCons, hc]

theorem splitWhitespace_trimStart (t : Text) :
    splitWhitespace (trimStart t) = splitWhitespace t := by
  induction t with
  | nil => rfl
  | cons c t ih =>
    cases hc : isWhitespace c with
    | true =>
      rw [splitWhitespace_cons_of_whitespace hc, ← ih, trimStart, List.dropWhile_cons_of_pos hc]
      rfl
    | false => rw [trimStart, List.dropWhile_cons_of_neg (by simp [hc])]

theorem splitWhitespace_trim (t : Text) : splitWhitespace (trim t) = splitWhitespace t := by
  rw [trim, splitWhitespace_trimEnd, splitWhitespace_trimStart]

/-- The words on either side of whitespace do not touch. -/
theorem splitWhitespace_append {c : Char} (hc : isWhitespace c = true) (s t : Text) :
    splitWhitespace (s ++ c :: t) = splitWhitespace s ++ splitWhitespace t := by
  rw [splitWhitespace, pieces_append hc, List.map_append, map_word_prependGap]
  rfl

/-- A text that does not begin with whitespace has a word. -/
theorem splitWhitespace_cons_ne_nil {c : Char} (hc : isWhitespace c = false) (t : Text) :
    splitWhitespace (c :: t) ≠ [] := by
  show ((pieceCons c (pieces t)).1).map Piece.word ≠ []
  rcases pieces t with ⟨_ | ⟨p, ps⟩, tail⟩
  · simp [pieceCons, hc]
  · by_cases hgap : p.gap = [] <;> simp [pieceCons, hc, hgap]

end Text
