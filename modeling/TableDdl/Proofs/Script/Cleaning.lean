import TableDdl.Proofs.Script.Relaid
import TableDdl.Proofs.Text.Lines
import TableDdl.Script.Comments

/-!
# What cleaning does to a statement

Cleaning drops the blank lines and the comment lines of a script and joins the other lines by line
feeds (`cleanLines`).  A text whose lines all begin outside of strings, and not like a comment, is
laid out anew thereby and keeps everything else (`relaid_cleanLines`).
-/

namespace TableDdl.Script

open Text Mode

/-- The lines of a text that are neither blank nor a comment. -/
def keptLines (text : List Char) : List (List Char) := (lines text).filter isKeptLine

/-- The text without its blank lines and comment lines. -/
def cleanLines (text : List Char) : List Char := joinLines (keptLines text)

theorem clean_eq (script : List Char) : clean script = cleanLines (dropByteOrderMark script) := rfl

/-! ## Lines that are kept -/

/-- Character that comments begin with. -/
def opensComment (c : Char) : Bool := c == '#' || c == '-' || c == '/'

/-- Trimming keeps the first character that is not blank. -/
theorem exists_trim_eq_cons {l rest : List Char} {c : Char} (h : trimStart l = c :: rest) :
    ∃ more, trim l = c :: more := by
  have hc : isBlank c = false := by
    have hhead := headNot_trimStart l
    rw [h] at hhead
    exact headNot_cons.1 hhead
  obtain ⟨b, hb, htext⟩ := exists_trimEnd (c :: rest)
  rw [trim, h]
  cases htrim : trimEnd (c :: rest) with
  | nil =>
      rw [trimEnd_eq_nil_iff] at htrim
      rw [htrim c List.mem_cons_self] at hc
      exact absurd hc.symm Bool.false_ne_true
  | cons d more =>
      rw [htrim] at htext
      obtain ⟨rfl, -⟩ := List.cons.inj htext
      exact ⟨more, rfl⟩

/-- A line is kept if it does not begin like a comment. -/
theorem isKeptLine_of_trimStart {l rest : List Char} {c : Char} (h : trimStart l = c :: rest)
    (hc : opensComment c = false) : isKeptLine l = true := by
  obtain ⟨more, hmore⟩ := exists_trim_eq_cons h
  have hblank : isAllBlank l = false := by
    by_contra hall
    have := trimStart_eq_nil_iff.2 (isAllBlank_iff.1 (Bool.of_not_eq_false hall))
    rw [h] at this
    simp at this
  simp only [opensComment, Bool.or_eq_false_iff, beq_eq_false_iff_ne] at hc
  obtain ⟨⟨hhash, hdash⟩, hslash⟩ := hc
  simp [isKeptLine, isCommentLine, hblank, hmore, List.isPrefixOf, hhash.symm, hdash.symm,
    hslash.symm]

/-- A line of blanks is dropped. -/
theorem not_isKeptLine_of_isBlank {l : List Char} (hl : ∀ c ∈ l, isBlank c = true) :
    isKeptLine l = false := by
  simp [isKeptLine, isAllBlank_iff.2 hl]

/-! ## Clear texts -/

/-- Outside of strings nothing opens a comment, and inside of strings no line ends. -/
def Clear (m : Mode) : List Char → Prop
  | [] => True
  | c :: text =>
      (m = .plain → opensComment c = false) ∧ (m ≠ .plain → isLineBreak c = false) ∧
        Clear (m.stepString c) text

/-- A text is clear just if its parts are, the second in the mode that the first leads to. -/
theorem clear_append {m : Mode} {u v : List Char} :
    Clear m (u ++ v) ↔ Clear m u ∧ Clear (m.scanString u) v := by
  induction u generalizing m with
  | nil => simp [Clear]
  | cons c u ih => simp [Clear, ih, and_assoc]

/-- A clear text has its line breaks outside of strings. -/
theorem Clear.of_isLineBreak {m : Mode} {c : Char} {text : List Char} (h : Clear m (c :: text))
    (hc : isLineBreak c = true) : m = .plain := by
  by_contra hm
  rw [h.2.1 hm] at hc
  exact Bool.false_ne_true hc

/-- A line of a clear text that is not blank is kept, whatever it goes on with. -/
theorem Clear.isKeptLine {l : List Char} (hl : Clear .plain l) (hne : trimStart l ≠ [])
    (more : List Char) : isKeptLine (l ++ more) = true := by
  obtain ⟨c, rest, hc⟩ := List.exists_cons_of_ne_nil hne
  have hsplit := takeWhile_append_trimStart l
  have hb := isBlank_of_mem_takeWhile l
  rw [← hsplit, clear_append, scanString_plain_of_isBlank hb, hc] at hl
  have htrim : trimStart (l ++ more) = c :: (rest ++ more) := by
    rw [trimStart_append_of_not_blank hne, hc, List.cons_append]
  exact isKeptLine_of_trimStart htrim (hl.2.1 rfl)

theorem Clear.isKeptLine_self {l : List Char} (hl : Clear .plain l) (hne : trimStart l ≠ []) :
    Script.isKeptLine l = true := by
  have hkept := hl.isKeptLine hne []
  rwa [List.append_nil] at hkept

theorem scanString_trimStart (l : List Char) :
    plain.scanString (trimStart l) = plain.scanString l := by
  have hb := isBlank_of_mem_takeWhile l
  have hall := scanString_append .plain (l.takeWhile isBlank) (trimStart l)
  rw [takeWhile_append_trimStart, scanString_plain_of_isBlank hb] at hall
  exact hall.symm

theorem stepString_plain_of_isBlank {c : Char} (hc : isBlank c = true) :
    plain.stepString c = .plain :=
  stepString_plain (Quoted.not_isQuote_of_isBlank hc)

/-! ## Cleaning -/

/-- The first line is kept or dropped, whatever comes behind its break. -/
theorem cleanLines_line {l br rest : List Char} (hl : Unbroken l) (hbr : Breaks br rest) :
    cleanLines (l ++ (br ++ rest)) =
      if isKeptLine l then joinLines (l :: keptLines rest) else cleanLines rest := by
  rw [cleanLines, keptLines, lines_append_of_breaks hl hbr, List.filter_cons]
  split <;> rfl

theorem keptLines_of_unbroken {l : List Char} (hl : Unbroken l) :
    keptLines l = [l].filter isKeptLine := by
  by_cases hne : l = []
  · subst hne
    rfl
  · rw [keptLines, lines_of_unbroken hl hne]

theorem cleanLines_of_unbroken {l : List Char} (hl : Unbroken l) :
    cleanLines l = if isKeptLine l then l else [] := by
  rw [cleanLines, keptLines_of_unbroken hl, List.filter_singleton]
  cases isKeptLine l with
  | false => rfl
  | true => exact joinLines_singleton l

section Relaid

variable {E : Mode → List Char → List Char → Prop}

/-- Of two texts that are alike and one of which is empty, the other is an ending. -/
theorem Relaid.of_nil {t : List Char} (h : Relaid E .plain t []) : E .plain t [] := by
  rcases h.plain_cases with h | ⟨_, _, _, -, h, -⟩ | ⟨_, _, _, _, -, h, -, -⟩
  · exact h
  · simp at h
  · simp at h

/-- Texts that are alike behind their blanks are alike with blanks in front of both. -/
theorem Relaid.blanks_append {b b' t t' : List Char}
    (h : Relaid E .plain (Text.trimStart t) (Text.trimStart t')) (hne : b ≠ [])
    (hb : ∀ c ∈ b, isBlank c = true) (hne' : b' ≠ []) (hb' : ∀ c ∈ b', isBlank c = true) :
    Relaid E .plain (b ++ t) (b' ++ t') := by
  have hfront : b ++ t.takeWhile isBlank ≠ [] := by simp [hne]
  have hfront' : b' ++ t'.takeWhile isBlank ≠ [] := by simp [hne']
  have happ := Relaid.blanks hfront (List.forall_mem_append.2 ⟨hb, isBlank_of_mem_takeWhile t⟩)
    hfront' (List.forall_mem_append.2 ⟨hb', isBlank_of_mem_takeWhile t'⟩) h
  rwa [List.append_assoc, List.append_assoc, takeWhile_append_trimStart,
    takeWhile_append_trimStart] at happ

/-- Blanks in front of an ending belong to it. -/
theorem Relaid.blanks_append_nil {b t : List Char} (h : Relaid E .plain (Text.trimStart t) [])
    (hnil : ∀ b r, (∀ c ∈ b, isBlank c = true) → E .plain r [] → E .plain (b ++ r) [])
    (hb : ∀ c ∈ b, isBlank c = true) : Relaid E .plain (b ++ t) [] := by
  have htake := isBlank_of_mem_takeWhile t
  have hended := hnil _ _ (List.forall_mem_append.2 ⟨hb, htake⟩) h.of_nil
  rw [List.append_assoc, takeWhile_append_trimStart] at hended
  exact .ended hended

/-- A line that is kept, with the line break behind it.  Where all lines behind it are dropped, the
break ends the text. -/
theorem Relaid.line_append {l br rest : List Char} {ks : List (List Char)}
    (h : Relaid E .plain (Text.trimStart rest) (Text.trimStart (joinLines ks)))
    (hnil : ∀ b r, (∀ c ∈ b, isBlank c = true) → E .plain r [] → E .plain (b ++ r) [])
    (hl : plain.scanString l = .plain) (hne : br ≠ []) (hbr : ∀ c ∈ br, isBlank c = true) :
    Relaid E .plain (l ++ (br ++ rest)) (l ++ if ks = [] then [] else '\n' :: joinLines ks) := by
  refine Relaid.append _ (hl.symm ▸ ?_)
  split
  · next hnone =>
    rw [hnone] at h
    exact h.blanks_append_nil hnil hbr
  · have hfeed : ∀ c ∈ ['\n'], isBlank c = true := List.forall_mem_singleton.2 (by decide)
    exact h.blanks_append hne hbr (List.cons_ne_nil _ _) hfeed

/-- **Cleaning** lays a clear text anew, whatever stands behind it, if it does so with its last
line. -/
theorem relaid_cleanLines {tail : List Char}
    (hnil : ∀ b r, (∀ c ∈ b, isBlank c = true) → E .plain r [] → E .plain (b ++ r) [])
    {x : List Char} (hx : Clear .plain x)
    (htail : ∀ y, x = y ++ ['\r'] → tail.head? ≠ some '\n')
    (hlast : ∀ front last, x = front ++ last → Unbroken last → plain.scanString front = .plain →
      Relaid E .plain (trimStart last) (trimStart (cleanLines (last ++ tail)))) :
    Relaid E .plain (trimStart x) (trimStart (cleanLines (x ++ tail))) := by
  induction x using line_induction with
  | unbroken l hl => exact hlast [] l rfl hl rfl
  | line l br rest hl hbr ih =>
      obtain ⟨hne, hbreak⟩ := hbr.isLineBreak
      have hbrBlank : ∀ c ∈ br, isBlank c = true := fun c hc => isBlank_of_isLineBreak (hbreak c hc)
      obtain ⟨hxl, hxr⟩ := clear_append.1 hx
      have hm : plain.scanString l = .plain := by
        obtain ⟨c, br', rfl⟩ := List.exists_cons_of_ne_nil hne
        exact hxr.of_isLineBreak (hbreak c List.mem_cons_self)
      rw [hm, clear_append, scanString_plain_of_isBlank hbrBlank] at hxr
      have hrest := ih hxr.2 (fun y hy => htail (l ++ (br ++ y)) (by simp [hy]))
        fun front last hfl hu hf => hlast (l ++ (br ++ front)) last (by simp [hfl]) hu (by
          rw [scanString_append, hm, scanString_append, scanString_plain_of_isBlank hbrBlank, hf])
      have hbr' : Breaks br (rest ++ tail) := hbr.append fun hcr hnil => by
        subst hcr hnil
        exact htail l (by simp)
      rw [List.append_assoc, List.append_assoc, cleanLines_line hl hbr']
      by_cases hblank : trimStart l = []
      · have hall := trimStart_eq_nil_iff.1 hblank
        rw [not_isKeptLine_of_isBlank hall, if_neg Bool.false_ne_true, trimStart_append hall,
          trimStart_append hbrBlank]
        exact hrest
      · have hkept := hxl.isKeptLine_self hblank
        have hml : plain.scanString (trimStart l) = .plain := by rw [scanString_trimStart, hm]
        rw [if_pos hkept, joinLines_cons, trimStart_append_of_not_blank hblank,
          trimStart_append_of_not_blank hblank]
        exact hrest.line_append hnil hml hne hbrBlank

/-- A clear text that ends outside of strings is only laid out anew by cleaning. -/
theorem relaid_cleanLines_self
    (hnil : ∀ b r, (∀ c ∈ b, isBlank c = true) → E .plain r [] → E .plain (b ++ r) [])
    (hend : E .plain [] []) {x : List Char} (hx : Clear .plain x)
    (hm : plain.scanString x = .plain) :
    Relaid E .plain (trimStart x) (trimStart (cleanLines x)) := by
  have h : Relaid E .plain (trimStart x) (trimStart (cleanLines (x ++ []))) := by
    refine relaid_cleanLines hnil hx (by simp) fun front last hfl hlast hfront => ?_
    rw [hfl, clear_append, hfront] at hx
    rw [hfl, scanString_append, hfront] at hm
    rw [List.append_nil, cleanLines_of_unbroken hlast]
    by_cases hblank : trimStart last = []
    · rw [not_isKeptLine_of_isBlank (trimStart_eq_nil_iff.1 hblank), hblank,
        if_neg Bool.false_ne_true]
      exact .ended hend
    · have hkept := hx.2.isKeptLine_self hblank
      rw [if_pos hkept]
      have htail : Relaid E (plain.scanString (trimStart last)) [] [] := by
        rw [scanString_trimStart, hm]
        exact .ended hend
      have happ := htail.append
      rwa [List.append_nil] at happ
  rwa [List.append_nil] at h

end Relaid

/-- The first text ends inside of a string, and the line of the second one ends there. -/
def Torn : Mode → List Char → List Char → Prop :=
  fun m r r' => m ≠ .plain ∧ r = [] ∧ (r' = [] ∨ ∃ w, r' = '\n' :: w)

/-- A line break inside of a string becomes a line feed, or the end of the text. -/
theorem relaid_cleanLines_torn {x : List Char} {c : Char} (hx : Clear .plain x)
    (hm : plain.scanString x ≠ .plain) (hc : isLineBreak c = true) (rest : List Char) :
    Relaid Torn .plain (trimStart x) (trimStart (cleanLines (x ++ c :: rest))) := by
  refine relaid_cleanLines (fun b r _ h => absurd rfl h.1) hx (fun y hy => ?_)
    fun front last hfl hlast hfront => ?_
  · rw [hy, clear_append] at hx
    rw [hy, scanString_append, hx.2.of_isLineBreak (by decide)] at hm
    exact absurd rfl hm
  · rw [hfl, clear_append, hfront] at hx
    rw [hfl, scanString_append, hfront] at hm
    have hblank : trimStart last ≠ [] := by
      intro hnil
      exact hm (scanString_plain_of_isBlank (trimStart_eq_nil_iff.1 hnil))
    have hkept := hx.2.isKeptLine_self hblank
    obtain ⟨br, rest', htext, hbr⟩ := exists_breaks hc rest
    rw [htext, cleanLines_line hlast hbr, if_pos hkept, joinLines_cons,
      trimStart_append_of_not_blank hblank]
    have htail : Relaid Torn (plain.scanString (trimStart last)) []
        (if keptLines rest' = [] then [] else '\n' :: joinLines (keptLines rest')) := by
      rw [scanString_trimStart]
      refine .ended ⟨hm, rfl, ?_⟩
      split
      · exact .inl rfl
      · exact .inr ⟨_, rfl⟩
    have happ := htail.append
    rwa [List.append_nil] at happ

/-! ## Statements in a row -/

/-- The last line of a clear text begins outside of strings. -/
theorem Clear.scanString_front {front last : List Char} (h : Clear .plain (front ++ last))
    (hfront : ∀ c ∈ front.getLast?, isLineBreak c = true) : plain.scanString front = .plain := by
  cases hc : front.getLast? with
  | none =>
      rw [List.getLast?_eq_none_iff.1 hc]
      rfl
  | some c =>
      have hbreak := hfront c hc
      obtain ⟨y, rfl⟩ := List.getLast?_eq_some_iff.1 hc
      rw [clear_append, clear_append] at h
      rw [scanString_append, h.1.2.of_isLineBreak hbreak]
      exact stepString_plain_of_isBlank (isBlank_of_isLineBreak hbreak)

/-- A semicolon makes its line one that is kept. -/
theorem Clear.isKeptLine_semicolon {l : List Char} (hl : Clear .plain l) :
    Script.isKeptLine (l ++ [';']) = true := by
  by_cases hblank : trimStart l = []
  · have htrim : trimStart (l ++ [';']) = [';'] := by
      rw [trimStart_append (trimStart_eq_nil_iff.1 hblank)]
      rfl
    exact isKeptLine_of_trimStart htrim (by decide)
  · exact hl.isKeptLine hblank [';']

/-- The lines of a clear text that are kept, without its last one, and the last one with and without
a semicolon behind it. -/
theorem Clear.exists_keptLines {x : List Char} (hx : Clear .plain x) :
    ∃ ks last, Clear .plain last ∧ keptLines x = ks ++ [last].filter Script.isKeptLine ∧
      keptLines (x ++ [';']) = ks ++ [last ++ [';']] := by
  obtain ⟨front, ls, last, rfl, hlast, hfront, hlines⟩ := exists_lastLine x
  have hclear := hx
  rw [clear_append, hx.scanString_front hfront] at hclear
  have hline : Unbroken (last ++ [';']) :=
    unbroken_append.2 ⟨hlast, List.forall_mem_singleton.2 (by decide)⟩
  refine ⟨ls.filter Script.isKeptLine, last, hclear.2, ?_, ?_⟩
  · have hself := hlines [] fun _ => by simp
    rw [List.append_nil, List.append_nil] at hself
    rw [keptLines, hself, List.filter_append, ← keptLines_of_unbroken hlast, keptLines]
  · rw [keptLines, hlines [';'] fun _ => by simp, List.filter_append, ← keptLines,
      keptLines_of_unbroken hline, List.filter_singleton, hclear.2.isKeptLine_semicolon]
    rfl

/-- A semicolon behind a clear text is kept, perhaps on a line of its own. -/
theorem exists_cleanLines_semicolon {x : List Char} (hx : Clear .plain x) :
    keptLines (x ++ [';']) ≠ [] ∧ ∃ b, (∀ c ∈ b, isBlank c = true) ∧
      cleanLines (x ++ [';']) = cleanLines x ++ (b ++ [';']) := by
  obtain ⟨ks, last, hlast, hself, hsemi⟩ := hx.exists_keptLines
  refine ⟨by simp [hsemi], ?_⟩
  rw [cleanLines, cleanLines, hsemi, hself, joinLines_concat]
  by_cases hblank : trimStart last = []
  · -- the semicolon stands on a line of its own
    have hb := trimStart_eq_nil_iff.1 hblank
    rw [List.filter_singleton, not_isKeptLine_of_isBlank hb, cond_false, List.append_nil]
    by_cases hks : ks = []
    · subst hks
      exact ⟨last, hb, rfl⟩
    · refine ⟨'\n' :: last, List.forall_mem_cons.2 ⟨by decide, hb⟩, ?_⟩
      rw [flatMap_newline hks, List.append_assoc]
      rfl
  · have hkept := hlast.isKeptLine_self hblank
    rw [List.filter_singleton, hkept, cond_true, joinLines_concat]
    exact ⟨[], List.forall_mem_nil _, (List.append_assoc _ _ _).symm⟩

/-- A line feed behind a semicolon keeps what is before it and what is behind it apart. -/
theorem cleanLines_append {x rest : List Char} (hx : Clear .plain x) (hrest : keptLines rest ≠ []) :
    cleanLines (x ++ ';' :: '\n' :: rest) =
      cleanLines (x ++ [';']) ++ '\n' :: cleanLines rest := by
  rw [cleanLines, keptLines, lines_append_newline (by decide), List.filter_append]
  exact joinLines_append (exists_cleanLines_semicolon hx).1 hrest

end TableDdl.Script
