import TableDdl.Proofs.Script.Agreement
import TableDdl.Proofs.Script.Comments

/-!
# What cleaning leaves of a comment

A block comment in front of a statement falls into lines together with it.  Of the lines before its
last one cleaning keeps some (`keptFront`); the last one (`lastLine`) holds the closing marks, and
the statement may begin there.  Then the line is kept as it is, unless it begins like a comment
that goes on to its end (`cleanLines_blockComment`).  If the statement begins below, the last line
of the comment may be dropped for itself (`cleanLines_blockComment_of_blank`).
-/

namespace TableDdl.Script

open Text Mode

variable {d : Dialect} {s u v : List Char}

/-! ## The lines of a comment -/

/-- A block comment around `c`, and a blank behind it. -/
def blockComment (c : List Char) : List Char := '/' :: '*' :: (c ++ ['*', '/', ' '])

/-- The last line of a text. -/
def lastLine (text : List Char) : List Char := (lines text).getLastD []

/-- The lines before the last one that cleaning keeps, each with a line feed behind it. -/
def keptFront (text : List Char) : List Char :=
  ((lines text).dropLast.filter isKeptLine).flatMap (· ++ ['\n'])

/-- The line begins like a comment that goes on to its end. -/
def opensLineComment (line : List Char) : Bool :=
  ['#'].isPrefixOf (trim line) || ['-', '-'].isPrefixOf (trim line)

/-- The marks that close a comment, and a blank behind them, stand on one line. -/
theorem unbroken_closing : Unbroken ['*', '/', ' '] := unbroken_of_all (by decide)

/-- The marks that close a comment are on its last line, and what comes behind the comment goes on
there. -/
theorem exists_lines_closing (text : List Char) :
    ∃ ls z, (∀ l ∈ z :: ls, l <:+: text) ∧ Unbroken (z ++ ['*', '/', ' ']) ∧
      lines (text ++ ['*', '/', ' ']) = ls ++ [z ++ ['*', '/', ' ']] ∧
      ∀ v, lines (text ++ ['*', '/', ' '] ++ v) = ls ++ lines (z ++ ['*', '/', ' '] ++ v) := by
  obtain ⟨front, ls, z, htext, hz, -, hlines⟩ := exists_lastLine text
  have hlast : Unbroken (z ++ ['*', '/', ' ']) := unbroken_append.2 ⟨hz, unbroken_closing⟩
  have happ (v : List Char) :
      lines (text ++ ['*', '/', ' '] ++ v) = ls ++ lines (z ++ ['*', '/', ' '] ++ v) := by
    rw [List.append_assoc, List.append_assoc, hlines _ fun _ => by simp]
  refine ⟨ls, z, ?_, hlast, ?_, happ⟩
  · have hself := hlines [] fun _ => by simp
    rw [List.append_nil, List.append_nil] at hself
    refine List.forall_mem_cons.2 ⟨⟨front, [], by rw [htext, List.append_nil]⟩, fun l hl => ?_⟩
    exact infix_of_mem_lines (by rw [hself]; exact List.mem_append_left _ hl)
  · have h := happ []
    rwa [List.append_nil, List.append_nil, lines_of_unbroken hlast (by simp)] at h

/-- The lines of a comment are those of what it says, and the last one goes on behind the closing
mark. -/
theorem exists_lines_blockComment (c : List Char) :
    ∃ ls z, (∀ l ∈ z :: ls, l <:+: '/' :: '*' :: c) ∧ Unbroken (z ++ ['*', '/', ' ']) ∧
      lines (blockComment c) = ls ++ [z ++ ['*', '/', ' ']] ∧
      ∀ v, lines (blockComment c ++ v) = ls ++ lines (z ++ ['*', '/', ' '] ++ v) :=
  exists_lines_closing ('/' :: '*' :: c)

/-- The text `s` has the first line `l`, which goes on with whatever is put in front of the text,
and the other lines `rest`. -/
structure FirstLine (s l tail : List Char) (rest : List (List Char)) : Prop where
  text : s = l ++ tail
  ends : ∀ c ∈ tail.head?, isLineBreak c = true
  lines : ∀ last, Unbroken last → lines (last ++ s) = (last ++ l) :: rest

/-- A text that is not empty has a first line. -/
theorem exists_firstLine (hs : s ≠ []) : ∃ l tail rest, FirstLine s l tail rest := by
  rcases exists_line s with hl | ⟨l, br, tail, rfl, hl, hbr⟩
  · refine ⟨s, [], [], by rw [List.append_nil], by simp, fun last hlast => ?_⟩
    exact lines_of_unbroken (unbroken_append.2 ⟨hlast, hl⟩) (by simp [hs])
  · refine ⟨l, br ++ tail, Text.lines tail, rfl, ?_, fun last hlast => ?_⟩
    · obtain ⟨hne, hbreak⟩ := hbr.isLineBreak
      rw [List.head?_append_of_ne_nil _ hne]
      exact fun c hc => hbreak c (List.mem_of_head? hc)
    · rw [← List.append_assoc, lines_append_of_breaks (unbroken_append.2 ⟨hlast, hl⟩) hbr]

/-- A string goes on behind characters that are neither its quote nor a backslash. -/
theorem scanString_quoted {q : Char} (hu : ∀ c ∈ u, c ≠ q ∧ c ≠ '\\') :
    (quoted q).scanString u = quoted q :=
  scanString_eq_self fun c hc => step_quoted (hu c hc).1 (hu c hc).2

/-- A star of a statement stands in a string. -/
theorem exists_quoted_of_star (h : Statement.Spelled (u ++ '*' :: v)) :
    ∃ q, Quoted.isQuote q = true ∧ plain.scanString u = quoted q := by
  rcases h.admits_or with ha | ⟨-, hc | ⟨hc, -⟩⟩
  · cases hm : plain.scanString u with
    | plain =>
        rw [hm] at ha
        exact absurd ha (by decide)
    | quoted q =>
        rw [hm, admits, Bool.and_eq_true] at ha
        exact ⟨q, ha.1, rfl⟩
    | escaped q =>
        rw [hm] at ha
        exact absurd ha Bool.false_ne_true
  · exact absurd hc (by decide)
  · exact absurd hc (by decide)

/-- A line of a statement that ends outside of strings does not end like a comment. -/
theorem not_suffix_trimEnd {l tail w : List Char} (h : Statement.Spelled (l ++ tail))
    (hl : plain.scanString l = .plain) (hw : w = ['*', '/'] ∨ w = ['*', '/', ';']) :
    ¬w <:+ trimEnd l := by
  rintro ⟨y, hy⟩
  obtain ⟨b, hb, htext⟩ := exists_trimEnd l
  obtain ⟨e, rfl, he⟩ : ∃ e, w = '*' :: e ∧ ∀ c ∈ e, c = '/' ∨ c = ';' := by
    rcases hw with rfl | rfl
    · exact ⟨_, rfl, by simp⟩
    · exact ⟨_, rfl, by simp⟩
  have hsplit : l = y ++ '*' :: (e ++ b) := by
    rw [htext, ← hy, List.append_assoc, List.cons_append]
  rw [hsplit, List.append_assoc] at h
  obtain ⟨q, hq, hm⟩ := exists_quoted_of_star h
  rw [hsplit, scanString_append, hm, scanString_quoted] at hl
  · simp at hl
  · have hne {c : Char} (hc : Quoted.isQuote c = false ∧ c ≠ '\\') : c ≠ q ∧ c ≠ '\\' :=
      ⟨fun h => absurd (h ▸ hq) (by rw [hc.1]; simp), hc.2⟩
    refine List.forall_mem_cons.2 ⟨hne (by decide), List.forall_mem_append.2 ⟨?_, ?_⟩⟩
    · intro c hc
      rcases he c hc with rfl | rfl
      · exact hne (by decide)
      · exact hne (by decide)
    · intro c hc
      refine hne ⟨Quoted.not_isQuote_of_isBlank (hb c hc), ?_⟩
      rintro rfl
      exact absurd (hb _ hc) (by decide)

/-! ## The line on which a comment ends -/

/-- Of the last line of a comment, trimming leaves what ends with the closing mark. -/
theorem trim_closing (z : List Char) :
    trim (z ++ ['*', '/', ' ']) = trimStart z ++ ['*', '/'] := by
  have hsplit : z ++ ['*', '/', ' '] = z ++ ['*'] ++ ['/'] ++ [' '] := by simp
  rw [hsplit, trim_append_blanks (List.forall_mem_singleton.2 (by decide)), trim,
    trimStart_concat (by decide), trimStart_concat (by decide), trimEnd_concat (by decide),
    List.append_assoc]
  rfl

theorem trim_closing_append (z : List Char) {l : List Char} (hl : isAllBlank l = false) :
    trim (z ++ ['*', '/', ' '] ++ l) = trimStart z ++ ['*', '/'] ++ ' ' :: trimEnd l := by
  have hsplit : z ++ ['*', '/', ' '] ++ trimEnd l = z ++ ['*'] ++ '/' :: ' ' :: trimEnd l := by simp
  rw [trim_append_of_not_blank hl, hsplit, trimStart_append_of_not_blank,
    trimStart_concat (by decide)]
  · simp
  · simp [trimStart_concat (c := '*') (by decide)]

/-- What stands behind a text that is long enough does not change how it begins. -/
theorem isPrefixOf_append {w x : List Char} (hw : w.length ≤ x.length) (y : List Char) :
    w.isPrefixOf (x ++ y) = w.isPrefixOf x := by
  rw [Bool.eq_iff_iff, List.isPrefixOf_iff_prefix, List.isPrefixOf_iff_prefix]
  exact ⟨fun h => List.prefix_of_prefix_length_le h (List.prefix_append x y) hw,
    fun h => h.trans (List.prefix_append x y)⟩

/-- A mark without blanks does not end a text whose last part it does not end. -/
theorem isSuffixOf_of_not_mem {w e : List Char} (hw : ' ' ∉ w) (he : ¬w <:+ e) (x : List Char) :
    w.isSuffixOf (x ++ ' ' :: e) = false := by
  by_contra h
  have hsuffix := List.isSuffixOf_iff_suffix.1 (Bool.of_not_eq_false h)
  rcases List.suffix_or_suffix_of_suffix hsuffix (List.suffix_append x (' ' :: e)) with h | h
  · rcases List.suffix_cons_iff.1 h with rfl | h
    · exact hw List.mem_cons_self
    · exact he h
  · exact hw (h.subset List.mem_cons_self)

/-- Behind a comment it is seen on its own last line how the line begins. -/
theorem isPrefixOf_trim_closing_append {w l : List Char} (hw : w.length ≤ 2) (z : List Char)
    (hl : isAllBlank l = false) :
    w.isPrefixOf (trim (z ++ ['*', '/', ' '] ++ l)) =
      w.isPrefixOf (trim (z ++ ['*', '/', ' '])) := by
  rw [trim_closing_append z hl, trim_closing, isPrefixOf_append (hw.trans (by simp))]

/-- The line on which a comment ends and a statement begins is dropped if it begins like a comment
that goes on to its end. -/
theorem isKeptLine_closing_append_of_opens {z l : List Char} (hl : isAllBlank l = false)
    (hopen : opensLineComment (z ++ ['*', '/', ' ']) = true) :
    isKeptLine (z ++ ['*', '/', ' '] ++ l) = false := by
  rw [opensLineComment] at hopen
  rw [isKeptLine, isCommentLine, isPrefixOf_trim_closing_append (by decide) z hl,
    isPrefixOf_trim_closing_append (by decide) z hl, hopen]
  simp

/-- The line on which a comment ends and a statement begins is kept, unless it begins like a comment
that goes on to its end. -/
theorem isKeptLine_closing_append {z l : List Char} (hl : isAllBlank l = false)
    (hopen : opensLineComment (z ++ ['*', '/', ' ']) = false)
    (hends : ∀ w, w = ['*', '/'] ∨ w = ['*', '/', ';'] → ¬w <:+ trimEnd l) :
    isKeptLine (z ++ ['*', '/', ' '] ++ l) = true := by
  have hblank : isAllBlank (z ++ ['*', '/', ' '] ++ l) = false := by
    rw [isAllBlank, List.all_append, ← isAllBlank, ← isAllBlank, hl, Bool.and_false]
  rw [opensLineComment] at hopen
  have hshort : isCommentLine (z ++ ['*', '/', ' '] ++ l) = false := by
    rw [isCommentLine, isPrefixOf_trim_closing_append (by decide) z hl,
      isPrefixOf_trim_closing_append (by decide) z hl, hopen, trim_closing_append z hl,
      isSuffixOf_of_not_mem (by decide) (hends _ (.inr rfl)),
      isSuffixOf_of_not_mem (by decide) (hends _ (.inl rfl))]
    simp
  rw [isKeptLine, hblank, hshort]
  rfl

/-- Blanks at the end of a line do not count. -/
theorem isKeptLine_append_blanks {b : List Char} (hb : ∀ c ∈ b, isBlank c = true) (l : List Char) :
    isKeptLine (l ++ b) = isKeptLine l := by
  rw [isKeptLine, isCommentLine, isAllBlank_append_right hb, trim_append_blanks hb, isKeptLine,
    isCommentLine]

/-! ## What cleaning leaves of a comment -/

variable {t : Table} {l tail : List Char} {rest : List (List Char)}

/-- Behind a comment, the line that it ends on and the statement that begins there are kept as they
are. -/
theorem cleanLines_blockComment (h : (Statement.read d s).result = .ok t)
    (hbreaks : BreaksOutside s) (hfirst : FirstLine s l tail rest) (hl : trimStart l ≠ [])
    {c : List Char}
    (hopen : opensLineComment (lastLine (blockComment c)) = false) :
    cleanLines (blockComment c ++ s) =
      keptFront (blockComment c) ++ lastLine (blockComment c) ++ cleanLines s := by
  have hspelled := Statement.spelled_of_read h
  have hclear := clear_of_spelled hspelled hbreaks
  obtain ⟨ls, z, -, hlast, hlines, happ⟩ := exists_lines_blockComment c
  have hblank : isAllBlank l = false := by
    by_contra hall
    exact hl (trimStart_eq_nil_iff.2 (isAllBlank_iff.1 (Bool.of_not_eq_false hall)))
  rw [hfirst.text] at hspelled hclear
  have hm : plain.scanString l = .plain := by
    cases htail : tail with
    | nil =>
        rw [htail, List.append_nil] at hspelled
        exact hspelled.scanString
    | cons x more =>
        rw [htail] at hclear
        exact (clear_append.1 hclear).2.of_isLineBreak (hfirst.ends x (by rw [htail]; rfl))
  have hkept := (clear_append.1 hclear).1.isKeptLine_self hl
  have hself : lines s = l :: rest := hfirst.lines [] unbroken_nil
  rw [lastLine, hlines, List.getLastD_concat] at hopen ⊢
  have hkept' := isKeptLine_closing_append hblank hopen fun w hw =>
    not_suffix_trimEnd hspelled hm hw
  rw [keptFront, hlines, List.dropLast_concat, cleanLines, keptLines, happ,
    hfirst.lines _ hlast, cleanLines, keptLines, hself, List.filter_append, List.filter_cons,
    List.filter_cons, if_pos hkept, if_pos hkept', joinLines_append_cons, joinLines_cons,
    joinLines_cons l]
  simp

/-- If the statement begins on a line of its own, the line that the comment ends on may be
dropped. -/
theorem cleanLines_blockComment_of_blank (hs : cleanLines s ≠ []) (hfirst : FirstLine s l tail rest)
    (hl : ∀ c ∈ l, isBlank c = true) (c : List Char) :
    cleanLines (blockComment c ++ s) =
      if isKeptLine (lastLine (blockComment c)) = true then
        keptFront (blockComment c) ++ lastLine (blockComment c) ++ (l ++ '\n' :: cleanLines s)
      else keptFront (blockComment c) ++ cleanLines s := by
  obtain ⟨ls, z, -, hlast, hlines, happ⟩ := exists_lines_blockComment c
  have hself : keptLines s = rest.filter isKeptLine := by
    have hlines : lines s = l :: rest := hfirst.lines [] unbroken_nil
    rw [keptLines, hlines, List.filter_cons, not_isKeptLine_of_isBlank hl,
      if_neg Bool.false_ne_true]
  obtain ⟨m, ms, hm⟩ : ∃ m ms, keptLines s = m :: ms := by
    refine List.exists_cons_of_ne_nil fun hnil => hs ?_
    rw [cleanLines, hnil]
    rfl
  rw [lastLine, keptFront, hlines, List.getLastD_concat, List.dropLast_concat, cleanLines,
    keptLines, happ, hfirst.lines _ hlast, List.filter_append, List.filter_cons,
    isKeptLine_append_blanks hl, ← hself, cleanLines, hm]
  split
  · rw [joinLines_append_cons, joinLines_cons (_ ++ l), if_neg (List.cons_ne_nil m ms)]
    simp
  · exact joinLines_append_cons _ m ms

end TableDdl.Script
