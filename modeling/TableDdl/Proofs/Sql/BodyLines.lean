import TableDdl.Proofs.Grammar.Choice
import TableDdl.Proofs.Grammar.Rounds
import TableDdl.Proofs.Sql.Words

/-!
# The lines of a body

A line is tried as an index before it is tried as a column.  A column can be taken for an index only
if its name is `KEY` or `INDEX` without a backtick in front (`bodyLine_of_column`): behind `PRIMARY`
and `UNIQUE`, an index goes on with one of these words and a column with a type.

A column line ends with a comma, or in front of a parenthesis that it leaves.  Since no line begins
with a parenthesis, that one ends the loop and closes the body (`columns_separated`), so two columns
always have a comma between them.
-/

namespace TableDdl.Sql

open Grammar Text

variable {d : Dialect} {extended : Bool} {c mid next e : Cursor} {column : Column} {s : CreateTable}

/-! ## The parts of a column line -/

/-- A column line up to where it ends. -/
def columnFront (extended : Bool) :
    Grammar ((String × DataType × Option String) × String) :=
  seq (seq (preceded whitespace0 identifier)
    (seq (preceded whitespace1 (dataType extended))
      (preceded defaultClause (optional commentClause)))) whitespace0

/-- A column is its front, what ends the line, and blanks. -/
theorem run_columnLine_eq_matched (hm : (columnLine extended).run c = .matched next column) :
    ∃ e mid parts found w, (columnFront extended).run c = .matched e parts ∧
      lineEnd.run e = .matched mid found ∧ whitespace0.run mid = .matched next w ∧
      column = ⟨parts.1.1, parts.1.2.1, parts.1.2.2.getD ""⟩ := by
  obtain ⟨parts, hparts, rfl⟩ := run_map_eq_matched_iff.1 hm
  obtain ⟨both, hboth, rfl⟩ := run_map_eq_matched_iff.1 hparts
  obtain ⟨c1, hfront, hend⟩ := run_seq_eq_matched_iff.1 hboth
  obtain ⟨e, hblanks, hend⟩ := run_seq_eq_matched_iff.1 hend
  obtain ⟨mid, hend, hrest⟩ := run_seq_eq_matched_iff.1 hend
  have hcolumn : (columnFront extended).run c = .matched e (both.1, both.2.1) :=
    run_seq_eq_matched_iff.2 ⟨c1, hfront, hblanks⟩
  exact ⟨e, mid, (both.1, both.2.1), _, _, hcolumn, hend, hrest, rfl⟩

/-- A line ends with a comma, or in front of a parenthesis. -/
theorem run_lineEnd_eq_matched {found : Option String} (hm : lineEnd.run e = .matched mid found) :
    e.Took mid [','] ∨ found = none ∧ mid = e ∧ e.rest.head? = some ')' := by
  rcases run_orElse_eq_matched hm with hm | ⟨-, hm⟩
  · obtain ⟨w, hw, -⟩ := run_map_eq_matched_iff.1 hm
    exact .inl (took_exactly hw)
  · rcases run_orElse_eq_matched hm with hm | ⟨-, hm⟩
    · obtain ⟨w, hw, rfl⟩ := run_map_eq_matched_iff.1 hm
      rw [run] at hw
      split at hw
      · next hhead =>
        obtain ⟨rfl, -⟩ := Outcome.matched.inj hw
        exact .inr ⟨rfl, rfl, by simpa using hhead⟩
      · simp at hw
    · simp [alternatives] at hm

theorem run_columnLine_of_bodyLine
    (hm : (bodyLine extended).run c = .matched next (.column column)) :
    (columnLine extended).run c = .matched next column := by
  rcases run_orElse_eq_matched hm with hm | ⟨-, hm⟩
  · obtain ⟨index, -, hindex⟩ := run_map_eq_matched_iff.1 hm
    simp at hindex
  · obtain ⟨found, hfound, hcolumn⟩ := run_map_eq_matched_iff.1 hm
    obtain rfl := BodyLine.column.inj hcolumn
    exact hfound

theorem run_whitespace0_of_headNot {w : String} (hc : HeadNot isBlank c.rest)
    (hm : whitespace0.run c = .matched next w) : next = c := by
  have hread := reads_whitespace0 (w := []) (by simp) hc c rfl
  rw [hm] at hread
  exact (Outcome.matched.inj hread).1

/-! ## Columns that look like indexes -/

/-- The name of a column stands behind blanks, and behind it a type. -/
theorem exists_identifier_of_columnLine (hm : (columnLine extended).run c = .matched next column) :
    ∃ c1 c2, c1.rest = trimStart c.rest ∧ identifier.run c1 = .matched c2 column.name ∧
      firstWord (trimStart c2.rest) ∈ typeWords.map String.toList := by
  obtain ⟨e, mid, parts, found, w, hfront, -, -, rfl⟩ := run_columnLine_eq_matched hm
  obtain ⟨e', hparts, -⟩ := run_seq_eq_matched_iff.1 hfront
  obtain ⟨c2, hname, hrest⟩ := run_seq_eq_matched_iff.1 hparts
  obtain ⟨c3, htype, -⟩ := run_seq_eq_matched_iff.1 hrest
  obtain ⟨c1, b, hblanks, hname⟩ := run_preceded_eq_matched_iff.1 hname
  have hword := (opens_dataType extended).behind_whitespace1.firstWord_mem htype
  exact ⟨c1, c2, run_whitespace0_eq_matched hblanks, hname, hword⟩

/-- A prefix takes all of the first word. -/
theorem run_indexPrefix_eq_matched {kind : IndexKind}
    (hm : indexPrefix.run c = .matched next kind) :
    firstWord c.rest ∈ ["primary", "unique"].map String.toList ∧
      next.rest = c.rest.dropWhile isWord := by
  refine ⟨opens_indexPrefix.firstWord_mem hm, ?_⟩
  have hword {k : String} {found : IndexKind} (hk : isKeyword k = true)
      (hm : (map (fun _ => found) (keyword k)).run c = .matched next kind) :
      next.rest = c.rest.dropWhile isWord := by
    obtain ⟨w, hw, -⟩ := run_map_eq_matched_iff.1 hm
    rw [(run_keyword_eq_matched hk hw).2, rest_advance_takeWhile]
  rcases run_orElse_eq_matched hm with hm | ⟨-, hm⟩
  · exact hword (by decide) hm
  · rcases run_orElse_eq_matched hm with hm | ⟨-, hm⟩
    · exact hword (by decide) hm
    · simp [alternatives] at hm

theorem decides_indexKind : Decides indexKind := by
  have hprimary : Decides (keyword "primary") := decides_keyword (by decide)
  have hunique : Decides (keyword "unique") := decides_keyword (by decide)
  have hfirst : Decides indexPrefix :=
    (hprimary.map _).orElse ((hunique.map _).orElse decides_fail)
  have hspaced := (hfirst.seq decides_whitespace1).map Prod.fst
  exact hspaced.optional.map _

/-- Behind what stands in front of an index there is no word of an index, if the name of the column
is another one. -/
theorem firstWord_of_indexKind (hm : (columnLine extended).run c = .matched next column)
    (hname : firstWord (trimStart c.rest) ∉ ["key", "index"].map String.toList)
    {kind : IndexKind} (hkind : (preceded whitespace0 indexKind).run c = .matched mid kind) :
    firstWord mid.rest ∉ ["key", "index"].map String.toList := by
  obtain ⟨c1, c2, hc1, hidentifier, htype⟩ := exists_identifier_of_columnLine hm
  obtain ⟨c1', b, hblanks, hkind⟩ := run_preceded_eq_matched_iff.1 hkind
  have hc1' : c1'.rest = c1.rest := (run_whitespace0_eq_matched hblanks).trans hc1.symm
  obtain ⟨found, hfound, -⟩ := run_map_eq_matched_iff.1 hkind
  rcases run_optional_eq_matched hfound with ⟨a, ha, -⟩ | ⟨-, rfl, -⟩
  · -- `PRIMARY` or `UNIQUE` is the name of the column, and behind its blanks comes the type
    obtain ⟨both, hboth, -⟩ := run_map_eq_matched_iff.1 ha
    obtain ⟨p, hfirst, hspace⟩ := run_seq_eq_matched_iff.1 hboth
    obtain ⟨hword, hp⟩ := run_indexPrefix_eq_matched hfirst
    obtain ⟨hblank, hmid⟩ := run_whitespace1_eq_matched hspace
    rw [hc1'] at hword hp
    have htick : c1.rest.head? ≠ some '`' := by
      intro htick
      rw [firstWord_eq_nil (headNot_of_head? htick (by decide))] at hword
      exact absurd hword (by decide)
    rcases (run_identifier_eq_matched hidentifier htick).2 with hc2 | hclosed
    · rw [hc2, ← hp, ← hmid] at htype
      intro hindex
      have hnone : ∀ w ∈ typeWords.map String.toList, w ∉ ["key", "index"].map String.toList := by
        decide
      exact hnone _ htype hindex
    · -- a backtick behind the name leaves the index without blanks there
      rw [← hp] at hclosed
      exact absurd (headNot_of_head? hclosed (by decide)) hblank
  · -- the word of an index would be the name of the column
    rw [hc1', hc1]
    exact hname

/-- A column of another name is no index, and no number in it is too long for one. -/
theorem mismatches_indexLine (hm : (columnLine extended).run c = .matched next column)
    (hname : firstWord (trimStart c.rest) ∉ ["key", "index"].map String.toList) :
    Mismatches indexLine c := by
  have hfront : Decides (preceded whitespace0 indexKind) :=
    (decides_whitespace0.seq decides_indexKind).map Prod.snd
  suffices hline : Mismatches (seq (preceded whitespace0 indexKind) _) c from
    ((hline.seq _).map _).map _
  rcases hfront c with ⟨mid, kind, hkind⟩ | hkind
  · have hword := firstWord_of_indexKind hm hname hkind
    refine Mismatches.seq_right (Rejects.mismatches ?_) hkind
    exact (opens_indexWord.preceded _).seq _ _ hword
  · exact hkind.seq _

/-- The name of the column is the first word, if no backtick opens it. -/
theorem firstWord_of_columnLine (hm : (columnLine extended).run c = .matched next column)
    (htick : (trimStart c.rest).head? ≠ some '`') :
    firstWord (trimStart c.rest) = column.name.toList.map asciiLower := by
  obtain ⟨c1, c2, hc1, hidentifier, -⟩ := exists_identifier_of_columnLine hm
  rw [← hc1] at htick ⊢
  rw [(run_identifier_eq_matched hidentifier htick).1, firstWord]

/-- **Columns that look like indexes**: a column line is also an index line only if its name is
`KEY` or `INDEX` and no backtick opens it.  Any other column line is read as the column. -/
theorem bodyLine_of_column (hm : (columnLine extended).run c = .matched next column) :
    (∀ e index, indexLine.run c = .matched e index → (trimStart c.rest).head? ≠ some '`' ∧
        column.name.toList.map asciiLower ∈ ["key", "index"].map String.toList) ∧
      ((trimStart c.rest).head? = some '`' ∨
          column.name.toList.map asciiLower ∉ ["key", "index"].map String.toList →
        (bodyLine extended).run c = .matched next (.column column)) := by
  have hnone (hother : (trimStart c.rest).head? = some '`' ∨
      column.name.toList.map asciiLower ∉ ["key", "index"].map String.toList) :
      Mismatches indexLine c := by
    refine mismatches_indexLine hm ?_
    by_cases htick : (trimStart c.rest).head? = some '`'
    · rw [firstWord_eq_nil (headNot_of_head? htick (by decide))]
      decide
    · rw [firstWord_of_columnLine hm htick]
      exact hother.resolve_left htick
  refine ⟨fun e index hindex => ?_, fun hother => ?_⟩
  · by_contra hnot
    obtain ⟨place, hp⟩ := hnone (by tauto)
    rw [hp] at hindex
    simp at hindex
  · obtain ⟨place, hp⟩ := (hnone hother).map BodyLine.index
    rw [bodyLine, run_orElse, hp, Outcome.recover, run_map_of_matched hm BodyLine.column,
      Outcome.recover]

/-- A column that is read as the index `INT` on a column `11`. -/
def keyLine : List Char := "Key INT(11),".toList

/-- A column that is named like what stands in front of an index. -/
def primaryLine : List Char := "primary INT(11),".toList

theorem bodyLine_of_column_keyLine :
    (∃ next, (columnLine false).run (.start keyLine) = .matched next ⟨"Key", ⟨.int, 0⟩, ""⟩) ∧
      (∃ next index, indexLine.run (.start keyLine) = .matched next index ∧
        index.columnNames = ["11"]) ∧
      "Key".toList.map asciiLower ∈ ["key", "index"].map String.toList ∧
      (bodyLine false).run (.start primaryLine) =
        .matched (.atPosition primaryLine 16) (.column ⟨"primary", ⟨.int, 0⟩, ""⟩) := by
  have hkey : (columnLine false).run (.start keyLine) =
      .matched (.atPosition keyLine 12) ⟨"Key", ⟨.int, 0⟩, ""⟩ := by decide +kernel
  have hindex : indexLine.run (.start keyLine) =
      .matched (.atPosition keyLine 12) ⟨"INT", .normal, ["11"], none⟩ := by decide +kernel
  have hprimary : (columnLine false).run (.start primaryLine) =
      .matched (.atPosition primaryLine 16) ⟨"primary", ⟨.int, 0⟩, ""⟩ := by decide +kernel
  exact ⟨⟨_, hkey⟩, ⟨_, _, hindex, rfl⟩, ((bodyLine_of_column hkey).1 _ _ hindex).2,
    (bodyLine_of_column hprimary).2 (.inr (by decide))⟩

/-! ## Between the lines of a body -/

/-- A statement up to its first line. -/
def tableFront :
    Grammar (String × String × (String × Option (String × String) × String × String) ×
      Option (String × String) × String × String × String × String) :=
  pair whitespace0 (pair (keyword "create") (pair tableHead (pair ifNotExists
    (pair identifier (seq whitespace0 (seq (exactly "(") whitespace0))))))

/-- How the body of a statement was read: in rounds of lines from behind the opening parenthesis to
where blanks and the parenthesis that closes the body were found. -/
structure BodyRead (d : Dialect) (c next : Cursor) (s : CreateTable) where
  opening : Cursor
  lines : List (Round BodyLine)
  closing : Cursor
  /-- Where the closing parenthesis stands. -/
  parenthesis : Cursor
  behind : Cursor
  front : ∃ parts, tableFront.run c = .matched opening parts
  rounds : Rounds (bodyLine d.extendedTypes) opening lines closing
  values : lines.map Round.value = s.body
  blanks : ∃ w, whitespace0.run closing = .matched parenthesis w
  closes : ∃ w, (exactly ")").run parenthesis = .matched behind w
  options : (tableOptions d.relaxedOptions).run behind = .matched next s.options

/-- What the line took ends with a comma and blanks. -/
def EndsInComma (line : Round BodyLine) : Prop :=
  ∃ u b, line.start.Took line.stop (u ++ ',' :: b) ∧ ∀ x ∈ b, isBlank x = true

/-- The line was read as a column, and was ended by the parenthesis at `e`, which it left. -/
def EndsBefore (extended : Bool) (line : Round BodyLine) (e : Cursor) : Prop :=
  (∃ parts, (columnFront extended).run line.start = .matched e parts) ∧
    lineEnd.run e = .matched e none ∧ line.stop = e

/-- The steps of a statement that is matched, with the loop over its lines taken round by round. -/
theorem exists_bodyRead (hm : (createTable d).run c = .matched next s) :
    Nonempty (BodyRead d c next s) := by
  obtain ⟨parts, hparts, rfl⟩ := run_map_eq_matched_iff.1 hm
  obtain ⟨c1, hblanks, h1⟩ := run_pair_eq_matched_iff.1 hparts
  obtain ⟨c2, hcreate, h2⟩ := run_pair_eq_matched_iff.1 h1
  obtain ⟨c3, hhead, h3⟩ := run_pair_eq_matched_iff.1 h2
  obtain ⟨c4, hexists, h4⟩ := run_pair_eq_matched_iff.1 h3
  obtain ⟨c5, hname, h5⟩ := run_pair_eq_matched_iff.1 h4
  obtain ⟨opening, _, hopen, h6⟩ := run_map_snd_pair_eq_matched_iff.1 h5
  obtain ⟨closing, hlines, h7⟩ := run_pair_eq_matched_iff.1 h6
  obtain ⟨behind, _, hclose, hoptions⟩ := run_map_snd_pair_eq_matched_iff.1 h7
  obtain ⟨parenthesis, hspace, hclose⟩ := run_seq_eq_matched_iff.1 hclose
  obtain ⟨values, hvalues, hne⟩ := run_refine_eq_matched_iff.1 hlines
  obtain ⟨lines, hrounds, rfl⟩ := exists_rounds hvalues
  have hcondition := run_pair_of_matched hexists (run_pair_of_matched hname hopen)
  have hwords := run_pair_of_matched hcreate (run_pair_of_matched hhead hcondition)
  have hfront := run_pair_of_matched hblanks hwords
  exact ⟨⟨opening, lines, closing, parenthesis, behind, ⟨_, hfront⟩, hrounds,
    (nonempty?_eq_some hne).1, ⟨_, hspace⟩, ⟨_, hclose⟩, hoptions⟩⟩

/-- A column line ends with its comma, or in front of a parenthesis. -/
theorem endsInComma_or_endsBefore {line : Round BodyLine}
    (hm : (columnLine extended).run line.start = .matched line.stop column) :
    EndsInComma line ∨ EndsBefore extended line line.stop ∧ line.stop.rest.head? = some ')' := by
  obtain ⟨e, mid, parts, found, w, hfront, hend, hblanks, -⟩ := run_columnLine_eq_matched hm
  rcases run_lineEnd_eq_matched hend with hcomma | ⟨rfl, rfl, hhead⟩
  · obtain ⟨u, hu⟩ := took_of_run hfront
    obtain ⟨hstop, -⟩ := Outcome.matched.inj hblanks
    have hspaces := took_takeWhile mid isBlank
    rw [hstop] at hspaces
    exact .inl ⟨u, _, hu.trans (hcomma.trans hspaces), isBlank_of_mem_takeWhile mid.rest⟩
  · have hstop := run_whitespace0_of_headNot (headNot_of_head? hhead (by decide)) hblanks
    rw [hstop]
    exact .inr ⟨⟨⟨parts, hfront⟩, hend, hstop⟩, hhead⟩

/-- Where a parenthesis comes next, the loop over the lines has ended, and the parenthesis closes
the body. -/
theorem BodyRead.eq_of_parenthesis (body : BodyRead d c next s) {back : List (Round BodyLine)}
    (hback : Rounds (bodyLine d.extendedTypes) e back body.closing)
    (hhead : e.rest.head? = some ')') : back = [] ∧ body.parenthesis = e := by
  have hblank : HeadNot isBlank e.rest := headNot_of_head? hhead (by decide)
  have hword : HeadNot isWord (trimStart e.rest) := by
    rw [trimStart_eq_self hblank]
    exact headNot_of_head? hhead (by decide)
  have htick : (trimStart e.rest).head? ≠ some '`' := by
    rw [trimStart_eq_self hblank, hhead]
    decide
  have hrej : Rejects (bodyLine d.extendedTypes) e.rest := rejects_bodyLine hword htick
  obtain ⟨hnil, hclosing⟩ := hback.of_rejects hrej
  obtain ⟨w, hw⟩ := body.blanks
  rw [hclosing] at hw
  exact ⟨hnil, run_whitespace0_of_headNot hblank hw⟩

/-- **Commas between columns**: a column line in front of another line ends with a comma.  One that
does not is the last line, and the parenthesis that it stopped in front of closes the body. -/
theorem columns_separated (hm : (createTable d).run c = .matched next s) :
    Nonempty (BodyRead d c next s) ∧
      ∀ (body : BodyRead d c next s) (front back : List (Round BodyLine)) (line : Round BodyLine)
        (column : Column), body.lines = front ++ line :: back → line.value = .column column →
          (back ≠ [] → EndsInComma line) ∧
            (¬EndsInComma line →
              back = [] ∧ EndsBefore d.extendedTypes line body.parenthesis) := by
  refine ⟨exists_bodyRead hm, fun body front back line column hlines hvalue => ?_⟩
  have hrounds := body.rounds
  rw [hlines] at hrounds
  obtain ⟨hline, hback⟩ := hrounds.of_append
  rw [hvalue] at hline
  rcases endsInComma_or_endsBefore (run_columnLine_of_bodyLine hline) with hcomma | ⟨hbefore, hhead⟩
  · exact ⟨fun _ => hcomma, fun hnot => absurd hcomma hnot⟩
  · -- the parenthesis was left where it is, so the next round fails and the body is closed there
    obtain ⟨hnil, hparenthesis⟩ := body.eq_of_parenthesis hback hhead
    exact ⟨fun hne => absurd hnil hne, fun _ => ⟨hnil, hparenthesis ▸ hbefore⟩⟩

/-- A relaxed statement with two columns. -/
def twoColumns : List Char := "CREATE TABLE t (a INT, b INT)".toList

theorem columns_separated_twoColumns :
    ∃ (body : BodyRead ⟨true, false⟩ (.start twoColumns) (.atPosition twoColumns 29)
        ⟨"t", [.column ⟨"a", ⟨.int, 0⟩, ""⟩, .column ⟨"b", ⟨.int, 0⟩, ""⟩], {}⟩)
      (first second : Round BodyLine), body.lines = [first, second] ∧ EndsInComma first ∧
        ¬EndsInComma second ∧ EndsBefore false second body.parenthesis := by
  have hm : (createTable ⟨true, false⟩).run (.start twoColumns) =
      .matched (.atPosition twoColumns 29)
        ⟨"t", [.column ⟨"a", ⟨.int, 0⟩, ""⟩, .column ⟨"b", ⟨.int, 0⟩, ""⟩], {}⟩ := by
    decide +kernel
  obtain ⟨⟨body⟩, hall⟩ := columns_separated hm
  have hvalues := body.values
  have hlength : body.lines.length = 2 := by simpa using congrArg List.length hvalues
  obtain ⟨first, second, hlines⟩ := List.length_eq_two.1 hlength
  rw [hlines] at hvalues
  obtain ⟨hfirst, hrest⟩ := List.cons.inj hvalues
  obtain ⟨hsecond, -⟩ := List.cons.inj hrest
  have hcomma := (hall body [] [second] first _ hlines hfirst).1 (by simp)
  -- with a comma behind the second line, too, there would be two in the statement
  have hnot : ¬EndsInComma second := by
    rintro ⟨u', b', hsecondTook, -⟩
    obtain ⟨u, b, hfirstTook, -⟩ := hcomma
    obtain ⟨parts, hfront⟩ := body.front
    obtain ⟨w, hfrontTook⟩ := took_of_run hfront
    have hrounds := body.rounds
    rw [hlines] at hrounds
    cases hrounds with
    | round _ _ hrounds =>
        cases hrounds with
        | round _ _ _ =>
            have htook := hfrontTook.trans (hfirstTook.trans hsecondTook)
            have htext : twoColumns = _ := htook.1
            have hcount : twoColumns.count ',' = 1 := by decide
            rw [htext] at hcount
            simp only [List.count_append, List.count_cons_self] at hcount
            omega
  have hbefore := (hall body [first] [] second _ hlines hsecond).2 hnot
  exact ⟨body, first, second, hlines, hcomma, hnot, hbefore.2⟩

end TableDdl.Sql
