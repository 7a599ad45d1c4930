import TableDdl.Proofs.Grammar.Case
import TableDdl.Sql.Rule
import TableDdl.Statement

/-!
# Statements do not see letter case

Every rule of the statement grammar reads texts that are the same up to letter case alike.  Folding
makes the letters of the texts in a value small and leaves kinds, sizes, numbers and the method of
an index as they are.

What a rule makes of its parts commutes with folding; for the two places where that takes a step of
its own, the options that are folded from settings and the columns that are picked from the lines,
it is a lemma beside the definition.
-/

namespace TableDdl

open Grammar Text

/-! ## Folding -/

namespace Column

def foldCase (c : Column) : Column :=
  { c with name := Text.foldCase c.name, comment := Text.foldCase c.comment }

end Column

namespace Index

/-- The method stays: it is in capitals already. -/
def foldCase (i : Index) : Index :=
  { i with name := Text.foldCase i.name, columnNames := i.columnNames.map Text.foldCase }

end Index

namespace BodyLine

def foldCase : BodyLine → BodyLine
  | column c => column c.foldCase
  | index i => index i.foldCase

/-- The columns among folded lines are the folded columns. -/
theorem filterMap_column?_map_foldCase (body : List BodyLine) :
    (body.map foldCase).filterMap column? = (body.filterMap column?).map Column.foldCase := by
  rw [List.filterMap_map, List.map_filterMap]
  refine congrArg (List.filterMap · body) (funext fun line => ?_)
  cases line with
  | column c => rfl
  | index i => rfl

end BodyLine

namespace TableOptions

def foldCase (o : TableOptions) : TableOptions where
  engine := Text.foldCase o.engine
  charset := Text.foldCase o.charset
  collate := Text.foldCase o.collate
  comment := Text.foldCase o.comment

end TableOptions

namespace Table

def foldCase (t : Table) : Table where
  name := Text.foldCase t.name
  columns := t.columns.map Column.foldCase
  options := t.options.foldCase

end Table

namespace DefaultValue

/-- The content of a default with its letters small. -/
def foldContent : DefaultContent → DefaultContent
  | .none => .none
  | .int n => .int n
  | .str s => .str (Text.foldCase s)

def foldCase (d : DefaultValue) : DefaultValue :=
  { d with content := foldContent d.content }

end DefaultValue

namespace Sql.OptionSetting

def foldCase : OptionSetting → OptionSetting
  | engine value => engine (Text.foldCase value)
  | charset value => charset (Text.foldCase value)
  | collate value => collate (Text.foldCase value)
  | comment value => comment (Text.foldCase value)
  | dropped => dropped

/-- A folded setting of folded options is the folded outcome. -/
theorem apply_foldCase (o : TableOptions) (s : OptionSetting) :
    s.foldCase.apply o.foldCase = (s.apply o).foldCase := by
  cases s <;> rfl

/-- Settings may be folded one by one or all at once, by induction on them. -/
theorem foldl_apply_map_foldCase (settings : List OptionSetting) (o : TableOptions) :
    (settings.map foldCase).foldl apply o.foldCase = (settings.foldl apply o).foldCase := by
  rw [List.foldl_map]
  exact List.foldl_hom TableOptions.foldCase fun o s => apply_foldCase o s

end Sql.OptionSetting

namespace Sql.CreateTable

def foldCase (s : CreateTable) : CreateTable where
  name := Text.foldCase s.name
  body := s.body.map BodyLine.foldCase
  options := s.options.foldCase

/-- Folding the parts of a statement folds the table that they make. -/
theorem table_foldCase (s : CreateTable) : s.foldCase.table = s.table.foldCase := by
  rw [table, table, foldCase, Table.ofBody, Table.ofBody, Table.foldCase,
    BodyLine.filterMap_column?_map_foldCase]

end Sql.CreateTable

namespace Value

mutual

/-- A value with the letters of its texts small. -/
def foldCase : Value → Value
  | null => null
  | str s => str (Text.foldCase s)
  | int n => int n
  | tuple items => tuple (foldCases items)
  | list items => list (foldCases items)
  | indexKind kind => indexKind kind
  | dataType t => dataType t
  | defaultValue d => defaultValue d.foldCase
  | column c => column c.foldCase
  | index i => index i.foldCase
  | tableOptions o => tableOptions o.foldCase
  | table t => table t.foldCase
  | success remaining value => success (Text.foldCase remaining) (foldCase value)
  | failure remaining => failure (Text.foldCase remaining)

/-- Several values with the letters of their texts small. -/
def foldCases : List Value → List Value
  | [] => []
  | value :: values => foldCase value :: foldCases values

end

/-- Several values are folded one by one. -/
theorem foldCases_eq_map (values : List Value) : foldCases values = values.map foldCase := by
  induction values with
  | nil => rw [foldCases, List.map_nil]
  | cons value values ih => rw [foldCases, ih, List.map_cons]

/-- A text that may be missing stays missing. -/
theorem foldCase_ofText (text : Option String) :
    (ofText text).foldCase = ofText (text.map Text.foldCase) := by
  cases text with
  | none => simp [ofText, foldCase]
  | some s => simp [ofText, foldCase]

theorem foldCase_ofNumber (number : Option Nat) : (ofNumber number).foldCase = ofNumber number := by
  cases number with
  | none => simp [ofNumber, foldCase]
  | some n => simp [ofNumber, foldCase]

/-- The value of a line folds as the line does. -/
theorem foldCase_ofLine (line : BodyLine) : (ofLine line).foldCase = ofLine line.foldCase := by
  cases line with
  | column c => simp [ofLine, foldCase, BodyLine.foldCase]
  | index i => simp [ofLine, foldCase, BodyLine.foldCase]

end Value

namespace Sql

/-! ## Marks -/

/-- A mark has no letters, so it is the same mark on both sides. -/
theorem caseBlind_opening : CaseBlind id (exactly "(") :=
  caseBlind_exactly (x := '(') rfl (by decide)

theorem caseBlind_closing : CaseBlind id (exactly ")") :=
  caseBlind_exactly (x := ')') rfl (by decide)

theorem caseBlind_comma : CaseBlind id (exactly ",") := caseBlind_exactly (x := ',') rfl (by decide)

/-! ## Types -/

/-- A size is a number between marks, and the number is the same one. -/
theorem caseBlind_typeSize : CaseBlind id typeSize := by
  have hend := caseBlind_whitespace0.seq caseBlind_closing
  have hnumber := caseBlind_whitespace0.preceded (caseBlind_unsignedInteger.followedBy hend)
  exact caseBlind_whitespace0.preceded (caseBlind_opening.preceded hnumber)

/-- One of several keywords, as it is written. -/
theorem caseBlind_words (texts : List String) :
    CaseBlind foldCase (alternatives (texts.map keyword)) := by
  refine caseBlind_alternatives fun g hg => ?_
  obtain ⟨text, -, rfl⟩ := List.mem_map.1 hg
  exact caseBlind_keyword text

/-- The word is found as it is written. -/
theorem caseBlind_typeModifier : CaseBlind foldCase typeModifier :=
  caseBlind_whitespace1.preceded (caseBlind_words ["unsigned", "zerofill"])

/-- `CHARACTER SET` is put in capitals, and `CHARSET` stays as it is written. -/
theorem caseBlind_charsetWords : CaseBlind foldCase charsetWords :=
  (caseBlind_keywords _).of_id.orElse (caseBlind_words ["charset"])

/-- A name behind blanks. -/
theorem caseBlind_nameBehind : CaseBlind foldCase (preceded whitespace1 identifier) :=
  caseBlind_whitespace1.preceded caseBlind_identifier

/-- The name of a character set is found as it is written. -/
theorem caseBlind_typeCharset : CaseBlind foldCase typeCharset :=
  caseBlind_whitespace1.preceded (caseBlind_charsetWords.preceded caseBlind_nameBehind)

theorem caseBlind_typeCollate : CaseBlind foldCase typeCollate :=
  caseBlind_whitespace1.preceded ((caseBlind_keyword _).preceded caseBlind_nameBehind)

/-- A keyword that stands for something else. -/
theorem caseBlind_named {α : Type} (value : α) (text : String) :
    CaseBlind id (map (fun _ => value) (keyword text)) :=
  (caseBlind_keyword text).map fun _ => rfl

/-- Whichever way its keyword is written, an integer type has the same kind. -/
theorem caseBlind_intKind : CaseBlind id intKind := by
  refine caseBlind_alternatives fun g hg => ?_
  obtain ⟨entry, -, rfl⟩ := List.mem_map.1 hg
  exact caseBlind_named entry.2 entry.1

/-- The modifiers are dropped, and with them how they are written. -/
theorem caseBlind_someInt : CaseBlind id someInt := by
  have hmodifier := caseBlind_typeModifier.optional
  have hparts := caseBlind_intKind.seq (caseBlind_typeSize.optional.seq (hmodifier.seq hmodifier))
  exact hparts.map fun _ => rfl

/-- The test of the width sees the same width. -/
theorem caseBlind_varchar : CaseBlind id varchar := by
  have hnames := caseBlind_typeCharset.optional.seq caseBlind_typeCollate.optional
  have hparts := (caseBlind_keyword "varchar").seq (caseBlind_typeSize.seq hnames)
  exact hparts.refine fun _ => by simp

theorem caseBlind_datetime : CaseBlind id datetime := by
  have hparts := (caseBlind_keyword "datetime").seq caseBlind_typeSize.optional
  exact hparts.refine fun _ => by simp

/-- Precision and scale are numbers, so the type is the same. -/
theorem caseBlind_decimal : CaseBlind id decimal := by
  have hhead := (caseBlind_keyword "decimal").seq
    (caseBlind_whitespace0.seq (caseBlind_opening.seq caseBlind_whitespace0))
  have hscale := caseBlind_whitespace0.preceded
    (caseBlind_comma.preceded (caseBlind_whitespace0.preceded caseBlind_unsignedInteger))
  have hparts := hhead.seq (caseBlind_unsignedInteger.seq
    (hscale.optional.seq (caseBlind_whitespace0.seq caseBlind_closing)))
  exact hparts.refine fun _ => by simp

/-- The names behind a type of the text family are dropped. -/
theorem caseBlind_textType : CaseBlind id textType := by
  have hkind : CaseBlind id textKind :=
    (caseBlind_named _ _).orElse ((caseBlind_named _ _).orElse caseBlind_fail)
  have hnames := caseBlind_typeCharset.optional.seq caseBlind_typeCollate.optional
  exact (hkind.seq hnames).map fun _ => rfl

/-- In each dialect the type of a column does not depend on case at all. -/
theorem caseBlind_dataType (extended : Bool) : CaseBlind id (dataType extended) := by
  refine caseBlind_alternatives fun g hg => ?_
  rcases List.mem_append.1 hg with hg | hg
  · simp only [List.mem_cons, List.not_mem_nil, or_false] at hg
    rcases hg with rfl | rfl | rfl | rfl
    · exact caseBlind_someInt
    · exact caseBlind_varchar
    · exact caseBlind_datetime
    · exact caseBlind_decimal
  · cases extended with
    | false => simp at hg
    | true =>
        obtain rfl := List.mem_singleton.1 hg
        exact caseBlind_textType

/-! ## Default values -/

/-- The words are tried in the same order whatever their case. -/
theorem caseBlind_nullClause : CaseBlind foldCase nullClause :=
  caseBlind_whitespace1.preceded ((caseBlind_keywords _).of_id.orElse (caseBlind_words ["null"]))

/-- The word is found as it is written, and its precision is the same. -/
theorem caseBlind_currentTimestamp :
    CaseBlind (Prod.map foldCase (Option.map id)) currentTimestamp :=
  (caseBlind_keyword _).seq caseBlind_typeSize.optional

/-- All the blanks and words of the clause are in its value. -/
theorem caseBlind_onUpdateClause :
    CaseBlind (Prod.map foldCase (Prod.map foldCase (Prod.map foldCase
      (Prod.map foldCase (Option.map id))))) onUpdateClause :=
  caseBlind_whitespace1.seq ((caseBlind_keywords _).of_id.seq
    (caseBlind_whitespace1.seq caseBlind_currentTimestamp))

/-- The word in front of a default is dropped. -/
theorem caseBlind_defaulted {α : Type} {fold : α → α} {g : Grammar α} (hg : CaseBlind fold g) :
    CaseBlind fold (defaulted g) :=
  (caseBlind_keyword _).preceded (caseBlind_whitespace1.preceded hg)

/-- An integer stays the same integer when it is folded. -/
theorem caseBlind_defaultInt : CaseBlind DefaultValue.foldCase defaultInt :=
  (caseBlind_defaulted caseBlind_unsignedInteger).map fun _ => rfl

/-- A string default is folded by its content. -/
theorem caseBlind_defaultStr : CaseBlind DefaultValue.foldCase defaultStr :=
  (caseBlind_defaulted caseBlind_quotedString).map fun _ => rfl

theorem caseBlind_defaultNull : CaseBlind DefaultValue.foldCase defaultNull :=
  (caseBlind_keywords _).map fun _ => rfl

/-- Of the clause behind it only counts whether it is there. -/
theorem caseBlind_defaultCurrentTimestamp :
    CaseBlind DefaultValue.foldCase defaultCurrentTimestamp := by
  have hparts := (caseBlind_defaulted caseBlind_currentTimestamp).seq
    caseBlind_onUpdateClause.optional
  refine hparts.map fun parts => ?_
  obtain ⟨-, update⟩ := parts
  cases update with
  | none => rfl
  | some _ => rfl

theorem caseBlind_autoIncrement : CaseBlind DefaultValue.foldCase autoIncrement :=
  (caseBlind_keyword _).map fun _ => rfl

/-- Each literal does not see case, so the choice between them does not. -/
theorem caseBlind_defaultLiteral : CaseBlind DefaultValue.foldCase defaultLiteral := by
  refine caseBlind_whitespace1.preceded (caseBlind_alternatives fun g hg => ?_)
  simp only [defaultLiterals, List.mem_cons, List.not_mem_nil, or_false] at hg
  rcases hg with rfl | rfl | rfl | rfl | rfl
  · exact caseBlind_defaultInt
  · exact caseBlind_defaultStr
  · exact caseBlind_defaultNull
  · exact caseBlind_defaultCurrentTimestamp
  · exact caseBlind_autoIncrement

/-- Of a default only counts that there is one. -/
theorem caseBlind_defaultClause : CaseBlind DefaultValue.foldCase defaultClause := by
  refine (caseBlind_nullClause.optional.seq caseBlind_defaultLiteral.optional).map fun parts => ?_
  obtain ⟨-, literal⟩ := parts
  cases literal with
  | none => rfl
  | some _ => rfl

/-! ## Lines -/

/-- A comment is a string, so it differs at most in case. -/
theorem caseBlind_commentClause : CaseBlind foldCase commentClause := by
  have hcontent := caseBlind_whitespace0.preceded caseBlind_quotedString
  have hclause := (caseBlind_keyword "comment").preceded hcontent
  exact caseBlind_whitespace1.preceded hclause

/-- The parenthesis that may end a line is no letter, so both texts have it or neither. -/
theorem caseBlind_lineEnd : CaseBlind id lineEnd := by
  have hclose : CaseBlind id (ahead fun next => next == some ')') :=
    caseBlind_ahead fun c c' h => by
      have hiff := eq_iff_eq_of_not_small (x := ')') (by decide) h
      rw [Bool.eq_iff_iff, beq_iff_eq, beq_iff_eq, Option.some.injEq, Option.some.injEq]
      exact eq_comm.trans (hiff.trans eq_comm)
  have hcommaLine : CaseBlind id (map some (exactly ",")) := caseBlind_comma.map fun _ => rfl
  have hcloseLine : CaseBlind id (map (fun _ => (none : Option String))
      (ahead fun next => next == some ')')) := hclose.map fun _ => rfl
  exact hcommaLine.orElse (hcloseLine.orElse caseBlind_fail)

/-- A column is folded by its name and its comment. -/
theorem caseBlind_columnLine (extended : Bool) :
    CaseBlind Column.foldCase (columnLine extended) := by
  have hname := caseBlind_whitespace0.preceded caseBlind_identifier
  have htype := caseBlind_whitespace1.preceded (caseBlind_dataType extended)
  have hcomment := caseBlind_defaultClause.preceded caseBlind_commentClause.optional
  have hend := caseBlind_whitespace0.seq (caseBlind_lineEnd.seq caseBlind_whitespace0)
  refine ((hname.seq (htype.seq hcomment)).followedBy hend).map fun parts => ?_
  obtain ⟨name, type, comment⟩ := parts
  cases comment with
  | none => rfl
  | some _ => rfl

theorem caseBlind_indexPrefix : CaseBlind id indexPrefix :=
  (caseBlind_named _ _).orElse ((caseBlind_named _ _).orElse caseBlind_fail)

/-- The words and blanks around a column are in its value. -/
theorem caseBlind_indexColumn :
    CaseBlind (Prod.map foldCase (Prod.map foldCase (Prod.map (Option.map id) (Prod.map
      (Option.map foldCase) (Prod.map foldCase (Option.map foldCase)))))) indexColumn := by
  have horder : CaseBlind foldCase sortOrder :=
    caseBlind_whitespace1.preceded (caseBlind_words ["asc", "desc"])
  have hcomma : CaseBlind foldCase (exactly ",") := caseBlind_comma.of_id
  have hend := caseBlind_whitespace0.seq hcomma.optional
  have hrest := caseBlind_typeSize.optional.seq (horder.optional.seq hend)
  exact caseBlind_whitespace0.seq (caseBlind_identifier.seq hrest)

/-- As many columns are found on both sides, and of each the name. -/
theorem caseBlind_indexColumns : CaseBlind (List.map foldCase) indexColumns := by
  have hcolumns :=
    caseBlind_indexColumn.many1.followedBy (caseBlind_whitespace0.seq caseBlind_closing)
  refine (caseBlind_opening.preceded hcolumns).map fun columns => ?_
  rw [List.map_map, List.map_map]
  rfl

/-- The method is found as it is written. It is put in capitals where the index is made. -/
theorem caseBlind_indexUsing : CaseBlind foldCase indexUsing := by
  have hmethod := caseBlind_whitespace1.preceded (caseBlind_words ["btree", "hash"])
  have hclause := (caseBlind_keyword "using").preceded hmethod
  exact caseBlind_whitespace1.preceded hclause

/-- Whether a prefix is there, and which one, does not depend on case. -/
theorem caseBlind_indexKind : CaseBlind id indexKind := by
  refine (caseBlind_indexPrefix.followedBy caseBlind_whitespace1).optional.map fun found => ?_
  rw [Option.map_id]
  rfl

/-- An index is folded by its name and the names of its columns. -/
theorem caseBlind_indexLine : CaseBlind Index.foldCase indexLine := by
  have hkind := caseBlind_whitespace0.preceded caseBlind_indexKind
  have hname := (caseBlind_words ["key", "index"]).preceded
    (caseBlind_whitespace0.preceded caseBlind_identifier.optional)
  have hcolumns := caseBlind_whitespace0.preceded caseBlind_indexColumns
  have hend := caseBlind_whitespace0.seq (caseBlind_comma.optional.seq caseBlind_whitespace0)
  have hparts := hkind.seq (hname.seq (hcolumns.seq caseBlind_indexUsing.optional))
  refine (hparts.followedBy hend).map fun parts => ?_
  obtain ⟨kind, name, columns, method⟩ := parts
  -- The method is put in capitals, which does not depend on its case.
  have hmethod : (method.map foldCase).map (fun word => capitals [word]) =
      method.map fun word => capitals [word] := by
    rw [Option.map_map]
    exact congrArg (Option.map · method) (funext fun word => capitals_map_foldCase [word])
  have hname : Text.foldCase (name.getD "") = (name.map foldCase).getD "" := by
    cases name with
    | none => rfl
    | some _ => rfl
  simp only [Index.foldCase, Prod.map_apply, hmethod, hname, id]

/-- A line is taken for an index on both sides, or for a column on both. -/
theorem caseBlind_bodyLine (extended : Bool) :
    CaseBlind BodyLine.foldCase (bodyLine extended) := by
  have hindex : CaseBlind BodyLine.foldCase (map BodyLine.index indexLine) :=
    caseBlind_indexLine.map fun _ => rfl
  have hcolumn : CaseBlind BodyLine.foldCase (map BodyLine.column (columnLine extended)) :=
    (caseBlind_columnLine extended).map fun _ => rfl
  exact hindex.orElse hcolumn

/-! ## Options -/

/-- An option is folded as its value is. -/
theorem caseBlind_optionOf {α β : Type} {fold : α → α} {fold' : β → β} {name : Grammar α}
    {value : Grammar β} (hname : CaseBlind fold name) (hvalue : CaseBlind fold' value) :
    CaseBlind fold' (optionOf name value) := by
  have hequals : CaseBlind id (exactly "=") := caseBlind_exactly (x := '=') rfl (by decide)
  have hspaced := caseBlind_whitespace0.preceded hvalue
  have hrest := caseBlind_whitespace0.preceded (hequals.optional.preceded hspaced)
  exact hname.preceded hrest

theorem caseBlind_defaultPrefix :
    CaseBlind (Option.map (Prod.map foldCase foldCase)) defaultPrefix :=
  ((caseBlind_keyword _).seq caseBlind_whitespace1).optional

theorem caseBlind_engineOption : CaseBlind foldCase engineOption :=
  caseBlind_optionOf (caseBlind_keyword _) caseBlind_identifier

theorem caseBlind_charsetOption : CaseBlind foldCase charsetOption :=
  caseBlind_optionOf (caseBlind_defaultPrefix.preceded caseBlind_charsetWords) caseBlind_identifier

theorem caseBlind_collateOption : CaseBlind foldCase collateOption :=
  caseBlind_optionOf (caseBlind_defaultPrefix.preceded (caseBlind_keyword _)) caseBlind_identifier

theorem caseBlind_commentOption : CaseBlind foldCase commentOption :=
  caseBlind_optionOf (caseBlind_keyword _) caseBlind_quotedString

/-- A number has no case. -/
theorem caseBlind_autoIncrementOption : CaseBlind id autoIncrementOption :=
  caseBlind_optionOf (caseBlind_keyword _) caseBlind_unsignedInteger

theorem caseBlind_rowFormatOption : CaseBlind foldCase rowFormatOption :=
  caseBlind_optionOf (caseBlind_keyword _) caseBlind_identifier

/-- Strict options are folded part by part. -/
theorem caseBlind_strictOptions : CaseBlind TableOptions.foldCase strictOptions := by
  have hengine := caseBlind_whitespace0.preceded caseBlind_engineOption
  have hcharset := caseBlind_whitespace1.preceded caseBlind_charsetOption
  have hcollate := caseBlind_whitespace1.preceded caseBlind_collateOption
  have hcomment := caseBlind_whitespace1.preceded caseBlind_commentOption
  exact (hengine.seq (hcharset.seq (hcollate.seq hcomment))).map fun _ => rfl

/-- A setting is folded by its value, if it has one. -/
theorem caseBlind_optionSetting : CaseBlind OptionSetting.foldCase optionSetting := by
  refine caseBlind_alternatives fun g hg => ?_
  simp only [optionSettings, List.mem_cons, List.not_mem_nil, or_false] at hg
  rcases hg with rfl | rfl | rfl | rfl | rfl | rfl
  · exact caseBlind_engineOption.map fun _ => rfl
  · exact caseBlind_charsetOption.map fun _ => rfl
  · exact caseBlind_collateOption.map fun _ => rfl
  · exact caseBlind_commentOption.map fun _ => rfl
  · exact caseBlind_autoIncrementOption.map fun _ => rfl
  · exact caseBlind_rowFormatOption.map fun _ => rfl

/-- As many settings are found on both sides, and they come to folded options. -/
theorem caseBlind_relaxedOptions : CaseBlind TableOptions.foldCase relaxedOptions := by
  have hsettings := (caseBlind_whitespace0.preceded caseBlind_optionSetting).many
  refine hsettings.map fun settings => ?_
  exact (OptionSetting.foldl_apply_map_foldCase settings {}).symm

theorem caseBlind_tableOptions (relaxed : Bool) :
    CaseBlind TableOptions.foldCase (tableOptions relaxed) := by
  cases relaxed with
  | false => exact caseBlind_strictOptions
  | true => exact caseBlind_relaxedOptions

/-! ## Statements -/

theorem caseBlind_temporaryWord :
    CaseBlind (Option.map (Prod.map foldCase foldCase)) temporaryWord :=
  ((caseBlind_keyword _).seq caseBlind_whitespace1).optional

/-- A statement is read in the same steps on both sides. -/
theorem caseBlind_createTable (d : Dialect) : CaseBlind CreateTable.foldCase (createTable d) := by
  have hoptions : CaseBlind TableOptions.foldCase
      (map Prod.snd (pair (seq whitespace0 (exactly ")")) (tableOptions d.relaxedOptions))) := by
    have hclose := caseBlind_whitespace0.seq caseBlind_closing
    exact (hclose.pair (caseBlind_tableOptions d.relaxedOptions)).map fun _ => rfl
  have hbody : CaseBlind (Prod.map (List.map BodyLine.foldCase) TableOptions.foldCase)
      (map Prod.snd (pair (seq whitespace0 (seq (exactly "(") whitespace0))
        (pair (many1 (bodyLine d.extendedTypes))
          (map Prod.snd
            (pair (seq whitespace0 (exactly ")")) (tableOptions d.relaxedOptions)))))) := by
    have hopen := caseBlind_whitespace0.seq (caseBlind_opening.seq caseBlind_whitespace0)
    have hlines := (caseBlind_bodyLine d.extendedTypes).many1.pair hoptions
    exact (hopen.pair hlines).map fun _ => rfl
  have hhead := caseBlind_whitespace1.seq
    (caseBlind_temporaryWord.seq ((caseBlind_keyword "table").seq caseBlind_whitespace1))
  have hexists := ((caseBlind_keywords ["if", "not", "exists"]).seq caseBlind_whitespace1).optional
  have hparts := caseBlind_whitespace0.pair ((caseBlind_keyword "create").pair
    (hhead.pair (hexists.pair (caseBlind_identifier.pair hbody))))
  exact hparts.map fun _ => rfl

/-- The table of folded parts is the folded table. -/
theorem caseBlind_tableSchema (d : Dialect) : CaseBlind Table.foldCase (tableSchema d) :=
  (caseBlind_createTable d).map fun s => s.table_foldCase.symm

/-- Whether a statement creates a table does not depend on letter case. -/
theorem isCreateTable_congr {text text' : List Char} (h : SameLetters text text') :
    isCreateTable text = isCreateTable text' := by
  have hhead : CaseBlind id createTableHead := by
    have htable := caseBlind_temporaryWord.seq (caseBlind_keyword "table")
    have hcreate := (caseBlind_keyword "create").seq (caseBlind_whitespace1.seq htable)
    exact (caseBlind_whitespace0.seq hcreate).map fun _ => rfl
  have hrun := hhead (.start text) (.start text') ⟨rfl, h⟩
  rw [isCreateTable, isCreateTable]
  generalize createTableHead.run (.start text) = x at hrun
  generalize createTableHead.run (.start text') = x' at hrun
  cases hrun <;> rfl

/-! ## Rules -/

/-- A text as a value is folded as the text is. -/
theorem caseBlind_str {g : Grammar String} (hg : CaseBlind foldCase g) :
    CaseBlind Value.foldCase (map .str g) :=
  hg.map fun _ => by rw [Value.foldCase]

/-- A number as a value stays the same. -/
theorem caseBlind_int {g : Grammar Nat} (hg : CaseBlind id g) :
    CaseBlind Value.foldCase (map (fun n : Nat => .int n) g) :=
  hg.map fun _ => by rw [Value.foldCase, id]

theorem caseBlind_dataTypeValue {g : Grammar DataType} (hg : CaseBlind id g) :
    CaseBlind Value.foldCase (map .dataType g) :=
  hg.map fun _ => by rw [Value.foldCase, id]

theorem caseBlind_defaultValue {g : Grammar DefaultValue} (hg : CaseBlind DefaultValue.foldCase g) :
    CaseBlind Value.foldCase (map .defaultValue g) :=
  hg.map fun _ => by rw [Value.foldCase]

theorem caseBlind_tableOptionsValue {g : Grammar TableOptions}
    (hg : CaseBlind TableOptions.foldCase g) : CaseBlind Value.foldCase (map .tableOptions g) :=
  hg.map fun _ => by rw [Value.foldCase]

theorem foldCase_timestampValue (parts : String × Option Nat) :
    (timestampValue parts).foldCase =
      timestampValue (Prod.map foldCase (Option.map id) parts) := by
  simp [timestampValue, Value.foldCase, Value.foldCases, Value.foldCase_ofNumber]

/-- The parts of a statement fold one by one in its value. -/
theorem foldCase_createTableValue (s : CreateTable) :
    (createTableValue s).foldCase = createTableValue s.foldCase := by
  simp [createTableValue, Value.foldCase, Value.foldCases, Value.foldCases_eq_map,
    Value.foldCase_ofLine, CreateTable.foldCase]

/-- No rule sees case. There is one case for each rule, and each by its grammar. -/
theorem caseBlind_rule (d : Dialect) (r : Rule) : CaseBlind Value.foldCase (r.grammar d) := by
  cases r with
  | whitespace0 => exact caseBlind_str caseBlind_whitespace0
  | whitespace1 => exact caseBlind_str caseBlind_whitespace1
  | unsignedInteger => exact caseBlind_int caseBlind_unsignedInteger
  | identifier => exact caseBlind_str caseBlind_identifier
  | quotedString => exact caseBlind_str caseBlind_quotedString
  | typeSize => exact caseBlind_int caseBlind_typeSize
  | typeModifier => exact caseBlind_str caseBlind_typeModifier
  | typeCharset => exact caseBlind_str caseBlind_typeCharset
  | typeCollate => exact caseBlind_str caseBlind_typeCollate
  | someInt => exact caseBlind_dataTypeValue caseBlind_someInt
  | varchar => exact caseBlind_dataTypeValue caseBlind_varchar
  | datetime => exact caseBlind_dataTypeValue caseBlind_datetime
  | decimal => exact caseBlind_dataTypeValue caseBlind_decimal
  | textType => exact caseBlind_dataTypeValue caseBlind_textType
  | dataType => exact caseBlind_dataTypeValue (caseBlind_dataType _)
  | nullClause => exact caseBlind_str caseBlind_nullClause
  | currentTimestamp => exact caseBlind_currentTimestamp.map foldCase_timestampValue
  | onUpdateClause =>
      refine caseBlind_onUpdateClause.map fun parts => ?_
      simp [onUpdateValue, Value.foldCase, Value.foldCases, foldCase_timestampValue]
  | defaultInt => exact caseBlind_defaultValue caseBlind_defaultInt
  | defaultStr => exact caseBlind_defaultValue caseBlind_defaultStr
  | defaultNull => exact caseBlind_defaultValue caseBlind_defaultNull
  | defaultCurrentTimestamp => exact caseBlind_defaultValue caseBlind_defaultCurrentTimestamp
  | autoIncrement => exact caseBlind_defaultValue caseBlind_autoIncrement
  | defaultLiteral => exact caseBlind_defaultValue caseBlind_defaultLiteral
  | defaultClause => exact caseBlind_defaultValue caseBlind_defaultClause
  | commentClause => exact caseBlind_str caseBlind_commentClause
  | lineEnd =>
      have hfolded : CaseBlind (Option.map foldCase) Sql.lineEnd := caseBlind_lineEnd.of_id
      exact hfolded.map Value.foldCase_ofText
  | columnLine => exact (caseBlind_columnLine _).map fun _ => by rw [Value.foldCase]
  | indexPrefix => exact caseBlind_indexPrefix.map fun _ => by rw [Value.foldCase, id]
  | indexColumn =>
      refine caseBlind_indexColumn.map fun parts => ?_
      simp [indexColumnValue, Value.foldCase, Value.foldCases, Value.foldCase_ofNumber,
        Value.foldCase_ofText]
  | indexColumns =>
      refine caseBlind_indexColumns.map fun names => ?_
      simp [Value.foldCase, Value.foldCases_eq_map]
  | indexUsing => exact caseBlind_str caseBlind_indexUsing
  | indexLine => exact caseBlind_indexLine.map fun _ => by rw [Value.foldCase]
  | bodyLine => exact (caseBlind_bodyLine _).map Value.foldCase_ofLine
  | engineOption => exact caseBlind_str caseBlind_engineOption
  | charsetOption => exact caseBlind_str caseBlind_charsetOption
  | collateOption => exact caseBlind_str caseBlind_collateOption
  | commentOption => exact caseBlind_str caseBlind_commentOption
  | autoIncrementOption => exact caseBlind_int caseBlind_autoIncrementOption
  | rowFormatOption => exact caseBlind_str caseBlind_rowFormatOption
  | strictOptions => exact caseBlind_tableOptionsValue caseBlind_strictOptions
  | relaxedOptions => exact caseBlind_tableOptionsValue caseBlind_relaxedOptions
  | createTable => exact (caseBlind_createTable d).map foldCase_createTableValue
  | tableSchema => exact (caseBlind_tableSchema d).map fun _ => by rw [Value.foldCase]

end Sql

/-- **Letter case**: in texts that are the same up to letter case, and exactly the same behind each
backslash, every rule of the grammar finds values that are the same up to the letters of their
texts, or stops, or meets an integer that is too long, and it does so at the same place.  So do the
keywords, in whatever case they are given, and the prefix of the options; and both texts begin like
a statement that creates a table, or neither. -/
theorem run_of_sameLetters {text text' : List Char} (h : Text.SameLetters text text') :
    (∀ (d : Dialect) (r : Sql.Rule) (pos : Nat),
      Outcome.SameLetters Value.foldCase ((r.grammar d).run (.atPosition text pos))
        ((r.grammar d).run (.atPosition text' pos))) ∧
    (∀ (word : String) (pos : Nat),
      Outcome.SameLetters foldCase ((keyword word).run (.atPosition text pos))
        ((keyword word).run (.atPosition text' pos))) ∧
    (∀ (words : List String) (pos : Nat),
      Outcome.SameLetters id ((keywords words).run (.atPosition text pos))
        ((keywords words).run (.atPosition text' pos))) ∧
    (∀ pos : Nat, Outcome.SameLetters (Option.map (Prod.map foldCase foldCase))
      (Sql.defaultPrefix.run (.atPosition text pos))
      (Sql.defaultPrefix.run (.atPosition text' pos))) ∧
    Sql.isCreateTable text = Sql.isCreateTable text' := by
  have hcursor (pos : Nat) : (Cursor.atPosition text pos).SameLetters (.atPosition text' pos) :=
    ⟨rfl, h⟩
  refine ⟨fun d r pos => ?_, fun word pos => ?_, fun words pos => ?_, fun pos => ?_, ?_⟩
  · exact Sql.caseBlind_rule d r _ _ (hcursor pos)
  · exact caseBlind_keyword word _ _ (hcursor pos)
  · exact caseBlind_keywords words _ _ (hcursor pos)
  · exact Sql.caseBlind_defaultPrefix _ _ (hcursor pos)
  · exact Sql.isCreateTable_congr h

/-- A statement with an escape in its comment. -/
def quietText : List Char :=
  "create table t (id int(3), key k (id) using btree) engine=e charset=c collate=l comment 'a\\nb'".toList

/-- The same statement in capitals, but for the escape. -/
def loudText : List Char :=
  "CREATE TABLE T (ID INT(3), KEY K (ID) USING BTREE) ENGINE=E CHARSET=C COLLATE=L COMMENT 'A\\nB'".toList

theorem run_of_sameLetters_loudText :
    Text.SameLetters quietText loudText ∧ Sql.isCreateTable quietText = Sql.isCreateTable loudText ∧
      Outcome.SameLetters Value.foldCase
        ((Sql.Rule.createTable.grammar {}).run (.atPosition quietText 0))
        ((Sql.Rule.createTable.grammar {}).run (.atPosition loudText 0)) ∧
      (Statement.read {} loudText).result =
        .ok ⟨"T", [⟨"ID", ⟨.int, 0⟩, ""⟩], ⟨"E", "C", "L", "A\nB"⟩⟩ := by
  have hsame : Text.SameLetters quietText loudText := by decide +kernel
  obtain ⟨hrules, -, -, -, hcreate⟩ := run_of_sameLetters hsame
  exact ⟨hsame, hcreate, hrules {} .createTable 0, by decide +kernel⟩

end TableDdl
