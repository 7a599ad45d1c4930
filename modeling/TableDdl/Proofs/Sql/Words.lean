import TableDdl.Proofs.Grammar.Opening
import TableDdl.Sql.CreateTable

/-!
# The words that clauses begin with

Each clause of a statement begins with one of a few keywords.  With these lists, that a clause is
not there, and that two clauses never stand at the same place, is a comparison of words.  What is
repeated takes at least a word, so that each round of a repetition moves on.
-/

namespace TableDdl.Sql

open Grammar Text

/-! ## Types -/

/-- A character set is introduced by `CHARACTER`, with `SET` behind it, or by `CHARSET`. -/
theorem opens_charsetWords : Opens charsetWords ["character", "charset"] := by
  have hlong : Opens (keywords ["character", "set"]) ["character"] :=
    opens_keywords (by decide) ["set"]
  have hshort : Opens (alternatives [keyword "charset"]) ["charset"] :=
    opens_words _ (by decide)
  exact hlong.cons hshort

/-- A modifier is one of two words, with blanks in front of it that are its own. -/
theorem opens_typeModifier : OpensBehind typeModifier ["unsigned", "zerofill"] := by
  have hwords : Opens (alternatives [keyword "unsigned", keyword "zerofill"])
      ["unsigned", "zerofill"] := opens_words _ (by decide)
  exact hwords.behind_whitespace1

theorem opens_typeCharset : OpensBehind typeCharset ["character", "charset"] := by
  have hclause := opens_charsetWords.preceded (preceded whitespace1 identifier)
  exact hclause.behind_whitespace1

/-- The name of the collation matters as little as that of a character set. -/
theorem opens_typeCollate : OpensBehind typeCollate ["collate"] := by
  have hword : Opens (keyword "collate") ["collate"] := opens_keyword (by decide)
  have hclause := hword.preceded (preceded whitespace1 identifier)
  exact hclause.behind_whitespace1

/-- The keywords of the integer types are those of the table. -/
theorem opens_intKind : Opens intKind (intKeywords.map Prod.fst) :=
  opens_named intKeywords (by decide)

/-- What follows the keyword of an integer type is optional, so the keyword alone decides. -/
theorem opens_someInt : Opens someInt (intKeywords.map Prod.fst) := by
  have hparts := opens_intKind.seq
    (seq (optional typeSize) (seq (optional typeModifier) (optional typeModifier)))
  exact hparts.map _

/-- A `VARCHAR` without its size fails, but only its keyword lets it begin. -/
theorem opens_varchar : Opens varchar ["varchar"] := by
  have hword : Opens (keyword "varchar") ["varchar"] := opens_keyword (by decide)
  have hparts := hword.seq (seq typeSize (seq (optional typeCharset) (optional typeCollate)))
  exact hparts.refine _

theorem opens_datetime : Opens datetime ["datetime"] := by
  have hword : Opens (keyword "datetime") ["datetime"] := opens_keyword (by decide)
  have hparts := hword.seq (optional typeSize)
  exact hparts.refine _

/-- The keyword, and not the parenthesis behind it, is what tells a `DECIMAL`. -/
theorem opens_decimal : Opens decimal ["decimal"] := by
  have hword : Opens (keyword "decimal") ["decimal"] := opens_keyword (by decide)
  have hhead := hword.seq (seq whitespace0 (seq (exactly "(") whitespace0))
  exact (hhead.seq _).refine _

theorem opens_textKind : Opens textKind ["text", "bigtext"] :=
  opens_named [("text", TypeKind.text), ("bigtext", TypeKind.bigText)] (by decide)

/-- The extended types are told by their keywords, too. -/
theorem opens_textType : Opens textType ["text", "bigtext"] := by
  have hparts := opens_textKind.seq (seq (optional typeCharset) (optional typeCollate))
  exact hparts.map _

/-- The words that a type begins with. -/
def typeWords : List String :=
  ["bigint", "smallint", "tinyint", "int", "varchar", "datetime", "decimal", "text", "bigtext"]

/-- A type begins with one of these words, in each dialect. -/
theorem opens_dataType (extended : Bool) : Opens (dataType extended) typeWords := by
  -- the types of every dialect, in front of those that only some have
  have hfront {gs : List (Grammar DataType)} {ks : List String}
      (hgs : Opens (alternatives gs) ks) :
      Opens (alternatives ([someInt, varchar, datetime, decimal] ++ gs))
        (intKeywords.map Prod.fst ++ (["varchar"] ++ (["datetime"] ++ (["decimal"] ++ ks)))) := by
    have hdecimal := opens_decimal.cons hgs
    have hdatetime := opens_datetime.cons hdecimal
    have hvarchar := opens_varchar.cons hdatetime
    exact opens_someInt.cons hvarchar
  cases extended with
  | false =>
      have hall := hfront opens_alternatives_nil
      exact hall.mono (by decide)
  | true =>
      have htext := opens_textType.cons opens_alternatives_nil
      exact (hfront htext).mono (by decide)

/-! ## Columns -/

theorem opens_nullWords :
    Opens (alternatives [keywords ["not", "null"], keyword "null"]) ["not", "null"] := by
  have hnot : Opens (keywords ["not", "null"]) ["not"] := opens_keywords (by decide) ["null"]
  have hnull : Opens (alternatives [keyword "null"]) ["null"] := opens_words _ (by decide)
  exact hnot.cons hnull

/-- A column that may be null says so in one word, and one that may not in two. -/
theorem opens_nullClause : OpensBehind nullClause ["not", "null"] :=
  opens_nullWords.behind_whitespace1

/-- The clause begins with `ON`, whether or not `UPDATE` follows. -/
theorem opens_onUpdateClause : OpensBehind onUpdateClause ["on"] := by
  intro v hv
  have hwords : Opens (keywords ["on", "update"]) ["on"] := opens_keywords (by decide) ["update"]
  have hclause := hwords.seq (seq whitespace1 currentTimestamp)
  exact rejects_seq_whitespace1 (hclause (trimStart v) hv)

/-- Each default but one begins with `DEFAULT`. -/
theorem opens_defaulted {α : Type} (g : Grammar α) : Opens (defaulted g) ["default"] := by
  have hword : Opens (keyword "default") ["default"] := opens_keyword (by decide)
  exact hword.preceded (preceded whitespace1 g)

theorem opens_defaultInt : Opens defaultInt ["default"] := (opens_defaulted unsignedInteger).map _

theorem opens_defaultStr : Opens defaultStr ["default"] := (opens_defaulted quotedString).map _

theorem opens_defaultNull : Opens defaultNull ["default"] := by
  have hwords : Opens (keywords ["default", "null"]) ["default"] :=
    opens_keywords (by decide) ["null"]
  exact hwords.map _

/-- The update clause at the end is optional, and `DEFAULT` is not. -/
theorem opens_defaultCurrentTimestamp : Opens defaultCurrentTimestamp ["default"] := by
  have hparts := (opens_defaulted currentTimestamp).seq (optional onUpdateClause)
  exact hparts.map _

/-- The one default without the word `DEFAULT`. -/
theorem opens_autoIncrement : Opens autoIncrement ["auto_increment"] := by
  have hword : Opens (keyword "auto_increment") ["auto_increment"] := opens_keyword (by decide)
  exact hword.map _

/-- Four of the literals begin with the same word, so what follows it decides between them. -/
theorem opens_defaultLiterals :
    Opens (alternatives defaultLiterals) ["default", "auto_increment"] := by
  have hincrement := opens_autoIncrement.cons opens_alternatives_nil
  have htimestamp := opens_defaultCurrentTimestamp.cons hincrement
  have hnull := opens_defaultNull.cons htimestamp
  have hstr := opens_defaultStr.cons hnull
  have hall := opens_defaultInt.cons hstr
  exact Opens.mono hall (by decide)

/-- A default has blanks in front of it, and of the words behind them two are possible. -/
theorem opens_defaultLiteral : OpensBehind defaultLiteral ["default", "auto_increment"] :=
  opens_defaultLiterals.behind_whitespace1

/-- The comment of a column stands behind blanks and its keyword. -/
theorem opens_commentClause : OpensBehind commentClause ["comment"] := by
  have hword : Opens (keyword "comment") ["comment"] := opens_keyword (by decide)
  have hclause := hword.preceded (preceded whitespace0 quotedString)
  exact hclause.behind_whitespace1

/-! ## Indexes -/

/-- What a line with an index may begin with, in front of the word for it. -/
theorem opens_indexPrefix : Opens indexPrefix ["primary", "unique"] :=
  opens_named [("primary", IndexKind.primary), ("unique", IndexKind.unique)] (by decide)

/-- The word that says that a line declares an index. -/
theorem opens_indexWord : Opens (alternatives [keyword "key", keyword "index"]) ["key", "index"] :=
  opens_words _ (by decide)

/-- The order of a column in an index. -/
theorem opens_sortOrder : OpensBehind sortOrder ["asc", "desc"] := by
  have hwords : Opens (alternatives [keyword "asc", keyword "desc"]) ["asc", "desc"] :=
    opens_words _ (by decide)
  exact hwords.behind_whitespace1

/-- The method of an index, at the end of its line. -/
theorem opens_indexUsing : OpensBehind indexUsing ["using"] := by
  have hword : Opens (keyword "using") ["using"] := opens_keyword (by decide)
  have hclause := hword.preceded
    (preceded whitespace1 (alternatives [keyword "btree", keyword "hash"]))
  exact hclause.behind_whitespace1

/-- Without a prefix the index is a normal one. -/
theorem reads_indexKind_normal {v : List Char}
    (hv : firstWord v ∉ ["primary", "unique"].map String.toList) :
    Reads indexKind [] v .normal := by
  have hkindWord : Rejects (followedBy indexPrefix whitespace1) v :=
    (opens_indexPrefix.followedBy whitespace1) v hv
  exact hkindWord.optional.map fun found => found.getD .normal

/-- Where none of the four words comes next, the prefix is taken to be left out, and then the word
that declares an index is missing. -/
theorem opens_indexLine : OpensBehind indexLine ["primary", "unique", "key", "index"] := by
  intro v hv
  have hleft : firstWord (trimStart v) ∉ ["primary", "unique"].map String.toList :=
    fun hm => hv (List.map_subset _ (by simp) hm)
  have hword : firstWord (trimStart v) ∉ ["key", "index"].map String.toList :=
    fun hm => hv (List.map_subset _ (by simp) hm)
  have hblanks := reads_whitespace0 (isBlank_of_mem_takeWhile v) (headNot_trimStart v)
  have hkind := hblanks.preceded (reads_indexKind_normal hleft)
  have hnamed := opens_indexWord.preceded (preceded whitespace0 (optional identifier))
  have hrest := hnamed.seq (seq (preceded whitespace0 indexColumns) (optional indexUsing))
  have hrejects := hkind.rejects_seq (hrest (trimStart v) hword)
  rw [List.append_nil, takeWhile_append_trimStart] at hrejects
  exact (hrejects.followedBy _).map _

/-! ## Lines -/

/-- A column begins with a name. -/
theorem rejects_columnLine {extended : Bool} {v : List Char} (hw : HeadNot isWord (trimStart v))
    (hb : (trimStart v).head? ≠ some '`') : Rejects (columnLine extended) v := by
  have hname : Rejects (preceded whitespace0 identifier) v :=
    rejects_behind_whitespace0 (rejects_identifier hw hb)
  exact ((hname.seq _).followedBy _).map _

/-- A line of a body begins with a word or a backtick. -/
theorem rejects_bodyLine {extended : Bool} {v : List Char} (hw : HeadNot isWord (trimStart v))
    (hb : (trimStart v).head? ≠ some '`') : Rejects (bodyLine extended) v := by
  have hindex : Rejects indexLine v := by
    refine opens_indexLine v ?_
    rw [firstWord_eq_nil hw]
    decide
  have hcolumn : Rejects (columnLine extended) v := rejects_columnLine hw hb
  exact (hindex.map _).orElse (hcolumn.map _)

/-- The parenthesis that closes a body begins no line. -/
theorem rejects_bodyLine_of_close {extended : Bool} {c next : Cursor} {value : String × String}
    (h : (seq whitespace0 (exactly ")")).run c = .matched next value) :
    Rejects (bodyLine extended) c.rest := by
  have hhead : (trimStart c.rest).head? = some ')' := by
    by_contra hne
    have hrej := rejects_seq_whitespace0 (rejects_exactly_singleton (s := ")") (by decide) hne)
    obtain ⟨place, hp⟩ := hrej c rfl
    rw [hp] at h
    simp at h
  exact rejects_bodyLine (headNot_of_head? hhead (by decide)) (by rw [hhead]; decide)

/-! ## Options -/

/-- What names an option comes first in it. -/
theorem opens_optionOf {α β : Type} {name : Grammar α} {ks : List String} (hname : Opens name ks)
    (value : Grammar β) : Opens (optionOf name value) ks :=
  hname.preceded _

theorem opens_engineOption : Opens engineOption ["engine"] :=
  opens_optionOf (opens_keyword (by decide)) identifier

/-- Two of the options may have `DEFAULT` in front of what names them. -/
theorem opens_defaultPrefix {α : Type} {name : Grammar α} {ks : List String}
    (hname : Opens name ks) : Opens (preceded defaultPrefix name) ("default" :: ks) := by
  have hword : Opens (keyword "default") ["default"] := opens_keyword (by decide)
  have hfront : Opens (seq (keyword "default") whitespace1) ("default" :: ks) :=
    (hword.seq whitespace1).mono (by simp)
  exact hfront.optional_preceded (hname.mono (List.subset_cons_self "default" ks))

/-- The option for the character set begins with one of its own words, or with `DEFAULT`. -/
theorem opens_charsetOption : Opens charsetOption ["default", "character", "charset"] :=
  opens_optionOf (opens_defaultPrefix opens_charsetWords) identifier

theorem opens_collateOption : Opens collateOption ["default", "collate"] := by
  have hword : Opens (keyword "collate") ["collate"] := opens_keyword (by decide)
  exact opens_optionOf (opens_defaultPrefix hword) identifier

theorem opens_commentOption : Opens commentOption ["comment"] :=
  opens_optionOf (opens_keyword (by decide)) quotedString

/-- The first of the two options whose value is dropped. -/
theorem opens_autoIncrementOption : Opens autoIncrementOption ["auto_increment"] :=
  opens_optionOf (opens_keyword (by decide)) unsignedInteger

theorem opens_rowFormatOption : Opens rowFormatOption ["row_format"] :=
  opens_optionOf (opens_keyword (by decide)) identifier

/-- The words that an option begins with. -/
def optionWords : List String :=
  ["engine", "default", "character", "charset", "collate", "comment", "auto_increment",
    "row_format"]

/-- Where none of these words comes next, relaxed options are at their end. -/
theorem opens_optionSetting : Opens optionSetting optionWords := by
  have hformat := (opens_rowFormatOption.map fun _ => OptionSetting.dropped).cons
    opens_alternatives_nil
  have hincrement := (opens_autoIncrementOption.map fun _ => OptionSetting.dropped).cons hformat
  have hcomment := (opens_commentOption.map OptionSetting.comment).cons hincrement
  have hcollate := (opens_collateOption.map OptionSetting.collate).cons hcomment
  have hcharset := (opens_charsetOption.map OptionSetting.charset).cons hcollate
  have hall := (opens_engineOption.map OptionSetting.engine).cons hcharset
  exact Opens.mono hall (by decide)

/-! ## Rounds of repetitions -/

/-- What names an option takes something, so the option does. -/
theorem moves_optionOf {α β : Type} {name : Grammar α} (hname : Moves name) (value : Grammar β) :
    Moves (optionOf name value) :=
  hname.preceded_left _

/-- Of a choice between keywords, the one that matches takes its word. -/
theorem moves_words (texts : List String) (htexts : ∀ k ∈ texts, isKeyword k = true) :
    Moves (alternatives (texts.map keyword)) := by
  refine moves_alternatives fun g hg => ?_
  obtain ⟨text, htext, rfl⟩ := List.mem_map.1 hg
  exact moves_keyword (htexts text htext)

theorem moves_charsetWords : Moves charsetWords := by
  have hlong : Moves (keywords ["character", "set"]) := by
    have hword : Moves (keyword "character") := moves_keyword (by decide)
    exact ((hword.seq_left _).map _).map _
  have hshort : Moves (alternatives [keyword "charset"]) := moves_words ["charset"] (by decide)
  exact hlong.orElse hshort

/-- Each option takes at least its name. -/
theorem moves_of_mem_optionSettings : ∀ g ∈ optionSettings, Moves g := by
  have hword {k : String} (hk : isKeyword k = true) {α : Type} (value : Grammar α) :
      Moves (optionOf (keyword k) value) := moves_optionOf (moves_keyword hk) value
  have hcharset : Moves charsetOption :=
    moves_optionOf (moves_charsetWords.preceded_right defaultPrefix) identifier
  have hcollate : Moves collateOption := by
    have hkey : Moves (keyword "collate") := moves_keyword (by decide)
    exact moves_optionOf (hkey.preceded_right defaultPrefix) identifier
  intro g hg
  simp only [optionSettings, List.mem_cons, List.not_mem_nil, or_false] at hg
  rcases hg with rfl | rfl | rfl | rfl | rfl | rfl
  · exact (hword (by decide) identifier).map _
  · exact hcharset.map _
  · exact hcollate.map _
  · exact (hword (by decide) quotedString).map _
  · exact (hword (by decide) unsignedInteger).map _
  · exact (hword (by decide) identifier).map _

/-- Every round over the relaxed options takes something. -/
theorem moves_optionSetting : Moves optionSetting :=
  moves_alternatives moves_of_mem_optionSettings

/-- A column of an index takes at least its name. -/
theorem moves_indexColumn : Moves indexColumn :=
  (moves_identifier.seq_left _).seq_right _

/-- A line takes at least the word that declares an index, or the name of a column. -/
theorem moves_bodyLine (extended : Bool) : Moves (bodyLine extended) := by
  have hindex : Moves indexLine := by
    have hword : Moves (alternatives [keyword "key", keyword "index"]) :=
      moves_words ["key", "index"] (by decide)
    have hnamed := hword.preceded_left (preceded whitespace0 (optional identifier))
    have hrest := hnamed.seq_left (seq (preceded whitespace0 indexColumns) (optional indexUsing))
    have hparts := hrest.seq_right (preceded whitespace0 indexKind)
    exact (hparts.followedBy_left _).map _
  have hcolumn : Moves (columnLine extended) := by
    have hname := moves_identifier.preceded_right whitespace0
    exact ((hname.seq_left _).followedBy_left _).map _
  exact (hindex.map _).orElse (hcolumn.map _)

end TableDdl.Sql
