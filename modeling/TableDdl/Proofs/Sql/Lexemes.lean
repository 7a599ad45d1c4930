import TableDdl.Proofs.Grammar.Tokens
import TableDdl.Proofs.Script.Pieces
import TableDdl.Proofs.Statement

/-!
# The characters of a statement

Every token takes a text of `lexemes`, so a statement that is read is one, but for what ends it
(`Statement.spelled_of_read`).  Outside of its strings it has none of the characters that comments
are made of, and a semicolon only at its end.
-/

namespace TableDdl

open Grammar Script Text

namespace Grammar

variable {α : Type}

/-! ## Tokens -/

/-- Blanks are lexemes, and so is nothing at all. -/
theorem within_whitespace0 : whitespace0.Within lexemes := fun _ hw => blanks_mem_lexemes hw

theorem within_whitespace1 : whitespace1.Within lexemes := fun _ hw => blanks_mem_lexemes hw

/-- A keyword takes a word, and the look behind it takes nothing. -/
theorem within_keyword (k : String) (hk : isKeyword k = true) : (keyword k).Within lexemes := by
  have hword : ∀ w : List Char, w.map asciiLower = k.toList → w ∈ lexemes :=
    fun w hw => words_mem_lexemes (isWord_of_isKeyword hk hw)
  rw [keyword_eq hk]
  exact ⟨hword, trivial⟩

/-- Keywords with blanks between them are words and blanks. -/
theorem within_keywordParts (ks : List String) (hks : ∀ k ∈ ks, isKeyword k = true) :
    (keywordParts ks).Within lexemes := by
  induction ks with
  | nil => trivial
  | cons k ks ih =>
      obtain ⟨hk, hrest⟩ := List.forall_mem_cons.1 hks
      have hword := within_keyword k hk
      cases ks with
      | nil => exact hword
      | cons l ls => exact hword.seq (within_whitespace1.preceded (ih hrest))

theorem within_keywords (ks : List String) (hks : ∀ k ∈ ks, isKeyword k = true) :
    (keywords ks).Within lexemes :=
  within_keywordParts ks hks

/-- One of several keywords. -/
theorem within_words (texts : List String) (htexts : ∀ k ∈ texts, isKeyword k = true) :
    (alternatives (texts.map keyword)).Within lexemes := by
  refine within_alternatives fun g hg => ?_
  obtain ⟨text, htext, rfl⟩ := List.mem_map.1 hg
  exact within_keyword text (htexts text htext)

/-- One of several keywords, each of which stands for a value. -/
theorem within_named (entries : List (String × α))
    (hentries : ∀ entry ∈ entries, isKeyword entry.1 = true) :
    (alternatives (entries.map fun entry =>
      map (fun _ => entry.2) (keyword entry.1))).Within lexemes := by
  refine within_alternatives fun g hg => ?_
  obtain ⟨entry, hentry, rfl⟩ := List.mem_map.1 hg
  exact within_keyword entry.1 (hentries entry hentry)

/-- A mark stands outside of strings and opens none. -/
theorem within_exactly {s : String}
    (hs : s.toList.all (fun c => Mode.plain.admits c && !Quoted.isQuote c) = true) :
    (exactly s).Within lexemes := by
  refine mem_lexemes_of_forall fun c hc => ?_
  have h := List.all_eq_true.1 hs c hc
  rwa [Bool.and_eq_true, Bool.not_eq_true'] at h

/-- Digits are word characters, so a number is a word. -/
theorem within_unsignedInteger : unsignedInteger.Within lexemes :=
  fun _ hw => words_mem_lexemes fun c hc => isWord_of_isDigit (hw c hc)

/-- A name is a word, perhaps with backticks around it. -/
theorem within_identifier : identifier.Within lexemes := by
  have hmark : (exactly "`").Within lexemes := within_exactly (by decide)
  have hword : (refine nonempty? (span isWord)).Within lexemes :=
    fun _ hw => words_mem_lexemes hw
  exact hmark.optional.seq (hword.seq hmark.optional)

/-- A string takes both of its quotes, so it leaves the scan of the text where it was. -/
theorem within_quotedString : quotedString.Within lexemes :=
  fun _ _ _ hq hs => string_mem_lexemes hq hs

end Grammar

namespace Sql

/-! ## Marks -/

theorem within_opening : (exactly "(").Within lexemes := within_exactly (by decide)

theorem within_closing : (exactly ")").Within lexemes := within_exactly (by decide)

theorem within_comma : (exactly ",").Within lexemes := within_exactly (by decide)

/-- A grammar with blanks around what it takes. -/
theorem within_spaced {α : Type} {g : Grammar α} (hg : g.Within lexemes) :
    (seq whitespace0 (seq g whitespace0)).Within lexemes :=
  within_whitespace0.seq (hg.seq within_whitespace0)

/-- A name behind blanks. -/
theorem within_nameBehind : (preceded whitespace1 identifier).Within lexemes :=
  within_whitespace1.preceded within_identifier

/-! ## Columns -/

/-- A size is a number between parentheses, with blanks anywhere. -/
theorem within_typeSize : typeSize.Within lexemes := by
  have hend := within_whitespace0.seq within_closing
  have hnumber := within_whitespace0.preceded (within_unsignedInteger.followedBy hend)
  exact within_whitespace0.preceded (within_opening.preceded hnumber)

/-- Both spellings of the words for a character set. -/
theorem within_charsetWords : charsetWords.Within lexemes := by
  have hlong := within_keywords ["character", "set"] (by decide)
  have hshort : (alternatives [keyword "charset"]).Within lexemes :=
    within_words ["charset"] (by decide)
  exact ⟨hlong, hshort⟩

/-- The character set of a type, named behind its words. -/
theorem within_typeCharset : typeCharset.Within lexemes := by
  have hclause := within_charsetWords.preceded within_nameBehind
  exact within_whitespace1.preceded hclause

theorem within_typeCollate : typeCollate.Within lexemes := by
  have hword := within_keyword "collate" (by decide)
  have hclause := hword.preceded within_nameBehind
  exact within_whitespace1.preceded hclause

/-- Blanks, and one of the two modifiers. -/
theorem within_typeModifier : typeModifier.Within lexemes := by
  have hwords : (alternatives [keyword "unsigned", keyword "zerofill"]).Within lexemes :=
    within_words ["unsigned", "zerofill"] (by decide)
  exact within_whitespace1.preceded hwords

/-- The size and the modifiers are dropped, but what they take counts. -/
theorem within_someInt : someInt.Within lexemes := by
  have hkind : intKind.Within lexemes := within_named intKeywords (by decide)
  have hmodifier := within_typeModifier.optional
  exact hkind.seq (within_typeSize.optional.seq (hmodifier.seq hmodifier))

/-- A character set and a collation, which two of the types may have behind them. -/
theorem within_typeNames :
    (seq (optional typeCharset) (optional typeCollate)).Within lexemes :=
  within_typeCharset.optional.seq within_typeCollate.optional

theorem within_varchar : varchar.Within lexemes := by
  have hword := within_keyword "varchar" (by decide)
  exact hword.seq (within_typeSize.seq within_typeNames)

theorem within_datetime : datetime.Within lexemes := by
  have hword := within_keyword "datetime" (by decide)
  exact hword.seq within_typeSize.optional

/-- A `DECIMAL` has a precision, and perhaps a scale behind a comma. -/
theorem within_decimal : decimal.Within lexemes := by
  have hword := within_keyword "decimal" (by decide)
  have hhead := hword.seq (within_spaced within_opening)
  have hscale := within_whitespace0.preceded
    (within_comma.preceded (within_whitespace0.preceded within_unsignedInteger))
  have hend := within_whitespace0.seq within_closing
  exact hhead.seq (within_unsignedInteger.seq (hscale.optional.seq hend))

theorem within_textType : textType.Within lexemes := by
  have hkind : textKind.Within lexemes :=
    within_named [("text", TypeKind.text), ("bigtext", TypeKind.bigText)] (by decide)
  exact hkind.seq within_typeNames

/-- The types of each dialect take lexemes. -/
theorem within_dataType (extended : Bool) : (dataType extended).Within lexemes := by
  refine within_alternatives fun g hg => ?_
  rcases List.mem_append.1 hg with hg | hg
  · simp only [List.mem_cons, List.not_mem_nil, or_false] at hg
    rcases hg with rfl | rfl | rfl | rfl
    · exact within_someInt
    · exact within_varchar
    · exact within_datetime
    · exact within_decimal
  · cases extended with
    | false => exact absurd hg List.not_mem_nil
    | true =>
        obtain rfl := List.mem_singleton.1 hg
        exact within_textType

/-- Whether a column may be null, in either wording. -/
theorem within_nullClause : nullClause.Within lexemes := by
  have hnot := within_keywords ["not", "null"] (by decide)
  have hnull : (alternatives [keyword "null"]).Within lexemes := within_words ["null"] (by decide)
  exact within_whitespace1.preceded ⟨hnot, hnull⟩

theorem within_currentTimestamp : currentTimestamp.Within lexemes := by
  have hword := within_keyword "current_timestamp" (by decide)
  exact hword.seq within_typeSize.optional

/-- The blanks of the clause are its own, those between its words too. -/
theorem within_onUpdateClause : onUpdateClause.Within lexemes := by
  have hwords := within_keywords ["on", "update"] (by decide)
  have hclause := hwords.seq (within_whitespace1.seq within_currentTimestamp)
  exact within_whitespace1.seq hclause

/-- What stands behind `DEFAULT` takes lexemes if the value does. -/
theorem within_defaulted {α : Type} {g : Grammar α} (hg : g.Within lexemes) :
    (defaulted g).Within lexemes := by
  have hword := within_keyword "default" (by decide)
  exact hword.preceded (within_whitespace1.preceded hg)

/-- Whichever the literal of a default is, it takes lexemes. -/
theorem within_defaultLiteral : defaultLiteral.Within lexemes := by
  have hnull := within_keywords ["default", "null"] (by decide)
  have hnow := within_defaulted within_currentTimestamp
  have hincrement := within_keyword "auto_increment" (by decide)
  refine within_whitespace1.preceded (within_alternatives fun g hg => ?_)
  simp only [defaultLiterals, List.mem_cons, List.not_mem_nil, or_false] at hg
  rcases hg with rfl | rfl | rfl | rfl | rfl
  · exact within_defaulted within_unsignedInteger
  · exact within_defaulted within_quotedString
  · exact hnull
  · exact hnow.seq within_onUpdateClause.optional
  · exact hincrement

theorem within_defaultClause : defaultClause.Within lexemes :=
  within_nullClause.optional.seq within_defaultLiteral.optional

/-- The comment of a column, whose quotes close again. -/
theorem within_commentClause : commentClause.Within lexemes := by
  have hword := within_keyword "comment" (by decide)
  have hclause := hword.preceded (within_whitespace0.preceded within_quotedString)
  exact within_whitespace1.preceded hclause

/-- The parenthesis that may end a column line stays, so nothing is taken of it. -/
theorem within_lineEnd : lineEnd.Within lexemes :=
  ⟨within_comma, trivial, trivial⟩

/-- A column line takes its name, its type, its clauses and the comma that ends it. -/
theorem within_columnLine (extended : Bool) : (columnLine extended).Within lexemes := by
  have hname := within_whitespace0.preceded within_identifier
  have htype := within_whitespace1.preceded (within_dataType extended)
  have hclauses := within_defaultClause.preceded within_commentClause.optional
  have hparts := hname.seq (htype.seq hclauses)
  exact hparts.followedBy (within_spaced within_lineEnd)

/-! ## Indexes -/

/-- A column of an index, with the comma behind it if there is one. -/
theorem within_indexColumn : indexColumn.Within lexemes := by
  have horder : sortOrder.Within lexemes := by
    have hwords : (alternatives [keyword "asc", keyword "desc"]).Within lexemes :=
      within_words ["asc", "desc"] (by decide)
    exact within_whitespace1.preceded hwords
  have hend := within_whitespace0.seq within_comma.optional
  have hrest := within_typeSize.optional.seq (horder.optional.seq hend)
  exact within_whitespace0.seq (within_identifier.seq hrest)

/-- However many columns an index has, they and the parentheses around them are lexemes. -/
theorem within_indexColumns : indexColumns.Within lexemes := by
  have hcolumns : (many1 indexColumn).Within lexemes := within_indexColumn
  have hend := within_whitespace0.seq within_closing
  exact within_opening.preceded (hcolumns.followedBy hend)

/-- The method of an index, behind two words. -/
theorem within_indexUsing : indexUsing.Within lexemes := by
  have hword := within_keyword "using" (by decide)
  have hmethod : (alternatives [keyword "btree", keyword "hash"]).Within lexemes :=
    within_words ["btree", "hash"] (by decide)
  exact within_whitespace1.preceded (hword.preceded (within_whitespace1.preceded hmethod))

/-- The prefix of an index is left out or has blanks behind it. -/
theorem within_indexKind : indexKind.Within lexemes := by
  have hkindWord : indexPrefix.Within lexemes :=
    within_named [("primary", IndexKind.primary), ("unique", IndexKind.unique)] (by decide)
  exact (hkindWord.followedBy within_whitespace1).optional

/-- An index line takes its words, its name, its columns and the comma that may end it. -/
theorem within_indexLine : indexLine.Within lexemes := by
  have hword : (alternatives [keyword "key", keyword "index"]).Within lexemes :=
    within_words ["key", "index"] (by decide)
  have hkind := within_whitespace0.preceded within_indexKind
  have hname := hword.preceded (within_whitespace0.preceded within_identifier.optional)
  have hcolumns := within_whitespace0.preceded within_indexColumns
  have hparts := hkind.seq (hname.seq (hcolumns.seq within_indexUsing.optional))
  exact hparts.followedBy (within_spaced within_comma.optional)

/-- A line of a body is one of the two. -/
theorem within_bodyLine (extended : Bool) : (bodyLine extended).Within lexemes :=
  ⟨within_indexLine, within_columnLine extended⟩

/-! ## Options -/

/-- An option takes its name, perhaps an equals sign, and its value. -/
theorem within_optionOf {α β : Type} {name : Grammar α} {value : Grammar β}
    (hname : name.Within lexemes) (hvalue : value.Within lexemes) :
    (optionOf name value).Within lexemes := by
  have hequals : (exactly "=").Within lexemes := within_exactly (by decide)
  have hrest := hequals.optional.preceded (within_whitespace0.preceded hvalue)
  exact hname.preceded (within_whitespace0.preceded hrest)

theorem within_defaultPrefix : defaultPrefix.Within lexemes := by
  have hword := within_keyword "default" (by decide)
  exact (hword.seq within_whitespace1).optional

theorem within_engineOption : engineOption.Within lexemes :=
  within_optionOf (within_keyword "engine" (by decide)) within_identifier

/-- A table names its character set like a column, perhaps behind `DEFAULT`. -/
theorem within_charsetOption : charsetOption.Within lexemes :=
  within_optionOf (within_defaultPrefix.preceded within_charsetWords) within_identifier

theorem within_collateOption : collateOption.Within lexemes := by
  have hword := within_keyword "collate" (by decide)
  exact within_optionOf (within_defaultPrefix.preceded hword) within_identifier

/-- The comment of a table, the one option whose value is a string. -/
theorem within_commentOption : commentOption.Within lexemes :=
  within_optionOf (within_keyword "comment" (by decide)) within_quotedString

/-- All four options, with blanks in front of each. -/
theorem within_strictOptions : strictOptions.Within lexemes := by
  have hengine := within_whitespace0.preceded within_engineOption
  have hcharset := within_whitespace1.preceded within_charsetOption
  have hcollate := within_whitespace1.preceded within_collateOption
  have hcomment := within_whitespace1.preceded within_commentOption
  exact hengine.seq (hcharset.seq (hcollate.seq hcomment))

/-- Any options in any order, the two that are dropped among them. -/
theorem within_relaxedOptions : relaxedOptions.Within lexemes := by
  have hincrement : autoIncrementOption.Within lexemes :=
    within_optionOf (within_keyword "auto_increment" (by decide)) within_unsignedInteger
  have hformat : rowFormatOption.Within lexemes :=
    within_optionOf (within_keyword "row_format" (by decide)) within_identifier
  have hsetting : optionSetting.Within lexemes := by
    refine within_alternatives fun g hg => ?_
    simp only [optionSettings, List.mem_cons, List.not_mem_nil, or_false] at hg
    rcases hg with rfl | rfl | rfl | rfl | rfl | rfl
    · exact within_engineOption
    · exact within_charsetOption
    · exact within_collateOption
    · exact within_commentOption
    · exact hincrement
    · exact hformat
  have hround := within_whitespace0.preceded hsetting
  exact hround

theorem within_tableOptions (relaxed : Bool) : (tableOptions relaxed).Within lexemes := by
  cases relaxed with
  | false => exact within_strictOptions
  | true => exact within_relaxedOptions

/-! ## Statements -/

/-- The words between `CREATE` and the name of the table. -/
theorem within_tableHead : tableHead.Within lexemes := by
  have htemporary : temporaryWord.Within lexemes := by
    have hword := within_keyword "temporary" (by decide)
    exact (hword.seq within_whitespace1).optional
  have htable := within_keyword "table" (by decide)
  exact within_whitespace1.seq (htemporary.seq (htable.seq within_whitespace1))

theorem within_ifNotExists : ifNotExists.Within lexemes := by
  have hwords := within_keywords ["if", "not", "exists"] (by decide)
  exact (hwords.seq within_whitespace1).optional

/-- A whole statement takes lexemes.  Its steps are bare pairs, so they are put together by hand. -/
theorem within_tableSchema (d : Dialect) : (tableSchema d).Within lexemes := by
  have hcreate := within_keyword "create" (by decide)
  have hclose := within_whitespace0.seq within_closing
  exact ⟨within_whitespace0, hcreate, within_tableHead, within_ifNotExists, within_identifier,
    within_spaced within_opening, within_bodyLine d.extendedTypes, hclose,
    within_tableOptions d.relaxedOptions⟩

end Sql

namespace Statement

/-! ## Whole texts -/

/-- The text consists of lexemes and of what ends a statement. -/
def Spelled (text : List Char) : Prop :=
  ∃ w rest, text = w ++ rest ∧ w ∈ lexemes ∧ Ends rest

/-- **The characters of a statement**: a text that has a table consists of lexemes and of what ends
a statement. -/
theorem spelled_of_read {d : Dialect} {text : List Char} {t : Table}
    (h : (read d text).result = .ok t) : Spelled text := by
  obtain ⟨next, hm, hends⟩ := result_read_eq_ok_iff.1 h
  obtain ⟨w, hw, htook⟩ :=
    exists_took nil_mem_lexemes append_mem_lexemes (Sql.within_tableSchema d) hm
  exact ⟨w, next.rest, htook.1, hw, hends⟩

/-- What ends a statement is blanks and perhaps one semicolon among them. -/
theorem Ends.cases {rest : List Char} (h : Ends rest) :
    (∀ c ∈ rest, isBlank c = true) ∨
      ∃ b b', rest = b ++ ';' :: b' ∧ (∀ c ∈ b, isBlank c = true) ∧ ∀ c ∈ b', isBlank c = true := by
  rcases ends_iff_trimStart.1 h with h | ⟨b', hb', h⟩
  · exact .inl (trimStart_eq_nil_iff.1 h)
  · have hb := isBlank_of_mem_takeWhile rest
    exact .inr ⟨_, b', by rw [← h, takeWhile_append_trimStart], hb, hb'⟩

/-- What ends a statement consists of blanks and one semicolon. -/
theorem Ends.of_mem {rest : List Char} (h : Ends rest) {c : Char} (hc : c ∈ rest) :
    isBlank c = true ∨ c = ';' := by
  rcases h.cases with hb | ⟨b, b', rfl, hb, hb'⟩
  · exact .inl (hb c hc)
  · rcases List.mem_append.1 hc with hc | hc
    · exact .inl (hb c hc)
    · rcases List.mem_cons.1 hc with rfl | hc
      · exact .inr rfl
      · exact .inl (hb' c hc)

/-- Behind the semicolon that ends a statement there are only blanks. -/
theorem Ends.of_semicolon {u v : List Char} (h : Ends (u ++ ';' :: v)) :
    (∀ c ∈ u, isBlank c = true) ∧ ∀ c ∈ v, isBlank c = true := by
  have hnot {b : List Char} (hb : ∀ c ∈ b, isBlank c = true) : ';' ∉ b := not_mem_of_isBlank hb
  rcases h.cases with hb | ⟨b, b', htext, hb, hb'⟩
  · exact absurd (List.mem_append_right u List.mem_cons_self) (hnot hb)
  · rcases List.append_eq_append_iff.1 htext with ⟨a, rfl, ha⟩ | ⟨a, rfl, ha⟩
    · cases a with
      | nil =>
          obtain rfl := (List.cons.inj ha).2
          exact ⟨by simpa using hb, hb'⟩
      | cons x a =>
          obtain ⟨rfl, -⟩ := List.cons.inj ha
          exact absurd (by simp) (hnot hb)
    · cases a with
      | nil =>
          obtain rfl := (List.cons.inj ha).2
          exact ⟨by simpa using hb, hb'⟩
      | cons x a =>
          obtain ⟨-, rfl⟩ := List.cons.inj ha
          exact absurd (by simp) (hnot hb')

/-- What ends a statement opens no string. -/
theorem scanString_of_forall {u : List Char} (hu : ∀ c ∈ u, isBlank c = true ∨ c = ';') :
    Mode.plain.scanString u = .plain := by
  induction u with
  | nil => rfl
  | cons c u ih =>
      have hquote : Quoted.isQuote c = false := by
        rcases hu c List.mem_cons_self with hc | rfl
        · exact Quoted.not_isQuote_of_isBlank hc
        · decide
      rw [Mode.scanString_cons, Mode.stepString_plain hquote]
      exact ih fun x hx => hu x (List.mem_cons_of_mem c hx)

/-- A character of a text stands in its lexemes or in what ends it. -/
theorem append_eq_append_cons {w rest u v : List Char} {c : Char} (h : w ++ rest = u ++ c :: v) :
    (∃ w', w = u ++ c :: w' ∧ v = w' ++ rest) ∨ ∃ r, u = w ++ r ∧ rest = r ++ c :: v := by
  rcases List.append_eq_append_iff.1 h with ⟨a, rfl, ha⟩ | ⟨a, rfl, ha⟩
  · exact .inr ⟨a, rfl, ha⟩
  · cases a with
    | nil => exact .inr ⟨[], by simp, ha.symm⟩
    | cons x a =>
        obtain ⟨rfl, rfl⟩ := List.cons.inj ha
        exact .inl ⟨a, rfl, rfl⟩

namespace Spelled

variable {text u v : List Char}

/-- Each string is closed. -/
theorem scanString (h : Spelled text) : Mode.plain.scanString text = .plain := by
  obtain ⟨w, rest, rfl, hw, hends⟩ := h
  rw [Mode.scanString_append, hw.2]
  exact scanString_of_forall fun c hc => hends.of_mem hc

/-- A character is in its place, or it belongs to what ends the statement. -/
theorem admits_or {c : Char} (h : Spelled (u ++ c :: v)) :
    (Mode.plain.scanString u).admits c = true ∨
      Mode.plain.scanString u = .plain ∧
        (isBlank c = true ∨ c = ';' ∧ ∀ x ∈ v, isBlank x = true) := by
  obtain ⟨w, rest, htext, hw, hends⟩ := h
  rcases append_eq_append_cons htext.symm with ⟨w', rfl, rfl⟩ | ⟨r, rfl, rfl⟩
  · exact .inl hw.1.admits
  · refine .inr ⟨?_, ?_⟩
    · rw [Mode.scanString_append, hw.2]
      exact scanString_of_forall fun x hx => hends.of_mem (List.mem_append_left _ hx)
    · rcases hends.of_mem (List.mem_append_right r List.mem_cons_self) with hc | rfl
      · exact .inl hc
      · exact .inr ⟨rfl, hends.of_semicolon.2⟩

/-- A line feed stands outside of strings. -/
theorem of_newline (h : Spelled (u ++ '\n' :: v)) : Mode.plain.scanString u = .plain := by
  rcases h.admits_or with ha | ha
  · exact Mode.eq_plain_of_admits_newline ha
  · exact ha.1

/-- A semicolon outside of strings ends the statement. -/
theorem of_semicolon (h : Spelled (u ++ ';' :: v)) (hu : Mode.plain.scanString u = .plain) :
    ∀ c ∈ v, isBlank c = true := by
  rcases h.admits_or with ha | ⟨-, hc | ⟨-, hv⟩⟩
  · rw [hu, Mode.not_admits_plain_semicolon] at ha
    exact absurd ha Bool.false_ne_true
  · exact absurd hc (by decide)
  · exact hv

/-- Blanks around a text do not count. -/
theorem of_trim (h : Spelled (trim text)) : Spelled text := by
  obtain ⟨w, rest, htrim, hw, hends⟩ := h
  obtain ⟨b', hb', hend⟩ := exists_trimEnd (trimStart text)
  have hb := isBlank_of_mem_takeWhile text
  refine ⟨text.takeWhile isBlank ++ w, rest ++ b', ?_,
    append_mem_lexemes _ (blanks_mem_lexemes hb) _ hw, ?_⟩
  · rw [trim] at htrim
    rw [htrim] at hend
    rw [List.append_assoc, ← List.append_assoc w, ← hend, takeWhile_append_trimStart]
  · rw [Ends, afterStatement, trim_append_blanks hb']
    exact hends

end Spelled

end Statement

end TableDdl
