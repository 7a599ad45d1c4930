import Mathlib.Algebra.Group.Int.Defs
import TableDdl.Proofs.Grammar.Values
import TableDdl.Proofs.Log
import TableDdl.Proofs.Statement
import TableDdl.Script.Basic

/-!
# Well-formed tables

Whatever is read is well formed: names are names, types are types that a column can have with a size
that such a type can have, indexes are of a kind that can be declared, and the options of a table
are names where they must be given.

Each notion is a predicate of its own (`IsName`, `DataType.Allowed`, …, `Table.WellFormed`), and for
each rule of the grammar there is one lemma that its values satisfy it.  Relaxed options are folded
from settings, so there the step (`OptionSetting.wellFormed_apply`) comes before the run.
-/

namespace TableDdl

open Grammar Text

/-! ## What is well formed -/

/-- A name: at least one character, and nothing but letters, numeric characters and underscores. -/
structure IsName (name : String) : Prop where
  ne_empty : name ≠ ""
  word : ∀ c ∈ name.toList, isWord c = true
  /-- There are no blanks in a name, no backticks, and of ASCII nothing but letters, digits and
  underscores. -/
  bare : ∀ c ∈ name.toList, isBlank c = false ∧ c ≠ '`' ∧
    (c.toNat < 0x80 → c.isAlphanum = true ∨ c = '_')

/-- A type that a column can have.  `TEXT` and `BIGTEXT` belong to the extended types. -/
def DataType.Allowed (extended : Bool) (t : DataType) : Prop :=
  match t.kind with
  | .tinyInt | .smallInt | .int | .bigInt => t.size = 0
  | .varChar | .dateTime => 0 ≤ t.size ∧ t.size ≤ 2 ^ 32 - 1
  | .decimal => 0 ≤ t.size ∧ t.size ≤ 255
  | .text | .bigText => extended = true ∧ t.size = 0
  | .unknown => False

/-- A column with a name and with a type that a column can have. Its comment may be any text. -/
structure Column.WellFormed (extended : Bool) (c : Column) : Prop where
  name : IsName c.name
  type : c.type.Allowed extended

/-- An index as it can be declared: no name or a name, at least one column, and a method in
capitals. -/
structure Index.WellFormed (i : Index) : Prop where
  kind : i.kind = .primary ∨ i.kind = .unique ∨ i.kind = .normal
  name : i.name = "" ∨ IsName i.name
  columns_ne_nil : i.columnNames ≠ []
  columns : ∀ name ∈ i.columnNames, IsName name
  usingType : i.usingType = none ∨ i.usingType = some "BTREE" ∨ i.usingType = some "HASH"

/-- A line is well formed as what it declares. -/
def BodyLine.WellFormed (extended : Bool) : BodyLine → Prop
  | .column c => c.WellFormed extended
  | .index i => i.WellFormed

/-- The value of an option: a name, or nothing where options may be missing. -/
def IsOptionValue (relaxed : Bool) (value : String) : Prop :=
  IsName value ∨ relaxed = true ∧ value = ""

/-- Options whose values are names where they must be given. The comment may be any text. -/
structure TableOptions.WellFormed (relaxed : Bool) (o : TableOptions) : Prop where
  engine : IsOptionValue relaxed o.engine
  charset : IsOptionValue relaxed o.charset
  collate : IsOptionValue relaxed o.collate

/-- A statement whose name, lines and options are well formed. -/
structure Sql.CreateTable.WellFormed (d : Dialect) (s : Sql.CreateTable) : Prop where
  name : IsName s.name
  body : ∀ line ∈ s.body, line.WellFormed d.extendedTypes
  options : s.options.WellFormed d.relaxedOptions

/-- A table whose name, columns and options are well formed. -/
structure Table.WellFormed (d : Dialect) (t : Table) : Prop where
  name : IsName t.name
  columns : ∀ c ∈ t.columns, c.WellFormed d.extendedTypes
  options : t.options.WellFormed d.relaxedOptions

/-! ## Names -/

/-- A word that is not empty is a name, since no word character is a blank or a backtick. -/
theorem isName_of_word {name : String} (hne : name.toList ≠ [])
    (hw : ∀ c ∈ name.toList, isWord c = true) : IsName name where
  ne_empty := by
    rintro rfl
    exact hne rfl
  word := hw
  bare c hc := by
    have hword := hw c hc
    refine ⟨not_isBlank_of_isWord hword, ?_, fun hlt => ?_⟩
    · rintro rfl
      exact absurd hword (by decide)
    · rw [isWord, isAlphanumeric, if_pos hlt, Bool.or_eq_true, beq_iff_eq] at hword
      exact hword

/-- What is read as a name is one, whether or not it stood between backticks. -/
theorem yields_name : Yields identifier IsName :=
  yields_identifier.mono fun _ h => isName_of_word h.1 h.2

namespace Sql

/-! ## Types -/

/-- An integer type has the size 0, because its width is dropped. -/
theorem yields_someInt (extended : Bool) : Yields someInt (DataType.Allowed extended) := by
  have hkind : Yields intKind fun kind => (⟨kind, 0⟩ : DataType).Allowed extended := by
    refine yields_alternatives fun g hg => ?_
    obtain ⟨entry, hentry, rfl⟩ := List.mem_map.1 hg
    refine (yields_any _).map fun _ _ => ?_
    have hall : ∀ entry ∈ intKeywords, (⟨entry.2, 0⟩ : DataType).Allowed extended := by
      simp [intKeywords, DataType.Allowed]
    exact hall entry hentry
  exact (hkind.seq (yields_any _)).map fun _ h => h.1

/-- A size that is accepted is within the limit. -/
theorem sizedWithin_eq_some {kind : TypeKind} {limit size : Nat} {t : DataType}
    (h : sizedWithin kind limit size = some t) : size ≤ limit ∧ t = ⟨kind, size⟩ := by
  rw [sizedWithin] at h
  split at h
  · simp at h
  · exact ⟨by omega, (Option.some.inj h).symm⟩

/-- A size within the limit of its kind. -/
theorem yields_sized {α : Type} {P : DataType → Prop} {kind : TypeKind} {limit : Nat}
    (hP : ∀ size ≤ limit, P ⟨kind, size⟩) (g : Grammar α) (size : α → Nat) :
    Yields (refine (fun parts => sizedWithin kind limit (size parts)) g) P := by
  refine (yields_any g).refine fun parts t _ h => ?_
  obtain ⟨hle, rfl⟩ := sizedWithin_eq_some h
  exact hP (size parts) hle

/-- The width of a `VARCHAR` is refused where it does not fit into 32 bits. -/
theorem yields_varchar (extended : Bool) : Yields varchar (DataType.Allowed extended) := by
  have hallowed : ∀ size ≤ maxTypeWidth, (⟨.varChar, size⟩ : DataType).Allowed extended := by
    intro size hsize
    simp only [DataType.Allowed, maxTypeWidth] at hsize ⊢
    omega
  exact yields_sized hallowed _ _

theorem yields_datetime (extended : Bool) : Yields datetime (DataType.Allowed extended) := by
  have hallowed : ∀ size ≤ maxTypeWidth, (⟨.dateTime, size⟩ : DataType).Allowed extended := by
    intro size hsize
    simp only [DataType.Allowed, maxTypeWidth] at hsize ⊢
    omega
  exact yields_sized hallowed _ _

/-- The size of a `DECIMAL` is its precision, which fits into a byte. -/
theorem yields_decimal (extended : Bool) : Yields decimal (DataType.Allowed extended) := by
  have hallowed : ∀ size ≤ maxDecimalPrecision, (⟨.decimal, size⟩ : DataType).Allowed extended := by
    intro size hsize
    simp only [DataType.Allowed, maxDecimalPrecision] at hsize ⊢
    omega
  exact yields_sized hallowed _ _

/-- The types of the text family have the size 0 and are extended ones. -/
theorem yields_textType : Yields textType (DataType.Allowed true) := by
  have hkind : Yields textKind fun kind => (⟨kind, 0⟩ : DataType).Allowed true := by
    refine yields_alternatives fun g hg => ?_
    rcases List.mem_pair.1 hg with rfl | rfl
    · exact (yields_any _).map fun _ _ => ⟨rfl, rfl⟩
    · exact (yields_any _).map fun _ _ => ⟨rfl, rfl⟩
  exact (hkind.seq (yields_any _)).map fun _ h => h.1

theorem yields_dataType (extended : Bool) :
    Yields (dataType extended) (DataType.Allowed extended) := by
  refine yields_alternatives fun g hg => ?_
  rcases List.mem_append.1 hg with hg | hg
  · simp only [List.mem_cons, List.not_mem_nil, or_false] at hg
    rcases hg with rfl | rfl | rfl | rfl
    · exact yields_someInt extended
    · exact yields_varchar extended
    · exact yields_datetime extended
    · exact yields_decimal extended
  · cases extended with
    | false => simp at hg
    | true =>
        obtain rfl := List.mem_singleton.1 hg
        exact yields_textType

/-! ## Lines -/

/-- A column line promises what its name and its type promise, and nothing of its comment. -/
theorem yields_columnLine (extended : Bool) :
    Yields (columnLine extended) (Column.WellFormed extended) := by
  have hname := yields_name.preceded whitespace0
  have htype := (yields_dataType extended).preceded whitespace1
  have hclauses := yields_any (preceded defaultClause (optional commentClause))
  have hparts := hname.seq (htype.seq hclauses)
  exact (hparts.followedBy _).map fun _ h => ⟨h.1, h.2.1⟩

/-- An index has at least one column, because its columns are repeated at least once. -/
theorem yields_indexColumns :
    Yields indexColumns fun names => names ≠ [] ∧ ∀ name ∈ names, IsName name := by
  have hcolumn : Yields indexColumn fun parts => IsName parts.2.1 := by
    have hrest := yields_any (seq (optional typeSize)
      (seq (optional sortOrder) (seq whitespace0 (optional (exactly ",")))))
    have hparts := (yields_any whitespace0).seq (yields_name.seq hrest)
    exact hparts.mono fun _ h => h.2.1
  have hclosed := hcolumn.many1.followedBy (seq whitespace0 (exactly ")"))
  have hcolumns := hclosed.preceded (exactly "(")
  refine hcolumns.map fun columns h => ⟨?_, fun name hn => ?_⟩
  · simpa using h.1
  · obtain ⟨parts, hparts, rfl⟩ := List.mem_map.1 hn
    exact h.2 parts hparts

/-- However the method is written, it is one of two in capitals. -/
theorem yields_indexUsing : Yields indexUsing fun method =>
    capitals [method] = "BTREE" ∨ capitals [method] = "HASH" := by
  have hmethod : Yields (alternatives [keyword "btree", keyword "hash"]) fun method =>
      capitals [method] = "BTREE" ∨ capitals [method] = "HASH" := by
    refine yields_alternatives fun g hg => ?_
    rcases List.mem_pair.1 hg with rfl | rfl
    · have hbtree : capitals ["btree"] = "BTREE" := by decide
      exact (yields_capitals (by decide)).mono fun method h => .inl (h.trans hbtree)
    · have hhash : capitals ["hash"] = "HASH" := by decide
      exact (yields_capitals (by decide)).mono fun method h => .inr (h.trans hhash)
  exact ((hmethod.preceded _).preceded _).preceded _

/-- An index without a prefix is a normal one, so one of three kinds is always found. -/
theorem yields_indexKind :
    Yields indexKind fun kind => kind = .primary ∨ kind = .unique ∨ kind = .normal := by
  have hword : Yields indexPrefix fun kind => kind = .primary ∨ kind = .unique := by
    refine yields_alternatives fun g hg => ?_
    rcases List.mem_pair.1 hg with rfl | rfl
    · exact (yields_any _).map fun _ _ => .inl rfl
    · exact (yields_any _).map fun _ _ => .inr rfl
  refine (hword.followedBy _).optional.map fun found h => ?_
  cases found with
  | none => exact .inr (.inr rfl)
  | some kind => exact (h kind rfl).imp_right .inl

/-- Each part of an index line promises its own part of the index. -/
theorem yields_indexLine : Yields indexLine Index.WellFormed := by
  have hkind := yields_indexKind.preceded whitespace0
  have hname := (yields_name.optional.preceded whitespace0).preceded
    (alternatives [keyword "key", keyword "index"])
  have hcolumns := yields_indexColumns.preceded whitespace0
  have hparts := hkind.seq (hname.seq (hcolumns.seq yields_indexUsing.optional))
  refine (hparts.followedBy _).map fun parts h => ?_
  obtain ⟨kind, name, columns, using?⟩ := parts
  obtain ⟨hkind, hname, ⟨hne, hcolumns⟩, husing⟩ := h
  refine ⟨hkind, ?_, hne, hcolumns, ?_⟩
  · cases name with
    | none => exact .inl rfl
    | some name => exact .inr (hname name rfl)
  · cases using? with
    | none => exact .inl rfl
    | some method => exact .inr ((husing method rfl).imp (congrArg some) (congrArg some))

theorem yields_bodyLine (extended : Bool) :
    Yields (bodyLine extended) (BodyLine.WellFormed extended) := by
  have hindex : Yields (map BodyLine.index indexLine) (BodyLine.WellFormed extended) :=
    yields_indexLine.map fun _ h => h
  have hcolumn :
      Yields (map BodyLine.column (columnLine extended)) (BodyLine.WellFormed extended) :=
    (yields_columnLine extended).map fun _ h => h
  exact hindex.orElse hcolumn

/-! ## Options -/

theorem yields_optionOf {α β : Type} {P : β → Prop} {value : Grammar β} (hvalue : Yields value P)
    (name : Grammar α) : Yields (optionOf name value) P := by
  have hspaced := hvalue.preceded whitespace0
  have hequals := (hspaced.preceded (Grammar.optional (exactly "="))).preceded whitespace0
  exact hequals.preceded name

/-- Strict options name an engine, a character set and a collation. -/
theorem yields_strictOptions : Yields strictOptions (TableOptions.WellFormed false) := by
  have hengine := (yields_optionOf yields_name (keyword "engine")).preceded whitespace0
  have hcharset := (yields_optionOf yields_name (preceded defaultPrefix charsetWords)).preceded
    whitespace1
  have hcollate := (yields_optionOf yields_name
    (preceded defaultPrefix (keyword "collate"))).preceded whitespace1
  have hcomment := yields_any (preceded whitespace1 commentOption)
  have hparts := hengine.seq (hcharset.seq (hcollate.seq hcomment))
  exact hparts.map fun _ h => ⟨.inl h.1, .inl h.2.1, .inl h.2.2.1⟩

/-- The setting of a name has a name. -/
def OptionSetting.WellFormed : OptionSetting → Prop
  | engine value | charset value | collate value => IsName value
  | comment _ | dropped => True

/-- A setting that is a name has one. What is dropped promises nothing. -/
theorem yields_optionSetting : Yields optionSetting OptionSetting.WellFormed := by
  refine yields_alternatives fun g hg => ?_
  simp only [optionSettings, List.mem_cons, List.not_mem_nil, or_false] at hg
  rcases hg with rfl | rfl | rfl | rfl | rfl | rfl
  · exact (yields_optionOf yields_name _).map fun _ h => h
  · exact (yields_optionOf yields_name _).map fun _ h => h
  · exact (yields_optionOf yields_name _).map fun _ h => h
  · exact (yields_any _).map fun _ _ => trivial
  · exact (yields_any _).map fun _ _ => trivial
  · exact (yields_any _).map fun _ _ => trivial

/-- One more setting keeps the options well formed. -/
theorem OptionSetting.wellFormed_apply {o : TableOptions} {s : OptionSetting}
    (ho : o.WellFormed true) (hs : s.WellFormed) : (s.apply o).WellFormed true := by
  cases s with
  | engine value => exact { ho with engine := .inl hs }
  | charset value => exact { ho with charset := .inl hs }
  | collate value => exact { ho with collate := .inl hs }
  | comment value => exact ⟨ho.engine, ho.charset, ho.collate⟩
  | dropped => exact ho

/-- Each setting leaves the options well formed, by induction on the settings. -/
theorem wellFormed_foldl_apply {o : TableOptions} (ho : o.WellFormed true)
    {settings : List OptionSetting} (hs : ∀ s ∈ settings, s.WellFormed) :
    (settings.foldl OptionSetting.apply o).WellFormed true := by
  induction settings generalizing o with
  | nil => exact ho
  | cons s settings ih =>
      rw [List.forall_mem_cons] at hs
      exact ih (OptionSetting.wellFormed_apply ho hs.1) hs.2

/-- The defaults are well formed where options may be missing, and each setting keeps them so. -/
theorem yields_relaxedOptions : Yields relaxedOptions (TableOptions.WellFormed true) := by
  have hmissing : IsOptionValue true "" := .inr ⟨rfl, rfl⟩
  have hdefaults : TableOptions.WellFormed true {} := ⟨hmissing, hmissing, hmissing⟩
  have hsettings := (yields_optionSetting.preceded whitespace0).many
  exact hsettings.map fun settings hs => wellFormed_foldl_apply hdefaults hs

theorem yields_tableOptions (relaxed : Bool) :
    Yields (tableOptions relaxed) (TableOptions.WellFormed relaxed) := by
  cases relaxed with
  | false => exact yields_strictOptions
  | true => exact yields_relaxedOptions

/-! ## Statements -/

/-- The steps of a statement promise what the name, the lines and the options promise. -/
theorem yields_createTable (d : Dialect) : Yields (createTable d) (CreateTable.WellFormed d) := by
  have hbody := (yields_bodyLine d.extendedTypes).many1
  have hoptions := (yields_tableOptions d.relaxedOptions).map_snd_pair
    (seq whitespace0 (exactly ")"))
  have hparts := yields_name.pair ((hbody.pair hoptions).map_snd_pair
    (seq whitespace0 (seq (exactly "(") whitespace0)))
  have hall := (yields_any whitespace0).pair ((yields_any (keyword "create")).pair
    ((yields_any tableHead).pair ((yields_any ifNotExists).pair hparts)))
  refine hall.map fun parts h => ?_
  obtain ⟨-, -, -, -, hname, ⟨-, hlines⟩, hoptions⟩ := h
  exact ⟨hname, hlines, hoptions⟩

/-- The columns of a table are those of the lines of its body. -/
theorem CreateTable.WellFormed.table {d : Dialect} {s : CreateTable} (h : s.WellFormed d) :
    s.table.WellFormed d where
  name := h.name
  columns c hc := by
    obtain ⟨line, hline, hcolumn⟩ := List.mem_filterMap.1 hc
    cases line with
    | index i => simp [BodyLine.column?] at hcolumn
    | column c' =>
        obtain rfl := Option.some.inj hcolumn
        exact h.body _ hline
  options := h.options

/-- Picking the columns from the lines keeps a table well formed. -/
theorem yields_tableSchema (d : Dialect) : Yields (tableSchema d) (Table.WellFormed d) :=
  (yields_createTable d).map fun _ h => h.table

end Sql

theorem Statement.wellFormed_of_read {d : Dialect} {text : List Char} {t : Table}
    (h : (Statement.read d text).result = .ok t) : t.WellFormed d := by
  obtain ⟨next, hm, -⟩ := Statement.result_read_eq_ok_iff.1 h
  exact Sql.yields_tableSchema d _ next t hm

/-- Each table of a script is that of one of its statements. -/
theorem Script.wellFormed_of_readTables {d : Dialect} {pieces : List (List Char)} {ts : List Table}
    (h : (readTables d pieces).result = .ok ts) : ∀ t ∈ ts, t.WellFormed d := by
  induction pieces generalizing ts with
  | nil =>
      obtain rfl := Except.ok.inj h
      simp
  | cons piece rest ih =>
      rw [readTables] at h
      split at h
      · obtain ⟨t, ht, h⟩ := Logged.result_bind_eq_ok_iff.1 h
        obtain ⟨us, hus, h⟩ := Logged.result_bind_eq_ok_iff.1 h
        obtain rfl := Except.ok.inj h
        exact List.forall_mem_cons.2 ⟨Statement.wellFormed_of_read ht, ih hus⟩
      · obtain ⟨_, -, h⟩ := Logged.result_bind_eq_ok_iff.1 h
        exact ih h

/-- **Well-formedness**: whatever the text and the place, the parts of a statement, the schema of a
table, the table of a statement that is read alone and the tables of a script are well formed. -/
theorem wellFormed_of_matched (d : Dialect) (text : List Char) :
    (∀ (pos : Nat) (next : Cursor) (s : Sql.CreateTable),
      (Sql.createTable d).run (.atPosition text pos) = .matched next s → s.WellFormed d) ∧
    (∀ (pos : Nat) (next : Cursor) (t : Table),
      (Sql.tableSchema d).run (.atPosition text pos) = .matched next t → t.WellFormed d) ∧
    (∀ t : Table, (Statement.read d text).result = .ok t → t.WellFormed d) ∧
    ∀ (name : String) (db : Database), (Script.read d name text).result = .ok db →
      ∀ t ∈ db.tables, t.WellFormed d := by
  refine ⟨fun pos next s h => ?_, fun pos next t h => ?_, fun t h => ?_, fun name db h => ?_⟩
  · exact Sql.yields_createTable d _ next s h
  · exact Sql.yields_tableSchema d _ next t h
  · exact Statement.wellFormed_of_read h
  · obtain ⟨ts, hts, h⟩ := Logged.result_bind_eq_ok_iff.1 h
    obtain ⟨_, -, h⟩ := Logged.result_bind_eq_ok_iff.1 h
    obtain rfl := Except.ok.inj h
    exact Script.wellFormed_of_readTables hts

/-- A statement of the dialect with both switches. -/
def relaxedStatement : List Char :=
  "CREATE TABLE t (n DECIMAL(9,2), UNIQUE KEY (n) USING hash, s TEXT) COLLATE=c".toList

theorem wellFormed_of_matched_relaxedStatement :
    ∃ (next : Cursor) (s : Sql.CreateTable),
      (Sql.createTable ⟨true, true⟩).run (.atPosition relaxedStatement 0) = .matched next s ∧
        s.body = [.column ⟨"n", ⟨.decimal, 9⟩, ""⟩, .index ⟨"", .unique, ["n"], some "HASH"⟩,
          .column ⟨"s", ⟨.text, 0⟩, ""⟩] ∧ s.WellFormed ⟨true, true⟩ := by
  have hrun : (Sql.createTable ⟨true, true⟩).run (.atPosition relaxedStatement 0) =
      .matched (.atPosition relaxedStatement 76)
        ⟨"t", [.column ⟨"n", ⟨.decimal, 9⟩, ""⟩, .index ⟨"", .unique, ["n"], some "HASH"⟩,
          .column ⟨"s", ⟨.text, 0⟩, ""⟩], ⟨"", "", "c", ""⟩⟩ := by decide +kernel
  exact ⟨_, _, hrun, rfl, (wellFormed_of_matched ⟨true, true⟩ relaxedStatement).1 0 _ _ hrun⟩

end TableDdl
