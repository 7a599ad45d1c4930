import TableDdl.Proofs.Grammar.Steady
import TableDdl.Proofs.Sql.Words
import TableDdl.Proofs.Statement

/-!
# Statements do not see the layout

Every clause of a statement is steady, so a text that differs from a statement in its layout only is
read as the same table (`Statement.read_of_relaid`).

Where a clause ends in blanks, a keyword follows that begins nothing else, and it is not there at
the end of a text.  Only behind `IF NOT EXISTS` a name follows, which may be the word `IF` itself;
there it matters that the first text is read.
-/

namespace TableDdl

open Grammar Script Text

namespace Sql

variable {E : Mode → List Char → List Char → Prop}

/-! ## Words and marks -/

/-- A mark is neither a blank nor what may end a text, so it is there on both sides. -/
theorem steady_opening (hE : Ending E) : Steady E Nowhere Eq (exactly "(") :=
  steady_exactly hE (x := '(') rfl (by decide)

theorem steady_closing (hE : Ending E) : Steady E Nowhere Eq (exactly ")") :=
  steady_exactly hE (x := ')') rfl (by decide)

theorem steady_comma (hE : Ending E) : Steady E Nowhere Eq (exactly ",") :=
  steady_exactly hE (x := ',') rfl (by decide)

/-- One of several keywords. -/
theorem steady_words (hE : Ending E) (texts : List String)
    (htexts : ∀ k ∈ texts, isKeyword k = true) :
    Steady E Nowhere Eq (alternatives (texts.map keyword)) := by
  refine steady_alternatives fun g hg => ?_
  obtain ⟨text, htext, rfl⟩ := List.mem_map.1 hg
  exact steady_keyword hE (htexts text htext)

/-- One of several keywords, each of which stands for a value. -/
theorem steady_wordsFor (hE : Ending E) {α : Type} (entries : List (String × α))
    (hentries : ∀ entry ∈ entries, isKeyword entry.1 = true) :
    Steady E Nowhere Eq (alternatives (entries.map fun entry =>
      map (fun _ => entry.2) (keyword entry.1))) := by
  refine steady_alternatives fun g hg => ?_
  obtain ⟨entry, hentry, rfl⟩ := List.mem_map.1 hg
  have hword : Steady E Nowhere Eq (keyword entry.1) := steady_keyword hE (hentries entry hentry)
  exact hword.map _ fun _ _ _ => rfl

/-- A clause that a keyword opens, behind blanks.  Where the text stops instead, the blanks may be
missing on one side, but neither side has the keyword. -/
theorem steady_behindBlanks (hE : Ending E) {α : Type} {g : Grammar α} {ks : List String}
    (hg : Steady E Nowhere Eq g) (hopens : Opens g ks) (hempty : "" ∉ ks) :
    Steady E Nowhere Eq (preceded whitespace1 g) :=
  (steady_whitespace1 hE).preceded_of_rejects hg (hopens.rejects_of_stops hempty)

/-- One of several keywords behind blanks. -/
theorem steady_wordsBehind (hE : Ending E) (texts : List String)
    (htexts : ∀ k ∈ texts, isKeyword k = true) (hempty : "" ∉ texts) :
    Steady E Nowhere Eq (preceded whitespace1 (alternatives (texts.map keyword))) :=
  steady_behindBlanks hE (steady_words hE texts htexts) (opens_words texts htexts) hempty

/-! ## Types -/

/-- Blanks around a size may differ, but not the number. -/
theorem steady_typeSize (hE : Ending E) : Steady E Nowhere Eq typeSize := by
  have hblank := steady_whitespace0 hE
  have hend := hblank.seq (steady_closing hE)
  have hnumber := hblank.preceded ((steady_unsignedInteger hE).followedBy hend)
  exact hblank.preceded ((steady_opening hE).preceded hnumber)

theorem steady_typeModifier (hE : Ending E) : Steady E Nowhere Eq typeModifier :=
  steady_wordsBehind hE ["unsigned", "zerofill"] (by decide) (by decide)

theorem steady_charsetWords (hE : Ending E) : Steady E Nowhere Eq charsetWords := by
  have hlong : Steady E Nowhere Eq (keywords ["character", "set"]) :=
    steady_keywords hE (by decide)
  have hshort : Steady E Nowhere Eq (alternatives [keyword "charset"]) :=
    steady_words hE ["charset"] (by decide)
  exact hlong.orElse hshort

/-- A name behind blanks. -/
theorem steady_nameBehind (hE : Ending E) :
    Steady E Nowhere Eq (preceded whitespace1 identifier) :=
  (steady_whitespace1 hE).preceded_of_rejects (steady_identifier hE) rejects_identifier_of_stops

/-- The name of a character set cannot be missing on one side only. -/
theorem steady_typeCharset (hE : Ending E) : Steady E Nowhere Eq typeCharset := by
  have hclause := (steady_charsetWords hE).preceded (steady_nameBehind hE)
  exact steady_behindBlanks hE hclause (opens_charsetWords.preceded _) (by decide)

theorem steady_typeCollate (hE : Ending E) : Steady E Nowhere Eq typeCollate := by
  have hword : Steady E Nowhere Eq (keyword "collate") := steady_keyword hE (by decide)
  have hopens : Opens (keyword "collate") ["collate"] := opens_keyword (by decide)
  have hclause := hword.preceded (steady_nameBehind hE)
  exact steady_behindBlanks hE hclause (hopens.preceded _) (by decide)

/-- A keyword of an integer type stands for the same kind on both sides. -/
theorem steady_intKind (hE : Ending E) : Steady E Nowhere Eq intKind :=
  steady_wordsFor hE intKeywords (by decide)

/-- Size and modifiers are dropped, but they must be there on both sides or on none. -/
theorem steady_someInt (hE : Ending E) : Steady E Nowhere Eq someInt := by
  have hmodifier := (steady_typeModifier hE).optional
  have hparts := (steady_intKind hE).seq
    ((steady_typeSize hE).optional.seq (hmodifier.seq hmodifier))
  exact hparts.map _ fun _ _ hr => by rw [hr.1]

/-- The same size is within the same limit. -/
theorem option_rel_eq {α : Type} (x : Option α) : Option.Rel Eq x x := by
  cases x with
  | none => exact .none
  | some => exact .some rfl

theorem steady_varchar (hE : Ending E) : Steady E Nowhere Eq varchar := by
  have hnames := (steady_typeCharset hE).optional.seq (steady_typeCollate hE).optional
  have hword : Steady E Nowhere Eq (keyword "varchar") := steady_keyword hE (by decide)
  have hparts := hword.seq ((steady_typeSize hE).seq hnames)
  refine hparts.refine _ fun _ _ hr => ?_
  rw [hr.2.1]
  exact option_rel_eq _

theorem steady_datetime (hE : Ending E) : Steady E Nowhere Eq datetime := by
  have hword : Steady E Nowhere Eq (keyword "datetime") := steady_keyword hE (by decide)
  have hparts := hword.seq (steady_typeSize hE).optional
  refine hparts.refine _ fun _ _ hr => ?_
  rw [hr.2]
  exact option_rel_eq _

/-- Blanks within the parentheses of a `DECIMAL` do not count. -/
theorem steady_decimal (hE : Ending E) : Steady E Nowhere Eq decimal := by
  have hblank := steady_whitespace0 hE
  have hint := steady_unsignedInteger hE
  have hword : Steady E Nowhere Eq (keyword "decimal") := steady_keyword hE (by decide)
  have hhead := hword.seq (hblank.seq ((steady_opening hE).seq hblank))
  have hscale := hblank.preceded ((steady_comma hE).preceded (hblank.preceded hint))
  have hend := hblank.seq (steady_closing hE)
  have hparts := hhead.seq (hint.seq (hscale.optional.seq hend))
  refine hparts.refine _ fun _ _ hr => ?_
  rw [hr.2.1]
  exact option_rel_eq _

theorem steady_textType (hE : Ending E) : Steady E Nowhere Eq textType := by
  have hkind : Steady E Nowhere Eq textKind :=
    steady_wordsFor hE [("text", TypeKind.text), ("bigtext", TypeKind.bigText)] (by decide)
  have hnames := (steady_typeCharset hE).optional.seq (steady_typeCollate hE).optional
  have hparts := hkind.seq hnames
  exact hparts.map _ fun _ _ hr => by rw [hr.1]

/-- The types of each dialect are the same on both sides. -/
theorem steady_dataType (hE : Ending E) (extended : Bool) :
    Steady E Nowhere Eq (dataType extended) := by
  refine steady_alternatives fun g hg => ?_
  rw [dataTypes, List.mem_append] at hg
  rcases hg with hg | hg
  · simp only [List.mem_cons, List.not_mem_nil, or_false] at hg
    rcases hg with rfl | rfl | rfl | rfl
    · exact steady_someInt hE
    · exact steady_varchar hE
    · exact steady_datetime hE
    · exact steady_decimal hE
  · cases extended with
    | false => simp at hg
    | true =>
        obtain rfl := List.mem_singleton.1 hg
        exact steady_textType hE

/-- No type is empty. -/
theorem rejects_dataType_of_stops (extended : Bool) :
    ∀ v, Stops v → Rejects (dataType extended) v :=
  (opens_dataType extended).rejects_of_stops (by decide)

/-! ## Columns -/

/-- The blanks in front of the clause are its own, and the words come right behind them. -/
theorem steady_nullClause (hE : Ending E) : Steady E Nowhere Eq nullClause := by
  have hnot : Steady E Nowhere Eq (keywords ["not", "null"]) := steady_keywords hE (by decide)
  have hnull : Steady E Nowhere Eq (alternatives [keyword "null"]) :=
    steady_words hE ["null"] (by decide)
  exact steady_behindBlanks hE (hnot.orElse hnull) opens_nullWords (by decide)

/-- The precision may have other blanks in front of it. -/
theorem steady_currentTimestamp (hE : Ending E) : Steady E Nowhere Eq currentTimestamp := by
  have hword : Steady E Nowhere Eq (keyword "current_timestamp") := steady_keyword hE (by decide)
  have hparts := hword.seq (steady_typeSize hE).optional
  exact hparts.mono (fun _ hv => hv) fun _ _ hr => Prod.ext hr.1 hr.2

theorem rejects_currentTimestamp_of_stops : ∀ v, Stops v → Rejects currentTimestamp v := by
  have hopens : Opens (keyword "current_timestamp") ["current_timestamp"] :=
    opens_keyword (by decide)
  exact (hopens.seq (optional typeSize)).rejects_of_stops (by decide)

/-- Of the clause nothing is kept, so nothing is said of its value. -/
theorem steady_onUpdateClause (hE : Ending E) :
    Steady E Nowhere (fun _ _ => True) onUpdateClause := by
  have hblank := steady_whitespace1 hE
  have htime := hblank.seq_of_rejects (steady_currentTimestamp hE)
    rejects_currentTimestamp_of_stops
  have hupdate : Steady E Nowhere Eq (keywords ["on", "update"]) := steady_keywords hE (by decide)
  have hwords := hupdate.seq htime
  have hopens : Opens (keywords ["on", "update"]) ["on"] := opens_keywords (by decide) _
  have hnone := (hopens.seq (seq whitespace1 currentTimestamp)).rejects_of_stops (by decide)
  exact (hblank.seq_of_rejects hwords hnone).mono (fun _ hv => hv) fun _ _ _ => trivial

/-- The content of a default must not begin where a text stops. -/
theorem steady_defaulted (hE : Ending E) {α : Type} {g : Grammar α} (hg : Steady E Nowhere Eq g)
    (hrej : ∀ v, Stops v → Rejects g v) : Steady E Nowhere Eq (defaulted g) := by
  have hword : Steady E Nowhere Eq (keyword "default") := steady_keyword hE (by decide)
  have hcontent := (steady_whitespace1 hE).preceded_of_rejects hg hrej
  exact hword.preceded hcontent

section Whole

variable (hE : Ending E) (hwhole : ∀ m r r', E m r r' → m = Mode.plain)
include hE hwhole

/-- Each literal is steady, and each begins with a word that no text ends with. -/
theorem steady_defaultLiteral : Steady E Nowhere Eq defaultLiteral := by
  have hint : Steady E Nowhere Eq defaultInt := by
    have hcontent := steady_defaulted hE (steady_unsignedInteger hE)
      rejects_unsignedInteger_of_stops
    exact hcontent.map _ fun _ _ hr => by rw [hr]
  have hstr : Steady E Nowhere Eq defaultStr := by
    have hcontent := steady_defaulted hE (steady_quotedString hE hwhole)
      rejects_quotedString_of_stops
    exact hcontent.map _ fun _ _ hr => by rw [hr]
  have hnull : Steady E Nowhere Eq defaultNull := by
    have hwords : Steady E Nowhere Eq (keywords ["default", "null"]) :=
      steady_keywords hE (by decide)
    exact hwords.map _ fun _ _ _ => rfl
  have htime : Steady E Nowhere Eq defaultCurrentTimestamp := by
    have hparts := (steady_defaulted hE (steady_currentTimestamp hE)
      rejects_currentTimestamp_of_stops).seq (steady_onUpdateClause hE).optional_rel
    refine hparts.map _ fun a b hr => ?_
    have hsome : a.2.isSome = b.2.isSome := by
      obtain ⟨-, hr⟩ := hr
      revert hr
      generalize a.2 = x
      generalize b.2 = y
      intro hr
      cases hr <;> rfl
    rw [hsome]
  have hcount : Steady E Nowhere Eq autoIncrement := by
    have hword : Steady E Nowhere Eq (keyword "auto_increment") := steady_keyword hE (by decide)
    exact hword.map _ fun _ _ _ => rfl
  have hall : Steady E Nowhere Eq (alternatives defaultLiterals) := by
    refine steady_alternatives fun g hg => ?_
    simp only [defaultLiterals, List.mem_cons, List.not_mem_nil, or_false] at hg
    rcases hg with rfl | rfl | rfl | rfl | rfl
    · exact hint
    · exact hstr
    · exact hnull
    · exact htime
    · exact hcount
  exact steady_behindBlanks hE hall opens_defaultLiterals (by decide)

/-- Of both parts only counts whether there is a literal. -/
theorem steady_defaultClause : Steady E Nowhere Eq defaultClause := by
  have hparts := (steady_nullClause hE).optional.seq (steady_defaultLiteral hE hwhole).optional
  exact hparts.map _ fun _ _ hr => by rw [hr.2]

/-- A comment is a string, and within a string nothing may differ. -/
theorem steady_commentClause : Steady E Nowhere Eq commentClause := by
  have hword : Steady E Nowhere Eq (keyword "comment") := steady_keyword hE (by decide)
  have hopens : Opens (keyword "comment") ["comment"] := opens_keyword (by decide)
  have hcontent := (steady_whitespace0 hE).preceded (steady_quotedString hE hwhole)
  exact steady_behindBlanks hE (hword.preceded hcontent) (hopens.preceded _) (by decide)

omit hwhole in
/-- The parenthesis that closes a body ends a line on both sides. -/
theorem steady_lineEnd : Steady E Nowhere Eq lineEnd := by
  have hclose : Steady E Nowhere Eq (ahead fun next => next == some ')') := by
    refine steady_ahead hE (fun c hc => ?_) (by decide)
    have hne : c ≠ ')' := by
      rintro rfl
      exact absurd hc (by decide)
    simpa using hne
  have hcommaLine : Steady E Nowhere Eq (map some (exactly ",")) :=
    (steady_comma hE).map _ fun _ _ hr => by rw [hr]
  have hcloseLine : Steady E Nowhere Eq (map (fun _ => (none : Option String))
      (ahead fun next => next == some ')')) := hclose.map _ fun _ _ _ => rfl
  exact hcommaLine.orElse (hcloseLine.orElse steady_fail)

/-- The lines of columns may be broken otherwise, but they name the same columns. -/
theorem steady_columnLine (extended : Bool) : Steady E Nowhere Eq (columnLine extended) := by
  have hblank := steady_whitespace0 hE
  have hname := hblank.preceded (steady_identifier hE)
  have htype := (steady_whitespace1 hE).preceded_of_rejects (steady_dataType hE extended)
    (rejects_dataType_of_stops extended)
  have hcomment := (steady_defaultClause hE hwhole).preceded
    (steady_commentClause hE hwhole).optional
  have hend := hblank.seq ((steady_lineEnd hE).seq hblank)
  have hparts := hname.seq (htype.seq hcomment)
  refine (hparts.followedBy hend).map _ fun _ _ hr => ?_
  rw [hr.1, hr.2.1, hr.2.2]

end Whole

/-! ## Indexes -/

/-- Of a column of an index only the name stays: the blanks around it may be others. -/
theorem steady_indexColumn (hE : Ending E) :
    Steady E Nowhere (fun a b => a.2.1 = b.2.1) indexColumn := by
  have hblank := steady_whitespace0 hE
  have horder : Steady E Nowhere Eq sortOrder :=
    steady_wordsBehind hE ["asc", "desc"] (by decide) (by decide)
  have hend := hblank.seq (steady_comma hE).optional
  have hrest := (steady_typeSize hE).optional.seq (horder.optional.seq hend)
  have hparts := hblank.seq ((steady_identifier hE).seq hrest)
  exact hparts.mono (fun _ hv => hv) fun _ _ hr => hr.2.1

/-- As many columns are named on both sides, and by the same names. -/
theorem steady_indexColumns (hE : Ending E) : Steady E Nowhere Eq indexColumns := by
  have hcolumns := (steady_indexColumn hE).many1_rel moves_indexColumn
  have hend := (steady_whitespace0 hE).seq (steady_closing hE)
  have hparts := (steady_opening hE).preceded (hcolumns.followedBy hend)
  refine hparts.map _ fun as bs hr => ?_
  rw [← List.forall₂_eq_eq_eq, List.forall₂_map_left_iff, List.forall₂_map_right_iff]
  exact hr

theorem steady_indexUsing (hE : Ending E) : Steady E Nowhere Eq indexUsing := by
  have hword : Steady E Nowhere Eq (keyword "using") := steady_keyword hE (by decide)
  have hopens : Opens (keyword "using") ["using"] := opens_keyword (by decide)
  have hmethod := steady_wordsBehind hE ["btree", "hash"] (by decide) (by decide)
  exact steady_behindBlanks hE (hword.preceded hmethod) (hopens.preceded _) (by decide)

/-- `PRIMARY` or `UNIQUE` with blanks behind it, which is left out where the text ends there. -/
theorem steady_indexKind (hE : Ending E) :
    Steady E (fun v => Stops v ∨ firstWord v ∈ ["primary", "unique"].map String.toList) Eq
      indexKind := by
  have hfirst : Steady E Nowhere Eq indexPrefix :=
    steady_wordsFor hE [("primary", IndexKind.primary), ("unique", IndexKind.unique)] (by decide)
  have hspaced := hfirst.followedBy (steady_whitespace1 hE)
  have hkind := hspaced.optional_of_opens hE (opens_indexPrefix.followedBy whitespace1)
  refine hkind.map _ fun a b hr => ?_
  cases hr with
  | none => rfl
  | some hr => rw [hr]

/-- An index is the same on both sides, with its columns and its method. -/
theorem steady_indexLine (hE : Ending E) : Steady E Nowhere Eq indexLine := by
  have hblank := steady_whitespace0 hE
  have hword := steady_words hE ["key", "index"] (by decide)
  have hkind := hblank.preceded (steady_indexKind hE)
  have hname := hword.preceded (hblank.preceded (steady_identifier hE).optional)
  have hcolumns := (hblank.preceded (steady_indexColumns hE)).seq (steady_indexUsing hE).optional
  -- a prefix that is left out on one side only is followed by no line on either side
  have hopens := (opens_indexWord.preceded (preceded whitespace0 (optional identifier))).seq
    (seq (preceded whitespace0 indexColumns) (optional indexUsing))
  have hline := hkind.seq_of_rejects (hname.seq hcolumns)
    (hopens.rejects_of_slip (by decide) (by decide))
  have hend := hblank.seq ((steady_comma hE).optional.seq hblank)
  refine (hline.followedBy hend).map _ fun _ _ hr => ?_
  rw [hr.1, hr.2.1, hr.2.2.1, hr.2.2.2]

theorem steady_bodyLine (hE : Ending E) (hwhole : ∀ m r r', E m r r' → m = Mode.plain)
    (extended : Bool) : Steady E Nowhere Eq (bodyLine extended) := by
  have hindex : Steady E Nowhere Eq (map BodyLine.index indexLine) :=
    (steady_indexLine hE).map _ fun _ _ hr => by rw [hr]
  have hcolumn : Steady E Nowhere Eq (map BodyLine.column (columnLine extended)) :=
    (steady_columnLine hE hwhole extended).map _ fun _ _ hr => by rw [hr]
  exact hindex.orElse hcolumn

/-! ## Options -/

/-- An option is steady if its name and its value are. -/
theorem steady_optionOf (hE : Ending E) {α β : Type} {R : α → α → Prop} {name : Grammar α}
    {value : Grammar β} (hname : Steady E Nowhere R name) (hvalue : Steady E Nowhere Eq value) :
    Steady E Nowhere Eq (optionOf name value) := by
  have hblank := steady_whitespace0 hE
  have hequals : Steady E Nowhere Eq (exactly "=") := steady_exactly hE (x := '=') rfl (by decide)
  have hrest := hblank.preceded (hequals.optional.preceded (hblank.preceded hvalue))
  exact hname.preceded hrest

/-- What follows `DEFAULT` begins with another word. -/
theorem steady_behind_defaultPrefix (hE : Ending E) {α : Type} {g : Grammar α} {ks : List String}
    (hg : Steady E Nowhere Eq g) (hopens : Opens g ks) (hempty : "" ∉ ks) (hks : "default" ∉ ks) :
    Steady E Nowhere Eq (preceded defaultPrefix g) := by
  have hword : Steady E Nowhere Eq (keyword "default") := steady_keyword hE (by decide)
  have hdefault : Opens (keyword "default") ["default"] := opens_keyword (by decide)
  have hspaced := hword.seq (steady_whitespace1 hE)
  have hslip := hspaced.optional_of_opens hE (hdefault.seq whitespace1)
  exact hslip.preceded_of_rejects hg (hopens.rejects_of_slip hempty (by simpa using hks))

theorem steady_engineOption (hE : Ending E) : Steady E Nowhere Eq engineOption :=
  steady_optionOf hE (steady_keyword hE (by decide)) (steady_identifier hE)

theorem steady_charsetOption (hE : Ending E) : Steady E Nowhere Eq charsetOption := by
  have hname := steady_behind_defaultPrefix hE (steady_charsetWords hE) opens_charsetWords
    (by decide) (by decide)
  exact steady_optionOf hE hname (steady_identifier hE)

theorem steady_collateOption (hE : Ending E) : Steady E Nowhere Eq collateOption := by
  have hword : Steady E Nowhere Eq (keyword "collate") := steady_keyword hE (by decide)
  have hopens : Opens (keyword "collate") ["collate"] := opens_keyword (by decide)
  have hname := steady_behind_defaultPrefix hE hword hopens (by decide) (by decide)
  exact steady_optionOf hE hname (steady_identifier hE)

theorem steady_commentOption (hE : Ending E) (hwhole : ∀ m r r', E m r r' → m = Mode.plain) :
    Steady E Nowhere Eq commentOption :=
  steady_optionOf hE (steady_keyword hE (by decide)) (steady_quotedString hE hwhole)

/-- Each option but the first has blanks in front, which cannot be missing where it is there. -/
theorem steady_strictOptions (hE : Ending E) (hwhole : ∀ m r r', E m r r' → m = Mode.plain) :
    Steady E Nowhere Eq strictOptions := by
  have hengine := (steady_whitespace0 hE).preceded (steady_engineOption hE)
  have hcharset := steady_behindBlanks hE (steady_charsetOption hE) opens_charsetOption (by decide)
  have hcollate := steady_behindBlanks hE (steady_collateOption hE) opens_collateOption (by decide)
  have hcomment := steady_behindBlanks hE (steady_commentOption hE hwhole) opens_commentOption
    (by decide)
  have hparts := hengine.seq (hcharset.seq (hcollate.seq hcomment))
  refine hparts.map _ fun _ _ hr => ?_
  rw [hr.1, hr.2.1, hr.2.2.1, hr.2.2.2]

/-- Each option takes something, so both sides come to the same number of them. -/
theorem steady_relaxedOptions (hE : Ending E) (hwhole : ∀ m r r', E m r r' → m = Mode.plain) :
    Steady E Nowhere Eq relaxedOptions := by
  have hsetting {α : Type} {g : Grammar α} (hg : Steady E Nowhere Eq g) (f : α → OptionSetting) :
      Steady E Nowhere Eq (map f g) :=
    hg.map _ fun _ _ hr => by rw [hr]
  have hincrement : Steady E Nowhere Eq autoIncrementOption :=
    steady_optionOf hE (steady_keyword hE (by decide)) (steady_unsignedInteger hE)
  have hformat : Steady E Nowhere Eq rowFormatOption :=
    steady_optionOf hE (steady_keyword hE (by decide)) (steady_identifier hE)
  have hall : Steady E Nowhere Eq optionSetting := by
    refine steady_alternatives fun g hg => ?_
    simp only [optionSettings, List.mem_cons, List.not_mem_nil, or_false] at hg
    rcases hg with rfl | rfl | rfl | rfl | rfl | rfl
    · exact hsetting (steady_engineOption hE) _
    · exact hsetting (steady_charsetOption hE) _
    · exact hsetting (steady_collateOption hE) _
    · exact hsetting (steady_commentOption hE hwhole) _
    · exact hsetting hincrement _
    · exact hsetting hformat _
  have hrounds := ((steady_whitespace0 hE).preceded hall).many
    (moves_optionSetting.preceded_right whitespace0)
  refine hrounds.map _ fun as bs hr => ?_
  rw [List.forall₂_eq_eq_eq] at hr
  rw [hr]

theorem steady_tableOptions (hE : Ending E) (hwhole : ∀ m r r', E m r r' → m = Mode.plain)
    (relaxed : Bool) : Steady E Nowhere Eq (tableOptions relaxed) := by
  cases relaxed with
  | false => exact steady_strictOptions hE hwhole
  | true => exact steady_relaxedOptions hE hwhole

/-! ## Statements -/

/-- The steps of a statement behind its head, each of them steady. -/
theorem steady_tableParts (hE : Ending E) (hwhole : ∀ m r r', E m r r' → m = Mode.plain)
    (d : Dialect) : Steady E Nowhere Eq (tableParts d) := by
  have hblank := steady_whitespace0 hE
  have hopen := hblank.seq ((steady_opening hE).seq hblank)
  have hclose := hblank.seq (steady_closing hE)
  have hlines := (steady_bodyLine hE hwhole d.extendedTypes).many1 (moves_bodyLine d.extendedTypes)
  have hoptions := hclose.map_snd_pair (steady_tableOptions hE hwhole d.relaxedOptions)
  have hbody := hopen.map_snd_pair (hlines.pair hoptions)
  have hparts := (steady_identifier hE).pair hbody
  exact hparts.mono (fun _ hv => hv) fun _ _ hr => Prod.ext hr.1 (Prod.ext hr.2.1 hr.2.2)

/-- Where the text ends behind the word, its blanks may be missing, and then it is left out. -/
theorem steady_temporaryWord (hE : Ending E) :
    Steady E (fun v => Stops v ∨ firstWord v ∈ ["temporary"].map String.toList)
      (Option.Rel fun _ _ => True) temporaryWord := by
  have hword : Steady E Nowhere Eq (keyword "temporary") := steady_keyword hE (by decide)
  have hopens : Opens (keyword "temporary") ["temporary"] := opens_keyword (by decide)
  have hspaced : Steady E Stops (fun _ _ => True) (seq (keyword "temporary") whitespace1) :=
    (hword.seq (steady_whitespace1 hE)).mono (fun _ hv => hv) fun _ _ _ => trivial
  exact hspaced.optional_of_opens hE (hopens.seq whitespace1)

/-- Where `TEMPORARY` is left out, `TABLE` comes first. -/
theorem opens_behind_temporaryWord {α : Type} {g : Grammar α} (hg : Opens g ["table"]) :
    Opens (seq temporaryWord g) ["temporary", "table"] := by
  have hword : Opens (keyword "temporary") ["temporary"] := opens_keyword (by decide)
  have hspaced : Opens (seq (keyword "temporary") whitespace1) ["temporary", "table"] :=
    (hword.seq whitespace1).mono (by simp)
  exact hspaced.optional_seq (hg.mono (by simp))

/-- The blanks behind `TABLE` may be missing where the text ends. -/
theorem steady_tableHead (hE : Ending E) : Steady E Stops (fun _ _ => True) tableHead := by
  have hblank := steady_whitespace1 hE
  have hword : Steady E Nowhere Eq (keyword "table") := steady_keyword hE (by decide)
  have htable : Opens (keyword "table") ["table"] := opens_keyword (by decide)
  have hname := (steady_temporaryWord hE).seq_of_rejects (hword.seq hblank)
    ((htable.seq whitespace1).rejects_of_slip (by decide) (by decide))
  have hopens := opens_behind_temporaryWord (htable.seq whitespace1)
  have hhead := hblank.seq_of_rejects hname (hopens.rejects_of_stops (by decide))
  exact hhead.mono (fun _ hv => hv) fun _ _ _ => trivial

/-- How a statement begins, without the blanks in front of it. -/
theorem steady_createTableHead_behind (hE : Ending E) :
    Steady E Nowhere (fun _ _ => True)
      (seq (keyword "create") (seq whitespace1 (seq temporaryWord (keyword "table")))) := by
  have hcreate : Steady E Nowhere Eq (keyword "create") := steady_keyword hE (by decide)
  have hword : Steady E Nowhere Eq (keyword "table") := steady_keyword hE (by decide)
  have htable : Opens (keyword "table") ["table"] := opens_keyword (by decide)
  have hname := (steady_temporaryWord hE).seq_of_rejects hword
    (htable.rejects_of_slip (by decide) (by decide))
  have hopens := opens_behind_temporaryWord htable
  have hhead := (steady_whitespace1 hE).seq_of_rejects hname (hopens.rejects_of_stops (by decide))
  exact (hcreate.seq hhead).mono (fun _ hv => hv) fun _ _ _ => trivial

/-- Blanks in front may be there in one text only. -/
theorem alike_behind_blanks {α : Type} {F : List Char → Prop} {Q : α → α → Prop} {g : Grammar α}
    (hg : Steady E F Q g) {c c' : Cursor}
    (h : Relaid E .plain (trimStart c.rest) (trimStart c'.rest)) :
    Outcome.Alike E F (fun a b => Q a.2 b.2) ((pair whitespace0 g).run c)
      ((pair whitespace0 g).run c') := by
  obtain ⟨mid, w, hw, hrest⟩ := run_whitespace0 c
  obtain ⟨mid', w', hw', hrest'⟩ := run_whitespace0 c'
  rw [← hrest, ← hrest'] at h
  rw [run_pair, run_pair, hw, hw', Outcome.bind, Outcome.bind]
  exact (hg mid mid' h).map fun _ _ hr => hr

/-- How a statement begins does not depend on its layout. -/
theorem isCreateTable_of_relaid (hE : Ending E) {text text' : List Char}
    (h : Relaid E .plain (trimStart text) (trimStart text')) (hc : isCreateTable text = true) :
    isCreateTable text' = true := by
  obtain ⟨c1, w, hw, hrest⟩ := run_whitespace0 (.start text)
  obtain ⟨c1', w', hw', hrest'⟩ := run_whitespace0 (.start text')
  rw [isCreateTable] at hc
  split at hc
  · next next value hm =>
    obtain ⟨parts, hm, -⟩ := run_map_eq_matched_iff.1 hm
    obtain ⟨mid, hleft, hright⟩ := run_seq_eq_matched_iff.1 hm
    rw [hw] at hleft
    obtain ⟨rfl, -⟩ := Outcome.matched.inj hleft
    have hc1 : Relaid E .plain c1.rest c1'.rest := by rwa [hrest, hrest']
    obtain ⟨next', b, hm', -, -⟩ :=
      (steady_createTableHead_behind hE).of_matched_nowhere hc1 hright
    have hhead : createTableHead.run (.start text') = .matched next' () :=
      run_map_eq_matched_iff.2 ⟨(w', b), run_seq_eq_matched_iff.2 ⟨c1', hw', hm'⟩, rfl⟩
    rw [isCreateTable, hhead]
  · exact absurd hc Bool.false_ne_true

/-- A statement cannot end where its name is due. -/
theorem rejects_tableParts_of_stops (d : Dialect) : ∀ v, Stops v → Rejects (tableParts d) v :=
  fun v hv => (rejects_identifier_of_stops v hv).pair _

/-! ## Whole statements -/

section Head

variable {d : Dialect} {c : Cursor}

/-- A name without backticks is no name of a table if no parenthesis comes next, blanks apart. -/
theorem rejects_tableParts_of_word {v : List Char} (hne : v.takeWhile isWord ≠ [])
    (htick : (v.dropWhile isWord).head? ≠ some '`')
    (hopen : (trimStart (v.dropWhile isWord)).head? ≠ some '(') : Rejects (tableParts d) v := by
  have hname := reads_identifier (o := []) (e := []) hne all_of_mem_takeWhile (.inl rfl) (.inl rfl)
    (headNot_dropWhile isWord v) htick
  have hrest : Rejects (seq whitespace0 (seq (exactly "(") whitespace0)) (v.dropWhile isWord) :=
    rejects_seq_whitespace0 ((rejects_exactly_singleton rfl hopen).seq _)
  have hall : Rejects (tableParts d) (([] ++ v.takeWhile isWord ++ []) ++ v.dropWhile isWord) :=
    hname.rejects_pair ((hrest.pair _).map Prod.snd)
  rwa [List.nil_append, List.append_nil, List.takeWhile_append_dropWhile] at hall

/-- Where `IF NOT EXISTS` stands, `IF` is no name of a table. -/
theorem rejects_tableParts_of_exists {mid : Cursor} {w : String}
    (h : (keywords ["if", "not", "exists"]).run c = .matched mid w) :
    Rejects (tableParts d) c.rest := by
  obtain ⟨words, hwords, -⟩ := run_map_eq_matched_iff.1 h
  obtain ⟨parts, hparts, -⟩ := run_map_eq_matched_iff.1 hwords
  obtain ⟨c1, hif, hnot⟩ := run_seq_eq_matched_iff.1 hparts
  obtain ⟨hword, rfl⟩ := run_keyword_eq_matched (by decide) hif
  have hnext := ((opens_keywordParts (k := "not") (by decide)
    ["exists"]).behind_whitespace1).firstWord_mem hnot
  obtain ⟨c2, b, hblank, -⟩ := run_preceded_eq_matched_iff.1 hnot
  rw [rest_advance_takeWhile] at hnext
  refine rejects_tableParts_of_word ?_ ?_ ?_
  · intro hnil
    rw [firstWord, hnil] at hword
    exact absurd hword (by decide)
  · intro htick
    rw [← rest_advance_takeWhile] at htick
    exact (run_whitespace1_eq_matched hblank).1 (headNot_of_head? htick (by decide))
  · intro hopen
    rw [firstWord_eq_nil (headNot_of_head? hopen (by decide))] at hnext
    exact absurd hnext (by decide)

end Head

/-- `IF NOT EXISTS` and the name behind it. -/
theorem steady_named (hE : Ending E) (hwhole : ∀ m r r', E m r r' → m = Mode.plain) (d : Dialect) :
    Steady E Nowhere (fun a b => a.2 = b.2) (pair ifNotExists (tableParts d)) := by
  have hexists : Steady E Nowhere Eq (keywords ["if", "not", "exists"]) :=
    steady_keywords hE (by decide)
  refine (hexists.seq (steady_whitespace1 hE)).optional_pair (steady_tableParts hE hwhole d)
    (rejects_tableParts_of_stops d) fun hm => ?_
  obtain ⟨mid, hwords, -⟩ := run_seq_eq_matched_iff.1 hm
  exact rejects_tableParts_of_exists hwords

/-- **Layout**: texts that differ in their layout are matched alike, with the same table. -/
theorem tableSchema_alike (hE : Ending E) (hwhole : ∀ m r r', E m r r' → m = Mode.plain)
    (d : Dialect) {c c' : Cursor} (h : Relaid E .plain (trimStart c.rest) (trimStart c'.rest)) :
    Outcome.Alike E Nowhere Eq ((tableSchema d).run c) ((tableSchema d).run c') := by
  have hnone : ∀ v, Stops v → Rejects (pair ifNotExists (tableParts d)) v := fun v hv => by
    have hopens : Opens (seq (keywords ["if", "not", "exists"]) whitespace1) ["if"] :=
      (opens_keywords (by decide) _).seq _
    have hleft := (hopens.rejects_of_stops (by decide) v hv).optional
    exact hleft.rejects_pair (rejects_tableParts_of_stops d v hv)
  have hbehind := (steady_keyword hE (k := "create") (by decide)).pair
    ((steady_tableHead hE).pair_of_rejects (steady_named hE hwhole d) hnone)
  rw [tableSchema, run_map, run_map, createTable, run_map, run_map]
  exact ((alike_behind_blanks hbehind h).map (Q := Eq) fun a b hr => by rw [hr.2.2]).map
    fun a b hr => by rw [hr]

/-- A text that differs from a statement in its layout is matched with the same table. -/
theorem tableSchema_of_relaid (hE : Ending E) (hwhole : ∀ m r r', E m r r' → m = Mode.plain)
    {d : Dialect} {c c' next : Cursor} {t : Table}
    (h : Relaid E .plain (trimStart c.rest) (trimStart c'.rest))
    (hm : (tableSchema d).run c = .matched next t) :
    ∃ next', (tableSchema d).run c' = .matched next' t ∧ Relaid E .plain next.rest next'.rest := by
  have halike := tableSchema_alike hE hwhole d h
  rw [hm] at halike
  obtain ⟨next', t', hm', hrest, rfl⟩ := halike.exists_matched
  exact ⟨next', hm', hrest⟩

end Sql

/-! ## Whole texts -/

namespace Statement

/-- A text stops where a statement ends. -/
theorem Ends.stops {r : List Char} (h : Ends r) : Stops (trimStart r) := by
  rcases ends_iff_trimStart.1 h with h | ⟨b, -, h⟩
  · rw [h]
    intro c hc
    simp at hc
  · rw [h]
    intro c hc
    exact (Option.some.inj hc).symm

/-- Blanks in front of what ends a statement belong to it. -/
theorem Ends.trimStart {r : List Char} (h : Ends r) : Ends (trimStart r) := by
  rw [ends_iff_trimStart] at h ⊢
  rwa [trimStart_eq_self (headNot_trimStart r)]

/-- The first text ends as a statement does, and the second one ends at once. -/
def Drops : Mode → List Char → List Char → Prop :=
  fun m r r' => m = .plain ∧ Ends r ∧ r' = []

/-- What ends a statement may be dropped from one side. -/
theorem ending_drops : Ending Drops where
  stops := fun r r' ⟨_, hr, hr'⟩ => ⟨hr.stops, by
    subst hr'
    exact fun c hc => absurd hc (by simp [Text.trimStart])⟩
  trimStart := fun ⟨hm, hr, hr'⟩ => ⟨hm, hr.trimStart, by subst hr'; rfl⟩
  blank := fun ⟨_, _, hr'⟩ _ => by subst hr'; exact headNot_nil _

/-- What differs from an empty text in layout only is empty. -/
theorem eq_nil_of_relaid {v : List Char} (h : Relaid Drops .plain [] v) : v = [] := by
  rcases h.plain_cases with ⟨-, -, h⟩ | ⟨c, u, u', h, -, -⟩ | ⟨y, y', u, u', h, -, -, -⟩
  · exact h
  · simp at h
  · simp at h

/-- Where the first text ends, the second one does. -/
theorem ends_of_relaid {r r' : List Char} (h : Relaid Drops .plain r r') (hr : Ends r) :
    Ends r' := by
  rw [ends_iff_trimStart]
  have htrim := h.trimStart ending_drops
  rcases ends_iff_trimStart.1 hr with hnil | ⟨b, hb, hsemi⟩
  · rw [hnil] at htrim
    exact .inl (eq_nil_of_relaid htrim)
  · rw [hsemi] at htrim
    rcases htrim.plain_cases with ⟨-, -, h⟩ | ⟨c, u, u', hu, hu', hrest⟩ |
      ⟨y, y', u, u', hu, -, hy, -⟩
    · exact .inl h
    · obtain ⟨rfl, rfl⟩ := List.cons.inj hu
      rw [Mode.stepString_plain (by decide)] at hrest
      have hblank := hrest.trimStart ending_drops
      rw [trimStart_eq_nil_iff.2 hb] at hblank
      exact .inr ⟨u', trimStart_eq_nil_iff.1 (eq_nil_of_relaid hblank), hu'⟩
    · obtain ⟨rfl, -⟩ := List.cons.inj hu
      exact absurd hy (by decide)

/-- **Layout**: a text that differs from a statement only in its layout, and perhaps lacks what ends
the statement, has the same table. -/
theorem read_of_relaid {d : Dialect} {text text' : List Char} {t : Table}
    (h : Relaid Drops .plain (Text.trimStart text) (Text.trimStart text'))
    (hread : (read d text).result = .ok t) : (read d text').result = .ok t := by
  obtain ⟨next, hm, hends⟩ := result_read_eq_ok_iff.1 hread
  have hstart : Relaid Drops .plain (Text.trimStart (Cursor.start text).rest)
      (Text.trimStart (Cursor.start text').rest) := h
  obtain ⟨next', hm', hrest⟩ :=
    Sql.tableSchema_of_relaid ending_drops (fun _ _ _ hE => hE.1) hstart hm
  exact result_read_eq_ok_iff.2 ⟨next', hm', ends_of_relaid hrest hends⟩

end Statement

end TableDdl
