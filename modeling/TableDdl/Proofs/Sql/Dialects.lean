import TableDdl.Proofs.Grammar.Rounds
import TableDdl.Proofs.Sql.Words
import TableDdl.Proofs.Statement
import TableDdl.Script.Basic

/-!
# Dialects only add statements

Both switches of a dialect are conservative: what is read without one of them is read the same with
it.

* Relaxed options are read by another loop than strict ones.  On a text that the strict grammar
  accepts the loop makes four rounds, one for each strict option, and each round finds its option
  because the options tried before it open with other words, or, where both open with `DEFAULT`,
  go on with other words (`relaxedOptions_of_strict`).
* Extended types come last among the types, so they are tried only where no other type matches;
  the lines of a body end where they ended before, since a closing parenthesis begins no line
  (`tableParts_of_below`).
-/

namespace TableDdl.Sql

open Grammar Text

variable {c mid next : Cursor}

/-! ## Relaxed options -/

/-- Blanks that must be there are blanks that may be there. -/
theorem run_whitespace0_of_whitespace1 {w : String} (h : whitespace1.run c = .matched next w) :
    whitespace0.run c = .matched next w := by
  obtain ⟨a, ha, rfl⟩ := run_map_eq_matched_iff.1 h
  obtain ⟨b, hb, hne⟩ := run_refine_eq_matched_iff.1 ha
  exact run_map_eq_matched_iff.2 ⟨b, hb, by rw [(nonempty?_eq_some hne).1]⟩

/-- One round of the loop: blanks, and an option behind them. -/
theorem run_many_optionSetting {w : String} {s : OptionSetting} {ss : List OptionSetting}
    {e : Cursor} (hw : whitespace0.run c = .matched mid w)
    (hs : optionSetting.run mid = .matched next s)
    (hm : (many (preceded whitespace0 optionSetting)).run next = .matched e ss) :
    (many (preceded whitespace0 optionSetting)).run c = .matched e (s :: ss) := by
  refine run_many_of_matched (run_preceded_eq_matched_iff.2 ⟨mid, w, hw, hs⟩) ?_ hm
  exact Nat.lt_of_le_of_lt (pos_le_of_run hw) (moves_optionSetting mid next s hs)

/-- The engine is the first option that is tried. -/
theorem run_optionSetting_of_engine {v : String} (h : engineOption.run c = .matched next v) :
    optionSetting.run c = .matched next (.engine v) := by
  have hv := run_map_of_matched h OptionSetting.engine
  exact run_alternatives hv [] _ (by simp)

/-- Only the engine is tried before the character set. -/
theorem run_optionSetting_of_charset {v : String} (h : charsetOption.run c = .matched next v) :
    optionSetting.run c = .matched next (.charset v) := by
  have hv := run_map_of_matched h OptionSetting.charset
  refine run_alternatives hv [map OptionSetting.engine engineOption] _ ?_
  intro k hk
  obtain rfl := List.mem_singleton.1 hk
  exact opens_charsetOption.rejects_of_matched (opens_engineOption.map _) h (by decide) c rfl

/-- Where a collation is given, no character set is: behind `DEFAULT`, if it is there, the words
differ. -/
theorem run_charsetOption_of_collate {v : String} (h : collateOption.run c = .matched next v) :
    ∃ place, charsetOption.run c = .mismatch place := by
  obtain ⟨m, k, hname, -⟩ := run_preceded_eq_matched_iff.1 h
  obtain ⟨m', p, hleft, hkey⟩ := run_preceded_eq_matched_iff.1 hname
  have hcollate : Opens (keyword "collate") ["collate"] := opens_keyword (by decide)
  obtain ⟨place, hwords⟩ :=
    hcollate.rejects_of_matched opens_charsetWords hkey (by decide) m' rfl
  exact ⟨c, run_preceded_of_mismatch_left (run_preceded_of_mismatch_right hleft hwords) _⟩

/-- The collation may begin with `DEFAULT` like the character set, which is tried before it. -/
theorem run_optionSetting_of_collate {v : String} (h : collateOption.run c = .matched next v) :
    optionSetting.run c = .matched next (.collate v) := by
  have hv := run_map_of_matched h OptionSetting.collate
  refine run_alternatives hv
    [map OptionSetting.engine engineOption, map OptionSetting.charset charsetOption] _ ?_
  intro k hk
  rcases List.mem_cons.1 hk with rfl | hk
  · exact opens_collateOption.rejects_of_matched (opens_engineOption.map _) h (by decide) c rfl
  · obtain rfl := List.mem_singleton.1 hk
    obtain ⟨place, hp⟩ := run_charsetOption_of_collate h
    exact ⟨place, by rw [run_map, hp, Outcome.map]⟩

/-- A comment is told from what is tried before it by its word. -/
theorem run_optionSetting_of_comment {v : String} (h : commentOption.run c = .matched next v) :
    optionSetting.run c = .matched next (.comment v) := by
  have hv := run_map_of_matched h OptionSetting.comment
  refine run_alternatives hv
    [map OptionSetting.engine engineOption, map OptionSetting.charset charsetOption,
      map OptionSetting.collate collateOption] _ ?_
  intro k hk
  rcases List.mem_cons.1 hk with rfl | hk
  · exact opens_commentOption.rejects_of_matched (opens_engineOption.map _) h (by decide) c rfl
  rcases List.mem_cons.1 hk with rfl | hk
  · exact opens_commentOption.rejects_of_matched (opens_charsetOption.map _) h (by decide) c rfl
  · obtain rfl := List.mem_singleton.1 hk
    exact opens_commentOption.rejects_of_matched (opens_collateOption.map _) h (by decide) c rfl

theorem run_optionSetting_of_autoIncrement {n : Nat}
    (h : autoIncrementOption.run c = .matched next n) :
    optionSetting.run c = .matched next .dropped := by
  have hv := run_map_of_matched h fun _ => OptionSetting.dropped
  refine run_alternatives hv
    [map OptionSetting.engine engineOption, map OptionSetting.charset charsetOption,
      map OptionSetting.collate collateOption, map OptionSetting.comment commentOption] _ ?_
  simp only [List.forall_mem_cons, List.not_mem_nil, false_imp_iff, implies_true, and_true]
  have hopens := opens_autoIncrementOption
  exact ⟨hopens.rejects_of_matched (opens_engineOption.map _) h (by decide) c rfl,
    hopens.rejects_of_matched (opens_charsetOption.map _) h (by decide) c rfl,
    hopens.rejects_of_matched (opens_collateOption.map _) h (by decide) c rfl,
    hopens.rejects_of_matched (opens_commentOption.map _) h (by decide) c rfl⟩

theorem run_optionSetting_of_rowFormat {v : String} (h : rowFormatOption.run c = .matched next v) :
    optionSetting.run c = .matched next .dropped := by
  have hv := run_map_of_matched h fun _ => OptionSetting.dropped
  refine run_alternatives hv
    [map OptionSetting.engine engineOption, map OptionSetting.charset charsetOption,
      map OptionSetting.collate collateOption, map OptionSetting.comment commentOption,
      map (fun _ => OptionSetting.dropped) autoIncrementOption] _ ?_
  simp only [List.forall_mem_cons, List.not_mem_nil, false_imp_iff, implies_true, and_true]
  have hopens := opens_rowFormatOption
  exact ⟨hopens.rejects_of_matched (opens_engineOption.map _) h (by decide) c rfl,
    hopens.rejects_of_matched (opens_charsetOption.map _) h (by decide) c rfl,
    hopens.rejects_of_matched (opens_collateOption.map _) h (by decide) c rfl,
    hopens.rejects_of_matched (opens_commentOption.map _) h (by decide) c rfl,
    hopens.rejects_of_matched (opens_autoIncrementOption.map _) h (by decide) c rfl⟩

/-- **Relaxed options**: where the strict options end a statement, the relaxed ones are the
same. -/
theorem relaxedOptions_of_strict {o : TableOptions} (h : strictOptions.run c = .matched next o)
    (hend : Statement.Ends next.rest) : relaxedOptions.run c = .matched next o := by
  obtain ⟨⟨e, s, l, m⟩, hm, rfl⟩ := run_map_eq_matched_iff.1 h
  obtain ⟨c1, h1, hm⟩ := run_seq_eq_matched_iff.1 hm
  obtain ⟨c2, h2, hm⟩ := run_seq_eq_matched_iff.1 hm
  obtain ⟨c3, h3, h4⟩ := run_seq_eq_matched_iff.1 hm
  obtain ⟨b1, w1, hw1, h1⟩ := run_preceded_eq_matched_iff.1 h1
  obtain ⟨b2, w2, hw2, h2⟩ := run_preceded_eq_matched_iff.1 h2
  obtain ⟨b3, w3, hw3, h3⟩ := run_preceded_eq_matched_iff.1 h3
  obtain ⟨b4, w4, hw4, h4⟩ := run_preceded_eq_matched_iff.1 h4
  have hlast : (many (preceded whitespace0 optionSetting)).run next = .matched next [] :=
    run_many_of_rejects (opens_optionSetting.behind_whitespace0 _
      (hend.firstWord_not_mem (by decide)))
  have hround4 := run_many_optionSetting (run_whitespace0_of_whitespace1 hw4)
    (run_optionSetting_of_comment h4) hlast
  have hround3 := run_many_optionSetting (run_whitespace0_of_whitespace1 hw3)
    (run_optionSetting_of_collate h3) hround4
  have hround2 := run_many_optionSetting (run_whitespace0_of_whitespace1 hw2)
    (run_optionSetting_of_charset h2) hround3
  have hround1 := run_many_optionSetting hw1 (run_optionSetting_of_engine h1) hround2
  exact run_map_eq_matched_iff.2 ⟨_, hround1, rfl⟩

/-! ## Extended types -/

/-- More types are tried behind those that are always there. -/
theorem extends_dataType {e e' : Bool} (he : e = true → e' = true) :
    Extends (dataType e) (dataType e') := by
  cases e with
  | false => exact extends_alternatives_append (dataTypes false) (if e' then [textType] else [])
  | true =>
      obtain rfl := he rfl
      exact Extends.refl _

/-- More types make more column lines, which are tried behind the index lines as before. -/
theorem extends_bodyLine {e e' : Bool} (he : e = true → e' = true) :
    Extends (bodyLine e) (bodyLine e') := by
  have htype := (Extends.refl whitespace1).preceded (extends_dataType he)
  have hclauses := htype.seq (Extends.refl (preceded defaultClause (optional commentClause)))
  have hnamed := (Extends.refl (preceded whitespace0 identifier)).seq hclauses
  have hended := hnamed.followedBy (Extends.refl (seq whitespace0 (seq lineEnd whitespace0)))
  have hcolumn : Extends (columnLine e) (columnLine e') := hended.map _
  exact (hcolumn.map BodyLine.column).orElse_right _

end TableDdl.Sql

namespace TableDdl

/-- The dialect `d'` has switched on whatever `d` has switched on. -/
def Dialect.Below (d d' : Dialect) : Prop :=
  (d.relaxedOptions = true → d'.relaxedOptions = true) ∧
    (d.extendedTypes = true → d'.extendedTypes = true)

namespace Sql

open Grammar

variable {c next : Cursor} {d d' : Dialect}

/-- What one dialect reads as options, each dialect above it reads as the same options, where the
statement ends behind them. -/
theorem tableOptions_of_below (hd : d.Below d') {o : TableOptions}
    (h : (tableOptions d.relaxedOptions).run c = .matched next o)
    (hend : Statement.Ends next.rest) :
    (tableOptions d'.relaxedOptions).run c = .matched next o := by
  cases hr : d.relaxedOptions with
  | true => rwa [hd.1 hr, ← hr]
  | false =>
      rw [hr] at h
      cases d'.relaxedOptions with
      | true => exact relaxedOptions_of_strict h hend
      | false => exact h

/-- Where the options end a statement, a dialect reads the table as every dialect below it. -/
theorem tableParts_of_below (hd : d.Below d') {parts : String × List BodyLine × TableOptions}
    (h : (tableParts d).run c = .matched next parts) (hend : Statement.Ends next.rest) :
    (tableParts d').run c = .matched next parts := by
  obtain ⟨c1, hname, hrest⟩ := run_pair_eq_matched_iff.1 h
  obtain ⟨c2, opening, hopen, hlines⟩ := run_map_snd_pair_eq_matched_iff.1 hrest
  obtain ⟨c3, hbody, htail⟩ := run_pair_eq_matched_iff.1 hlines
  obtain ⟨c4, closing, hclose, hoptions⟩ := run_map_snd_pair_eq_matched_iff.1 htail
  have hbody' : (many1 (bodyLine d'.extendedTypes)).run c2 = .matched c3 parts.2.1 := by
    obtain ⟨lines, hlines, hne⟩ := run_refine_eq_matched_iff.1 hbody
    refine run_refine_eq_matched_iff.2 ⟨lines, ?_, hne⟩
    exact run_many_mono (extends_bodyLine hd.2) hlines (rejects_bodyLine_of_close hclose)
  have hoptions' := tableOptions_of_below hd hoptions hend
  have htail' := run_map_snd_pair_eq_matched_iff.2 ⟨c4, closing, hclose, hoptions'⟩
  have hlines' := run_pair_eq_matched_iff.2 ⟨c3, hbody', htail'⟩
  have hrest' := run_map_snd_pair_eq_matched_iff.2 ⟨c2, opening, hopen, hlines'⟩
  exact run_pair_eq_matched_iff.2 ⟨c1, hname, hrest'⟩

/-- Only the last part of a statement depends on the dialect. -/
theorem tableSchema_of_below (hd : d.Below d') {t : Table}
    (h : (tableSchema d).run c = .matched next t) (hend : Statement.Ends next.rest) :
    (tableSchema d').run c = .matched next t := by
  obtain ⟨s, hs, rfl⟩ := run_map_eq_matched_iff.1 h
  obtain ⟨parts, hparts, rfl⟩ := run_map_eq_matched_iff.1 hs
  obtain ⟨c1, hblanks, h1⟩ := run_pair_eq_matched_iff.1 hparts
  obtain ⟨c2, hcreate, h2⟩ := run_pair_eq_matched_iff.1 h1
  obtain ⟨c3, hhead, h3⟩ := run_pair_eq_matched_iff.1 h2
  obtain ⟨c4, hif, h4⟩ := run_pair_eq_matched_iff.1 h3
  have h3' := run_pair_eq_matched_iff.2 ⟨c4, hif, tableParts_of_below hd h4 hend⟩
  have h2' := run_pair_eq_matched_iff.2 ⟨c3, hhead, h3'⟩
  have h1' := run_pair_eq_matched_iff.2 ⟨c2, hcreate, h2'⟩
  have hparts' := run_pair_eq_matched_iff.2 ⟨c1, hblanks, h1'⟩
  exact run_map_of_matched (run_map_of_matched hparts' _) CreateTable.table

end Sql

/-! ## Statements and scripts -/

variable {d d' : Dialect}

/-- **Dialects only add statements**: a dialect reads what every dialect below it reads. -/
theorem Statement.read_of_below (hd : d.Below d') {text : List Char} {t : Table}
    (h : (Statement.read d text).result = .ok t) : Statement.read d' text = pure t := by
  obtain ⟨next, hm, hend⟩ := Statement.result_read_eq_ok_iff.1 h
  have hm' := Sql.tableSchema_of_below hd hm hend
  exact Statement.read_eq_pure (Statement.result_read_eq_ok_iff.2 ⟨next, hm', hend⟩)

/-- The statements of a script are read one by one, so each may be read by the other dialect. -/
theorem Script.readTables_of_below (hd : d.Below d') {pieces : List (List Char)} {ts : List Table}
    (h : (Script.readTables d pieces).result = .ok ts) :
    Script.readTables d' pieces = Script.readTables d pieces := by
  induction pieces generalizing ts with
  | nil => rfl
  | cons piece rest ih =>
      rw [Script.readTables, Script.readTables] at *
      split
      · next hcreate =>
        rw [if_pos hcreate] at h
        obtain ⟨t, ht, h⟩ := Logged.result_bind_eq_ok_iff.1 h
        obtain ⟨us, hus, -⟩ := Logged.result_bind_eq_ok_iff.1 h
        rw [Statement.read_of_below hd ht, Statement.read_eq_pure ht, ih hus]
      · next hcreate =>
        rw [if_neg hcreate] at h
        obtain ⟨_, -, hus⟩ := Logged.result_bind_eq_ok_iff.1 h
        rw [ih hus]

/-- **Dialects are conservative**: what the dialect without switches reads, be it a statement or a
script, every dialect reads the same, records included. -/
theorem read_conservative (d : Dialect) :
    (∀ (text : List Char) (t : Table), (Statement.read {} text).result = .ok t →
      Statement.read d text = Statement.read {} text) ∧
    (∀ (name : String) (script : List Char) (db : Database),
      (Script.read {} name script).result = .ok db →
        Script.read d name script = Script.read {} name script) := by
  have hd : Dialect.Below {} d := ⟨fun h => absurd h (by simp), fun h => absurd h (by simp)⟩
  constructor
  · intro text t h
    rw [Statement.read_of_below hd h, Statement.read_eq_pure h]
  · intro name script db h
    obtain ⟨ts, hts, -⟩ := Logged.result_bind_eq_ok_iff.1 h
    rw [Script.read, Script.read, Script.readTables_of_below hd hts]

/-- A statement of the strict dialect, which is a script as well. -/
def strictStatement : String :=
  "CREATE TABLE t (a INT) ENGINE=InnoDB DEFAULT CHARSET=utf8 DEFAULT COLLATE utf8_bin COMMENT 'c';"

/-- The table that it creates. -/
def strictTable : Table where
  name := "t"
  columns := [⟨"a", ⟨.int, 0⟩, ""⟩]
  options := ⟨"InnoDB", "utf8", "utf8_bin", "c"⟩

theorem read_conservative_strictStatement :
    Statement.read ⟨true, true⟩ strictStatement.toList =
        Statement.read {} strictStatement.toList ∧
      Script.read ⟨true, true⟩ "t.sql" strictStatement.toList =
        Script.read {} "t.sql" strictStatement.toList := by
  have h := read_conservative ⟨true, true⟩
  refine ⟨h.1 _ strictTable ?_, h.2 _ _ ⟨"t.sql", [strictTable]⟩ ?_⟩
  · decide +kernel
  · decide +kernel

end TableDdl
