import TableDdl.Proofs.Log
import TableDdl.Proofs.Script.Reading

/-!
# Scripts behind one another

Two scripts make one if a line with a semicolon stands between them (`concat`).  As long as the
quotes of the first are closed, each pass over the joined script treats its two halves apart:

* cleaning keeps the lines of both, and the line between them (`keptLines_append_newline`);
* cutting finds the statements of both (`statements_clean_concat`);
* reading takes one list of statements after the other, up to the first error
  (`readTables_append`).

A byte order mark counts only in front of the whole, so the second script must not begin with one.
-/

namespace TableDdl.Script

open Text Mode

variable {d : Dialect} {ts : List Table}

/-- Two scripts with a semicolon on a line of its own between them. -/
def concat (a b : List Char) : List Char := a ++ '\n' :: ';' :: '\n' :: b

/-! ## Lines -/

/-- A line feed keeps the lines before it and the lines behind it apart.  A carriage return that
stands before it makes one break together with it, and the empty line between other breaks is
dropped. -/
theorem keptLines_append_newline (x v : List Char) :
    keptLines (x ++ '\n' :: v) = keptLines x ++ keptLines v := by
  induction x using line_induction with
  | unbroken l hl =>
      have hlines : lines (l ++ '\n' :: v) = l :: lines v :=
        lines_append_of_breaks hl (breaks_newline v)
      rw [keptLines, hlines, List.filter_cons, keptLines_of_unbroken hl, keptLines]
      by_cases hkept : isKeptLine l = true <;> simp [hkept]
  | line l br rest hl hbr ih =>
      have hself : keptLines (l ++ (br ++ rest)) = [l].filter isKeptLine ++ keptLines rest := by
        rw [keptLines, lines_append_of_breaks hl hbr, ← List.singleton_append, List.filter_append,
          keptLines]
      have hall : keptLines (l ++ (br ++ rest) ++ '\n' :: v) =
          [l].filter isKeptLine ++ (keptLines rest ++ keptLines v) := by
        by_cases hpair : br = ['\r'] ∧ rest = []
        · obtain ⟨rfl, rfl⟩ := hpair
          have hlines : lines (l ++ (['\r'] ++ []) ++ '\n' :: v) = l :: lines v := by
            simpa using lines_append_of_breaks hl (.pair v)
          rw [keptLines, hlines, ← List.singleton_append, List.filter_append]
          rfl
        · have hbr' : Breaks br (rest ++ '\n' :: v) :=
            hbr.append fun hb hr => absurd ⟨hb, hr⟩ hpair
          rw [List.append_assoc, List.append_assoc, keptLines, lines_append_of_breaks hl hbr',
            ← List.singleton_append, List.filter_append, ← ih, keptLines]
      rw [hall, hself, List.append_assoc]

/-- The lines of two joined scripts are those of both, with the line of the semicolon between them.
-/
theorem keptLines_concat (a b : List Char) :
    keptLines (concat a b) = keptLines a ++ [';'] :: keptLines b := by
  have hsemi : keptLines (';' :: '\n' :: b) = [';'] :: keptLines b :=
    keptLines_append_newline [';'] b
  rw [concat, keptLines_append_newline, hsemi]

/-- Only in front of the first script does a byte order mark count. -/
theorem dropByteOrderMark_concat (a b : List Char) :
    dropByteOrderMark (concat a b) = concat (dropByteOrderMark a) b := by
  cases a with
  | nil => rfl
  | cons c a =>
      simp only [concat, List.cons_append, dropByteOrderMark]
      split <;> rfl

/-- Only a byte order mark at the very front is dropped. -/
theorem dropByteOrderMark_eq_self {b : List Char} (hb : b.head? ≠ some byteOrderMark) :
    dropByteOrderMark b = b := by
  cases b with
  | nil => rfl
  | cons c b =>
      have hc : c ≠ byteOrderMark := by simpa using hb
      rw [dropByteOrderMark, if_neg hc]

/-! ## Statements -/

/-- Lines behind a line with a semicolon have statements of their own, if the quotes of the lines
before it are closed. -/
theorem statements_joinLines {ls ms : List (List Char)} (hls : plain.scan (joinLines ls) = .plain) :
    statements (joinLines (ls ++ [';'] :: ms)) =
      statements (joinLines ls) ++ statements (joinLines ms) := by
  have hfeed : ∀ c ∈ ['\n'], isBlank c = true := List.forall_mem_singleton.2 (by decide)
  -- what stands behind the semicolon
  obtain ⟨more, hmore, hstatements⟩ : ∃ more, joinLines ([';'] :: ms) = ';' :: more ∧
      statements more = statements (joinLines ms) := by
    refine ⟨_, joinLines_cons [';'] ms, ?_⟩
    split
    · next hnil =>
      rw [hnil]
      rfl
    · exact statements_blanks_append hfeed (joinLines ms)
  by_cases hne : ls = []
  · subst hne
    rw [List.nil_append, hmore, ← hstatements]
    exact statements_append_cut (u := []) rfl more
  · have hplain : plain.scan (joinLines ls ++ ['\n']) = .plain := by
      rw [scan_append, hls, scan_plain_of_isBlank hfeed]
    have hjoin : joinLines (ls ++ [';'] :: ms) = (joinLines ls ++ ['\n']) ++ ';' :: more := by
      rw [joinLines_append hne (List.cons_ne_nil _ _), hmore, List.append_assoc]
      rfl
    rw [hjoin, statements_append_cut hplain, statements_append_blanks hfeed, hstatements]

/-- The statements of two scripts behind one another are those of the one and those of the other. -/
theorem statements_clean_concat {a b : List Char} (ha : plain.scan (clean a) = .plain)
    (hb : b.head? ≠ some byteOrderMark) :
    statements (clean (concat a b)) = statements (clean a) ++ statements (clean b) := by
  rw [clean_eq] at ha
  rw [clean_eq, clean_eq, clean_eq, dropByteOrderMark_concat, dropByteOrderMark_eq_self hb,
    cleanLines, keptLines_concat, statements_joinLines ha, cleanLines, cleanLines]

/-! ## Tables -/

/-- Statements are read one after the other: the first error ends the reading. -/
theorem readTables_append (xs ys : List (List Char)) :
    readTables d (xs ++ ys) = (do
      let ts ← readTables d xs
      let us ← readTables d ys
      return ts ++ us) := by
  induction xs with
  | nil => simp [readTables]
  | cons x xs ih =>
      simp only [List.cons_append, readTables, ih]
      split <;> simp

/-- Statements behind one another have their tables behind one another. -/
theorem result_readTables_append_iff {xs ys : List (List Char)} :
    (readTables d (xs ++ ys)).result = .ok ts ↔
      ∃ us vs, (readTables d xs).result = .ok us ∧ (readTables d ys).result = .ok vs ∧
        ts = us ++ vs := by
  rw [readTables_append, Logged.result_bind_eq_ok_iff]
  constructor
  · rintro ⟨us, hus, h⟩
    obtain ⟨vs, hvs, hts⟩ := Logged.result_bind_eq_ok_iff.1 h
    exact ⟨us, vs, hus, hvs, (Except.ok.inj hts).symm⟩
  · rintro ⟨us, vs, hus, hvs, rfl⟩
    exact ⟨us, hus, Logged.result_bind_eq_ok_iff.2 ⟨vs, hvs, rfl⟩⟩

/-- A script comes to the tables of its statements, or to their error. -/
theorem result_read (name : String) (script : List Char) :
    (read d name script).result =
      (readTables d (statements (clean script))).result.map (Database.mk name) := by
  cases h : (readTables d (statements (clean script))).result with
  | error e => rw [read, Logged.bind_of_error h, Except.map]
  | ok ts =>
      rw [read, Logged.result_bind_of_ok h]
      rfl

/-- The count at the end is the only record of a script beside those of its statements. -/
theorem notices_read (name : String) (script : List Char) :
    (read d name script).notices = (readTables d (statements (clean script))).notices := by
  cases h : (readTables d (statements (clean script))).result with
  | error e => rw [Logged.notices, Logged.notices, read, Logged.bind_of_error h]
  | ok ts =>
      rw [Logged.notices, read, Logged.records_bind_of_ok h, List.filter_append, Logged.notices]
      exact List.append_nil _

/-- **Joining**: two scripts behind one another, the quotes of the first closed, come to the tables
of the one and then those of the other, or to the first error of the two.  They leave the records
of the first, and behind them those of the second unless the first ends in an error. -/
theorem read_concat (d : Dialect) (name : String) {a b : List Char}
    (ha : plain.scan (clean a) = .plain) (hb : b.head? ≠ some byteOrderMark) :
    (read d name (concat a b)).result = (do
        let s ← (read d name a).result
        let t ← (read d name b).result
        return ⟨name, s.tables ++ t.tables⟩) ∧
      (read d name (concat a b)).notices =
        match (read d name a).result with
        | .ok _ => (read d name a).notices ++ (read d name b).notices
        | .error _ => (read d name a).notices := by
  simp only [result_read, notices_read, statements_clean_concat ha hb, readTables_append]
  generalize readTables d (statements (clean a)) = x
  generalize readTables d (statements (clean b)) = y
  cases hx : x.result with
  | error e =>
      rw [Logged.bind_of_error hx]
      exact ⟨rfl, rfl⟩
  | ok ts =>
      cases hy : y.result with
      | error e =>
          rw [Logged.result_bind_of_ok hx, Logged.notices, Logged.records_bind_of_ok hx,
            Logged.bind_of_error hy, List.filter_append]
          exact ⟨rfl, rfl⟩
      | ok us =>
          rw [Logged.result_bind_of_ok hx, Logged.result_bind_of_ok hy, Logged.notices,
            Logged.records_bind_of_ok hx, Logged.records_bind_of_ok hy, List.filter_append,
            List.filter_append]
          exact ⟨rfl, congrArg _ (List.append_nil _)⟩

/-- A script with a semicolon in a string, and a statement that is skipped. -/
def openingScript : List Char :=
  "\uFEFF# tables\nCREATE TABLE t (a INT) ENGINE=e CHARSET=c COLLATE=l COMMENT='x;\\'';\nDROP TABLE u\r".toList

/-- A script whose second statement cannot be read. -/
def failingScript : List Char :=
  "CREATE TABLE v (b INT) ENGINE=e CHARSET=c COLLATE=l COMMENT 'y';CREATE TABLE w".toList

theorem read_concat_failingScript :
    plain.scan (clean openingScript) = .plain ∧ failingScript.head? ≠ some byteOrderMark ∧
      (read {} "" (concat openingScript failingScript)).result = .error (.unparsed "") ∧
      (read {} "" (concat openingScript failingScript)).notices =
        [⟨.warning, "Skipping statement 'DROP TABLE u'"⟩,
          ⟨.debug, "Statement failed near ''"⟩] := by
  have hclosed : plain.scan (clean openingScript) = .plain := by decide +kernel
  have hmark : failingScript.head? ≠ some byteOrderMark := by decide
  obtain ⟨hresult, hnotices⟩ := read_concat {} "" hclosed hmark
  rw [hresult, hnotices]
  decide +kernel

end TableDdl.Script
