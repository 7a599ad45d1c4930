import TableDdl.Proofs.Script.CommentLines
import TableDdl.Proofs.Script.Joining
import TableDdl.Proofs.Sql.Names

/-!
# Probes

Two statements with the longest opening, `CREATE TEMPORARY TABLE IF NOT EXISTS`, alike but for the
names of their tables, tell whether what stands in front of them vanishes (`vanishes_of_probes`):

* if it is cut into statements that are read, these have the same names in front of both;
* if it leaves a quote open, a semicolon in the comment of the table cuts off a piece that ends in a
  star, which no statement does;
* if anything but a comment is left of its last piece, it takes the place of the opening, and the
  name with it.
-/

namespace TableDdl.Script

open Text Mode

variable {d : Dialect} {s x front : List Char} {t : Table} {ts : List Table} {name q : Char}

/-! ## The probes -/

/-- The comment of a probe.  Between quotes that are open already, it closes them, and its semicolon
stands outside of quotes. -/
def probeComment (q : Char) : List Char :=
  if q = '"' then "\"*;\"".toList else if q = '`' then "'`*;'".toList else "'*;'".toList

/-- The longest opening of a statement. -/
def longOpening : List Char := "CREATE TEMPORARY TABLE IF NOT EXISTS ".toList

/-- What stands between the name of a table and its comment. -/
def probeBody : List Char := "(a INT) ENGINE=e CHARSET=c COLLATE=l COMMENT ".toList

/-- A statement up to the comment. -/
def probeFront (name : Char) : List Char := longOpening ++ name :: ' ' :: probeBody

/-- A statement that tells whether what stands in front of it vanishes. -/
def probe (name q : Char) : List Char := probeFront name ++ probeComment q

/-- The names of the probes. -/
def IsProbe (name : Char) : Prop := name = 't' ∨ name = 'u'

theorem isProbe_t : IsProbe 't' := .inl rfl

theorem isProbe_u : IsProbe 'u' := .inr rfl

/-- The table of a probe. -/
def probeTable (name q : Char) : Table :=
  ⟨String.ofList [name], [⟨"a", ⟨.int, 0⟩, ""⟩],
    ⟨"e", "c", "l", String.ofList (probeComment q).tail.dropLast⟩⟩

/-- Tables of different names are different, whichever quotes the probes were written with. -/
theorem probeTable_ne (q q' : Char) : probeTable 't' q ≠ probeTable 'u' q' := by
  intro h
  have hname : String.ofList ['t'] = String.ofList ['u'] := congrArg Table.name h
  exact absurd hname (by decide)

/-! ## Statements on one line -/

/-- A readable statement has no byte order mark in front, so as a script it is only cleaned. -/
theorem result_read_iff_cleanLines {name : String} (h : (Statement.read d s).result = .ok t) :
    (read d name s).result = .ok ⟨name, ts⟩ ↔
      (readTables d (statements (cleanLines s))).result = .ok ts := by
  have hmark := dropByteOrderMark_of_isCreateTable (Sql.isCreateTable_of_read h) []
  rw [List.append_nil] at hmark
  rw [result_read_mk_iff, clean_eq, hmark]

/-- The text is one line, which is kept, and one statement, which has the table `t`. -/
structure OneLine (text : List Char) (t : Table) : Prop where
  unbroken : text.all (fun c => !isLineBreak c) = true
  kept : isKeptLine text = true
  statement : statements text = [text]
  head : text.head? = some 'C'
  table : (Statement.read {} text).result = .ok t

instance (text : List Char) (t : Table) : Decidable (OneLine text t) :=
  decidable_of_iff
    (text.all (fun c => !isLineBreak c) = true ∧ isKeptLine text = true ∧
      statements text = [text] ∧ text.head? = some 'C' ∧ (Statement.read {} text).result = .ok t)
    ⟨fun h => ⟨h.1, h.2.1, h.2.2.1, h.2.2.2.1, h.2.2.2.2⟩, fun h => ⟨h.1, h.2, h.3, h.4, h.5⟩⟩

/-- A probe is a statement on a line of its own. -/
theorem oneLine_probe (hname : IsProbe name) (hq : isOpening q = true) :
    OneLine (probe name q) (probeTable name q) := by
  simp only [isOpening, Bool.or_eq_true, beq_iff_eq] at hq
  rcases hname with rfl | rfl <;> rcases hq with (rfl | rfl) | rfl <;> decide +kernel

namespace OneLine

variable {text : List Char}

theorem ne_nil (h : OneLine text t) : text ≠ [] := by
  rintro rfl
  exact absurd h.head (by simp)

theorem isAllBlank (h : OneLine text t) : isAllBlank text = false := by
  obtain ⟨rest, rfl⟩ := List.head?_eq_some_iff.1 h.head
  rfl

/-- What stands in front of it without a break stands on the same line. -/
theorem lines_append (h : OneLine text t) {last : List Char} (hlast : Unbroken last) :
    lines (last ++ text) = [last ++ text] := by
  have hline : Unbroken text := by simpa [Unbroken] using h.unbroken
  exact lines_of_unbroken (unbroken_append.2 ⟨hlast, hline⟩) (by simp [h.ne_nil])

/-- Cleaning keeps the line. -/
theorem cleanLines (h : OneLine text t) : cleanLines text = text := by
  have hlines : lines text = [text] := h.lines_append unbroken_nil
  rw [Script.cleanLines, keptLines, hlines, List.filter_cons, if_pos h.kept, List.filter_nil,
    joinLines_singleton]

/-- As a script it has one table. -/
theorem readTables (h : OneLine text t) : (readTables {} (statements text)).result = .ok [t] := by
  obtain ⟨rest, rfl⟩ := List.head?_eq_some_iff.1 h.head
  rw [h.statement, result_readTables_read h.table (headNot_cons.2 (by decide))]
  exact ⟨[], rfl, rfl⟩

/-- A probe is one statement, and a script as well. -/
theorem read (h : OneLine text t) : (read {} "" text).result = .ok ⟨"", [t]⟩ := by
  rw [result_read_iff_cleanLines h.table, h.cleanLines, h.readTables]

theorem firstLine (h : OneLine text t) : FirstLine text text [] [] where
  text := by rw [List.append_nil]
  ends := by simp
  lines := fun _ hlast => h.lines_append hlast

/-! ### Behind a line feed -/

theorem firstLine_newline (h : OneLine text t) :
    FirstLine ('\n' :: text) [] ('\n' :: text) [text] where
  text := rfl
  ends := by
    rintro _ ⟨⟩
    decide
  lines := fun last hlast => by
    have hlines : Text.lines text = [text] := h.lines_append unbroken_nil
    have happ := lines_append_of_breaks hlast (breaks_newline text)
    rw [hlines, List.singleton_append] at happ
    rw [List.append_nil, happ]

/-- An empty line in front is dropped. -/
theorem cleanLines_newline (h : OneLine text t) : Script.cleanLines ('\n' :: text) = text := by
  have hline : Script.cleanLines ('\n' :: text) = Script.cleanLines text :=
    cleanLines_line unbroken_nil (breaks_newline text)
  rw [hline, h.cleanLines]

/-- A line feed in front of a statement is a blank. -/
theorem table_newline (h : OneLine text t) : (Statement.read {} ('\n' :: text)).result = .ok t := by
  have hblank : ∀ c ∈ ['\n'], isBlank c = true := List.forall_mem_singleton.2 (by decide)
  exact read_of_trimStart_eq (trimStart_append hblank) h.table

theorem read_newline (h : OneLine text t) :
    (Script.read {} "" ('\n' :: text)).result = .ok ⟨"", [t]⟩ := by
  rw [result_read_iff_cleanLines h.table_newline, h.cleanLines_newline, h.readTables]

end OneLine

/-- Neither quote nor backslash nor semicolon nor slash. -/
def isBland (c : Char) : Bool := !(isOpening c || c == '\\' || c == ';' || c == '/')

theorem all_isBland_probeFront (hname : IsProbe name) : (probeFront name).all isBland = true := by
  rcases hname with rfl | rfl <;> decide +kernel

/-- The front of a probe has only characters that nothing depends on. -/
theorem not_mem_probeFront (hname : IsProbe name) {c : Char} (hc : isBland c = false) :
    c ∉ probeFront name := by
  intro hmem
  rw [List.all_eq_true.1 (all_isBland_probeFront hname) c hmem] at hc
  exact absurd hc.symm Bool.false_ne_true

/-- Behind the beginning of a probe, quotes are open as in front of it. -/
theorem scan_probeFront (hname : IsProbe name) {m : Mode} (hq : isOpening q = true)
    (hm : m = .quoted q ∨ m = .escaped q) : m.scan (probeFront name) = .quoted q := by
  have hstay (u : List Char) (hu : ∀ c ∈ u, isBland c = true) : (quoted q).scan u = .quoted q := by
    refine scan_eq_self fun c hc => ?_
    have hbland := hu c hc
    simp only [isBland, Bool.not_eq_true', Bool.or_eq_false_iff, beq_eq_false_iff_ne] at hbland
    refine step_quoted ?_ hbland.1.1.2
    rintro rfl
    rw [hbland.1.1.1] at hq
    exact Bool.false_ne_true hq
  have hall := List.all_eq_true.1 (all_isBland_probeFront hname)
  obtain ⟨u, hu⟩ : ∃ u, probeFront name = 'C' :: u := ⟨_, rfl⟩
  rcases hm with rfl | rfl
  · exact hstay _ hall
  · rw [hu] at hall ⊢
    exact hstay u (List.forall_mem_cons.1 hall).2

/-- In front of its comment, a probe opens no string. -/
theorem scan_plain_probeFront (hname : IsProbe name) :
    plain.scan (probeFront name) = .plain := by
  rcases hname with rfl | rfl <;> decide +kernel

/-- The comment of a probe closes the quotes that are open in front of it. -/
theorem exists_open_probeComment (hq : isOpening q = true) :
    ∃ v w, probeComment q = v ++ '*' :: ';' :: w ∧ ';' ∉ v ++ ['*'] ∧
      (quoted q).scan (v ++ ['*']) = .plain := by
  simp only [isOpening, Bool.or_eq_true, beq_iff_eq] at hq
  rcases hq with (rfl | rfl) | rfl
  · exact ⟨['\''], ['\''], by decide⟩
  · exact ⟨['"'], ['"'], by decide⟩
  · exact ⟨['\'', '`'], ['\''], by decide⟩

/-- Behind an open quote, a probe is cut behind the star of its comment, and what comes behind the
cut does not depend on its name. -/
theorem exists_open_probe {m : Mode} (hm : m ≠ .plain) (hq : m.HasQuote) :
    ∃ q w, isOpening q = true ∧ ∀ name, IsProbe name →
      ∃ v, probe name q = v ++ '*' :: ';' :: w ∧ Uncut m (v ++ ['*']) ∧
        m.scan (v ++ ['*']) = .plain := by
  have hopen : ∃ q, isOpening q = true ∧ (m = .quoted q ∨ m = .escaped q) := by
    cases m with
    | plain => exact absurd rfl hm
    | quoted q => exact ⟨q, hq, .inl rfl⟩
    | escaped q => exact ⟨q, hq, .inr rfl⟩
  obtain ⟨q, hq, hm⟩ := hopen
  obtain ⟨v, w, hsplit, hsemi, hscan⟩ := exists_open_probeComment hq
  refine ⟨q, w, hq, fun name hname => ⟨probeFront name ++ v, ?_, ?_, ?_⟩⟩
  · rw [probe, hsplit, List.append_assoc]
  · refine uncut_of_not_mem m ?_
    rw [List.append_assoc, List.mem_append, not_or]
    exact ⟨not_mem_probeFront hname (by decide), hsemi⟩
  · rw [List.append_assoc, scan_append, scan_probeFront hname hq hm, hscan]

/-! ## What probes tell -/

/-- No statement ends in a star. -/
theorem result_read_star_ne_ok (u : List Char) :
    (Statement.read d (stripComments (trim (u ++ ['*'])))).result ≠ .ok t := by
  have htrim : trim (u ++ ['*']) = trimStart u ++ ['*'] := by
    rw [trim, trimStart_concat (by decide), trimEnd_concat (by decide)]
  intro h
  rw [htrim] at h
  rcases List.suffix_concat_iff.1 (stripComments_suffix (trimStart u ++ ['*'])) with
    hnil | ⟨v, hv, -⟩
  · rw [hnil] at h
    exact absurd (Sql.isCreateTable_of_read h) (by decide)
  · rw [hv] at h
    have hspelled := Statement.spelled_of_read h
    obtain ⟨q, hq, hm⟩ := exists_quoted_of_star hspelled
    have hclosed := hspelled.scanString
    have hstep : (quoted q).scanString ['*'] = quoted q := by
      refine scanString_quoted (List.forall_mem_singleton.2 ⟨?_, by decide⟩)
      rintro rfl
      exact absurd hq (by decide)
    rw [scanString_append, hm, hstep] at hclosed
    simp at hclosed

/-- In front of a probe's opening, which is the longest there is, no word fits in. -/
theorem filter_isWord_of_headWords {words : List Char} (hopen : '(' ∉ x)
    (hwords : headWords (x ++ probe 't' q) = words ++ ['t']) (hlen : words.length ≤ 31) :
    x.filter isWord = [] := by
  have hfront : '(' ∉ x ++ (longOpening ++ ['t', ' ']) := by
    rw [List.mem_append, not_or]
    exact ⟨hopen, by decide⟩
  have hbody : probeBody = '(' :: probeBody.tail := rfl
  have hprobe : x ++ probe 't' q = x ++ (longOpening ++ ['t', ' ']) ++
      '(' :: (probeBody.tail ++ probeComment q) := by
    rw [probe, probeFront, hbody]
    simp
  rw [hprobe, headWords_append_parenthesis hfront, List.filter_append] at hwords
  have hcount := congrArg List.length hwords
  have hopening : ((longOpening ++ ['t', ' ']).filter isWord).length = 32 := by decide
  rw [List.length_append, List.length_append, hopening, List.length_singleton] at hcount
  exact List.length_eq_zero_iff.1 (by omega)

/-- In front of the probes stands nothing that could be the beginning of a statement. -/
theorem not_read_append_probe (hx : x ≠ []) (hhead : HeadNot isBlank x)
    (h : ∀ name, IsProbe name →
      (Statement.read d (x ++ probe name q)).result = .ok (probeTable name q)) : False := by
  have hwords (name : Char) (hname : IsProbe name) :
      ∃ words, headWords (x ++ probe name q) = words ++ [name] ∧ words.length ≤ 31 := by
    obtain ⟨words, hwords, hlen⟩ := exists_headWords_of_read (h name hname)
    exact ⟨words, by rw [hwords, probeTable, String.toList_ofList], hlen⟩
  obtain ⟨words, hword, hlen⟩ := hwords 't' isProbe_t
  by_cases hopen : '(' ∈ x
  · -- both tables have the name that stands in `x`
    obtain ⟨words', hword', -⟩ := hwords 'u' isProbe_u
    obtain ⟨y, z, rfl, hy⟩ := List.eq_append_cons_of_mem hopen
    rw [List.append_assoc, List.cons_append, headWords_append_parenthesis hy] at hword hword'
    rw [hword] at hword'
    exact absurd (List.append_inj_right' hword' rfl) (by decide)
  · -- `x` has no word, but the statement that begins with it has one at once
    have hnone := filter_isWord_of_headWords hopen hword hlen
    obtain ⟨c, rest, htrim, hc⟩ :=
      Sql.exists_trimStart_of_isCreateTable (Sql.isCreateTable_of_read (h 't' isProbe_t))
    obtain ⟨c', y, rfl⟩ := List.exists_cons_of_ne_nil hx
    rw [List.cons_append, trimStart_eq_self (headNot_cons.2 (headNot_cons.1 hhead))] at htrim
    obtain ⟨rfl, -⟩ := List.cons.inj htrim
    exact absurd hc (List.filter_eq_nil_iff.1 hnone c' List.mem_cons_self)

/-- With a probe behind it, a text is never blank. -/
theorem statementOf_append_probe (hname : IsProbe name) (hq : isOpening q = true) (p : List Char) :
    statementOf (p ++ probe name q) = [trim (p ++ probe name q)] := by
  rw [statementOf, isAllBlank, List.all_append, ← isAllBlank, ← isAllBlank,
    (oneLine_probe hname hq).isAllBlank, Bool.and_false, if_neg Bool.false_ne_true]

/-- Where no quote is open, a probe is not cut. -/
theorem uncut_probe (hname : IsProbe name) : Uncut .plain (probe name '\'') := by
  -- the semicolon in the comment stands behind a quote
  have hcomment : Uncut .plain (probeComment '\'') := by
    refine uncut_cons rfl (uncut_cons rfl ?_)
    exact uncut_cons rfl (uncut_cons rfl (uncut_nil _))
  have hfront := uncut_of_not_mem .plain (not_mem_probeFront hname (c := ';') (by decide))
  refine uncut_append hfront ?_
  rw [scan_plain_probeFront hname]
  exact hcomment

/-- The probes differ in their names, and what is the same in front of both has no tables. -/
theorem readTables_eq_nil_of_probes {xs : List (List Char)} {ys : Char → List (List Char)}
    (h : ∀ name, IsProbe name →
      (readTables d (xs ++ ys name)).result = .ok [probeTable name q]) :
    (readTables d xs).result = .ok [] ∧
      ∀ name, IsProbe name → (readTables d (ys name)).result = .ok [probeTable name q] := by
  obtain ⟨us, vs, hus, hvs, ht⟩ := result_readTables_append_iff.1 (h 't' isProbe_t)
  obtain ⟨us', vs', hus', hvs', hu⟩ := result_readTables_append_iff.1 (h 'u' isProbe_u)
  obtain rfl : us = us' := Except.ok.inj (hus.symm.trans hus')
  have hnil : us = [] := by
    cases us with
    | nil => rfl
    | cons t us =>
        obtain ⟨rfl, -⟩ := List.cons.inj ht
        exact absurd (List.cons.inj hu).1.symm (probeTable_ne q q)
  subst hnil
  refine ⟨hus, ?_⟩
  rintro name (rfl | rfl)
  · rw [hvs, ht, List.nil_append]
  · rw [hvs', hu, List.nil_append]

/-- A piece that ends in a star has no table, so it is skipped if nothing goes wrong. -/
theorem result_readTables_star {u : List Char} {xs ys : List (List Char)}
    (h : (readTables d (xs ++ trim (u ++ ['*']) :: ys)).result = .ok ts) :
    (readTables d (xs ++ ys)).result = .ok ts := by
  obtain ⟨us, vs, hus, hvs, rfl⟩ := result_readTables_append_iff.1 h
  refine result_readTables_append_iff.2 ⟨us, vs, hus, ?_, rfl⟩
  by_cases hcreate : Sql.isCreateTable (stripComments (trim (u ++ ['*']))) = true
  · obtain ⟨t, -, ht, -⟩ := (result_readTables_cons hcreate).1 hvs
    exact absurd ht (result_read_star_ne_ok u)
  · exact (result_readTables_skip (Bool.of_not_eq_true hcreate)).1 hvs

/-- In front of the probes no quote is left open. -/
theorem scan_of_probes (h : ∀ name q, IsProbe name → isOpening q = true →
      (readTables d (statements (front ++ probe name q))).result = .ok [probeTable name q]) :
    plain.scan front = .plain := by
  by_contra hm
  obtain ⟨qs, p, hp, -⟩ := exists_lastPiece front
  obtain ⟨q, w, hq, hprobe⟩ := exists_open_probe hm (HasQuote.scan (m := .plain) trivial front)
  -- the piece that ends in a star is skipped, and no other piece has the name in it
  have hskip (name : Char) (hname : IsProbe name) :
      (readTables d (qs.flatMap statementOf ++ statements w)).result = .ok [probeTable name q] := by
    obtain ⟨v, hsplit, huncut, hscan⟩ := hprobe name hname
    have hcut : front ++ probe name q = front ++ (v ++ ['*']) ++ ';' :: w := by
      rw [hsplit]
      simp
    have hclosed : plain.scan (front ++ (v ++ ['*'])) = .plain := by rw [scan_append, hscan]
    have hstar : statementOf (p ++ (v ++ ['*'])) = [trim (p ++ v ++ ['*'])] := by
      rw [← List.append_assoc, statementOf, if_neg]
      rw [isAllBlank_iff]
      exact fun hall => absurd (hall '*' (by simp)) (by decide)
    have hts := h name q hname hq
    rw [hcut, statements_append_cut hclosed, statements_eq, pieces_append_of_uncut hp huncut,
      List.flatMap_append, List.flatMap_singleton, hstar, List.append_assoc,
      List.singleton_append] at hts
    exact result_readTables_star hts
  have hsame := (hskip 't' isProbe_t).symm.trans (hskip 'u' isProbe_u)
  exact probeTable_ne q q (List.cons.inj (Except.ok.inj hsame)).1

/-- What is left of a text in front of a probe stays, and so does the probe. -/
theorem stripComments_append_probe {p : List Char} (hname : IsProbe name)
    (hne : stripComments p ≠ []) :
    stripComments (trim (p ++ probe name '\'')) = stripComments p ++ probe name '\'' := by
  have hmute : Mute (probe name '\'') := by
    rcases hname with rfl | rfl
    · exact mute_of_not_mem (by decide +kernel) (by decide +kernel)
    · exact mute_of_not_mem (by decide +kernel) (by decide +kernel)
  have hend : trimEnd (probe name '\'') = probe name '\'' := by
    rcases hname with rfl | rfl <;> decide +kernel
  rw [trim_append_of_not_blank (oneLine_probe hname rfl).isAllBlank, hend,
    stripComments_trimStart, hmute.stripComments_eq hne]

/-- **Probes**: a text in front of which the probes have the tables they have alone vanishes. -/
theorem vanishes_of_probes (h : ∀ name q, IsProbe name → isOpening q = true →
      (readTables d (statements (front ++ probe name q))).result = .ok [probeTable name q]) :
    Vanishes front := by
  have hm := scan_of_probes h
  obtain ⟨qs, p, hp, -⟩ := exists_lastPiece front
  have hpieces (name : Char) (hname : IsProbe name) :
      (readTables d (qs.flatMap statementOf ++ [trim (p ++ probe name '\'')])).result =
        .ok [probeTable name '\''] := by
    have huncut : Uncut (plain.scan front) (probe name '\'') := by
      rw [hm]
      exact uncut_probe hname
    have hts := h name '\'' hname rfl
    rwa [statements_eq, pieces_append_of_uncut hp huncut, List.flatMap_append,
      List.flatMap_singleton, statementOf_append_probe hname rfl] at hts
  obtain ⟨hnil, htables⟩ := readTables_eq_nil_of_probes hpieces
  refine (vanishes_iff hp).2 ⟨hm, not_isCreateTable_of_readTables hnil, ?_⟩
  by_contra hne
  refine not_read_append_probe (d := d) (q := '\'') hne (headNot_stripComments p)
    fun name hname => ?_
  rw [← stripComments_append_probe hname hne]
  exact read_of_readTables_singleton (htables name hname)

end TableDdl.Script
