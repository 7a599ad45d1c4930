import TableDdl.Proofs.Script.Probes

/-!
# Which comments do no harm

A block comment in front of a statement is harmless (`Harmless`) if what cleaning leaves of it
vanishes, on whichever line the statement begins.  Behind a harmless comment each statement has the
table it has alone (`Harmless.result_read`), and no other comment is like this (`harmless_iff`).
-/

namespace TableDdl.Script

open Text Mode

variable {d : Dialect} {s : List Char} {t : Table}

/-- The comment `/* c */` does no harm to the statement that it stands in front of. -/
structure Harmless (c : List Char) : Prop where
  /-- The line on which the statement may begin is no comment. -/
  shown : opensLineComment (lastLine (blockComment c)) = false
  /-- Where the last line of the comment is kept, the lines that are kept vanish. -/
  kept : Vanishes (keptFront (blockComment c) ++ lastLine (blockComment c))
  /-- Where the last line of the comment may be dropped, those before it vanish. -/
  dropped : isKeptLine (lastLine (blockComment c)) = false → Vanishes (keptFront (blockComment c))

instance : DecidablePred Harmless := fun c =>
  decidable_of_iff
    (opensLineComment (lastLine (blockComment c)) = false ∧
      Vanishes (keptFront (blockComment c) ++ lastLine (blockComment c)) ∧
      (isKeptLine (lastLine (blockComment c)) = false → Vanishes (keptFront (blockComment c))))
    ⟨fun h => ⟨h.1, h.2.1, h.2.2⟩, fun h => ⟨h.1, h.2, h.3⟩⟩

/-! ## Statements behind a harmless comment -/

/-- A script that begins with a comment begins with no byte order mark. -/
theorem clean_blockComment_append (c s : List Char) :
    clean (blockComment c ++ s) = cleanLines (blockComment c ++ s) := by
  have hmark : (blockComment c ++ s).head? ≠ some byteOrderMark := by
    have hslash : '/' ≠ byteOrderMark := by decide
    simpa [blockComment] using hslash
  rw [clean_eq, dropByteOrderMark_eq_self hmark]

theorem breaksOutside_of_readTables (h : (Statement.read d s).result = .ok t)
    (hts : (readTables d (statements (cleanLines s))).result = .ok [t]) : BreaksOutside s := by
  have hall : List.Forall₂ (fun s t => (Statement.read d s).result = .ok t) [s] [t] :=
    .cons h .nil
  rw [← joined_singleton s] at hts
  exact ((result_readTables_joined hall).1 hts).1

/-- **Harmless comments**: a statement that has a table, alone and as a script, has it behind a
harmless comment, on the same line or below. -/
theorem Harmless.result_read {c : List Char} (hc : Harmless c) {name : String}
    (h : (Statement.read d s).result = .ok t) (hs : (read d name s).result = .ok ⟨name, [t]⟩) :
    (read d name (blockComment c ++ s)).result = .ok ⟨name, [t]⟩ := by
  have hts := (result_read_iff_cleanLines h).1 hs
  have hbreaks := breaksOutside_of_readTables h hts
  rw [result_read_mk_iff, clean_blockComment_append]
  have hne : s ≠ [] := by
    rintro rfl
    exact trimStart_ne_nil_of_read h rfl
  obtain ⟨l, tail, rest, hfirst⟩ := exists_firstLine hne
  by_cases hl : trimStart l = []
  · have hblank := trimStart_eq_nil_iff.1 hl
    have hsome : cleanLines s ≠ [] := by
      intro hnil
      rw [hnil] at hts
      exact absurd (Except.ok.inj hts) (by simp)
    rw [cleanLines_blockComment_of_blank hsome hfirst hblank]
    split
    · have hbreak : ∀ x ∈ l ++ ['\n'], isBlank x = true :=
        List.forall_mem_append.2 ⟨hblank, List.forall_mem_singleton.2 (by decide)⟩
      have hskip := statements_blanks_append hbreak (cleanLines s)
      rw [List.append_assoc, List.singleton_append] at hskip
      rw [hc.kept.result_readTables, hskip, hts]
    · next hkept => rw [(hc.dropped (Bool.of_not_eq_true hkept)).result_readTables, hts]
  · rw [cleanLines_blockComment h hbreaks hfirst hl hc.shown, hc.kept.result_readTables, hts]

/-! ## Comments that do no harm to any statement -/

/-- A comment whose last line begins like another comment hides a statement that begins there. -/
theorem cleanLines_blockComment_of_opens {c l tail : List Char}
    (hfirst : FirstLine s l tail []) (hl : isAllBlank l = false)
    (hopen : opensLineComment (lastLine (blockComment c)) = true) :
    cleanLines (blockComment c ++ s) =
      joinLines ((lines (blockComment c)).dropLast.filter isKeptLine) := by
  obtain ⟨ls, z, -, hlast, hlines, happ⟩ := exists_lines_blockComment c
  rw [lastLine, hlines, List.getLastD_concat] at hopen
  rw [cleanLines, keptLines, happ, hfirst.lines _ hlast, hlines, List.dropLast_concat,
    List.filter_append, List.filter_cons, isKeptLine_closing_append_of_opens hl hopen,
    if_neg Bool.false_ne_true, List.filter_nil, List.append_nil]

/-- A comment that hides one probe hides the other. -/
theorem opensLineComment_of_probes {c : List Char} (h : ∀ name, IsProbe name →
      (readTables d (statements (cleanLines (blockComment c ++ probe name '\'')))).result =
        .ok [probeTable name '\'']) :
    opensLineComment (lastLine (blockComment c)) = false := by
  by_contra hopen
  have hhidden (name : Char) (hname : IsProbe name) :=
    cleanLines_blockComment_of_opens (oneLine_probe (q := '\'') hname rfl).firstLine
      (oneLine_probe hname rfl).isAllBlank (Bool.of_not_eq_false hopen)
  have ht := h 't' isProbe_t
  have hu := h 'u' isProbe_u
  rw [hhidden 't' isProbe_t] at ht
  rw [hhidden 'u' isProbe_u] at hu
  exact probeTable_ne _ _ (List.cons.inj (Except.ok.inj (ht.symm.trans hu))).1

/-- **Which comments do no harm**: behind a comment, each statement that has a table, alone and as a
script, has the same table, just if the comment is harmless. -/
theorem harmless_iff (c : List Char) :
    Harmless c ↔ ∀ (d : Dialect) (name : String) (s : List Char) (t : Table),
      (Statement.read d s).result = .ok t → (read d name s).result = .ok ⟨name, [t]⟩ →
        (read d name (blockComment c ++ s)).result = .ok ⟨name, [t]⟩ := by
  refine ⟨fun hc d name s t h hs => hc.result_read h hs, fun h => ?_⟩
  have htables {s : List Char} {t : Table} (hs : (Statement.read {} s).result = .ok t)
      (hread : (read {} "" s).result = .ok ⟨"", [t]⟩) :
      (readTables {} (statements (cleanLines (blockComment c ++ s)))).result = .ok [t] := by
    rw [← clean_blockComment_append]
    exact result_read_mk_iff.1 (h {} "" s t hs hread)
  have hshown : opensLineComment (lastLine (blockComment c)) = false :=
    opensLineComment_of_probes fun name hname =>
      htables (oneLine_probe hname rfl).table (oneLine_probe hname rfl).read
  refine ⟨hshown, vanishes_of_probes (d := {}) fun name q hname hq => ?_,
    fun hkept => vanishes_of_probes (d := {}) fun name q hname hq => ?_⟩
  · have hline := oneLine_probe hname hq
    have hbreaks := breaksOutside_of_readTables hline.table
      (by rw [hline.cleanLines, hline.readTables])
    have hts := htables hline.table hline.read
    rwa [cleanLines_blockComment hline.table hbreaks hline.firstLine
      (trimStart_ne_nil_of_read hline.table) hshown, hline.cleanLines] at hts
  · -- below a last line that is dropped, only the lines before it are left
    have hline := oneLine_probe hname hq
    have hne : cleanLines ('\n' :: probe name q) ≠ [] := by
      rw [hline.cleanLines_newline]
      exact hline.ne_nil
    have hts := htables hline.table_newline hline.read_newline
    rwa [cleanLines_blockComment_of_blank hne hline.firstLine_newline (by simp),
      if_neg (by rw [hkept]; simp), hline.cleanLines_newline] at hts

/-- A semicolon in a comment cuts the comment apart, so not each comment is harmless. -/
theorem not_forall_read_blockComment :
    ¬∀ (d : Dialect) (name : String) (c s : List Char) (t : Table), ¬['*', '/'] <:+: c →
      (Statement.read d s).result = .ok t → (read d name s).result = .ok ⟨name, [t]⟩ →
        (read d name (blockComment c ++ s)).result = .ok ⟨name, [t]⟩ := by
  intro h
  have hread := h {} "" [';']
    "CREATE TABLE t (a INT) ENGINE=e CHARSET=c COLLATE=l COMMENT='x'".toList
    ⟨"t", [⟨"a", ⟨.int, 0⟩, ""⟩], ⟨"e", "c", "l", "x"⟩⟩ (by decide) (by decide +kernel)
    (by decide +kernel)
  revert hread
  decide +kernel

end TableDdl.Script
