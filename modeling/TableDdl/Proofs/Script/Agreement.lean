import Mathlib.Data.List.Forall2
import TableDdl.Proofs.Script.Single

/-!
# Scripts and statements

Statements that are read one by one are read as a script, with semicolons and line feeds between
them, just if the line breaks of each stand outside of strings, each is cut at most where it ends,
and the quotes of all but the last are closed.  Otherwise the script has no tables.
-/

namespace TableDdl.Script

open Text Mode

variable {d : Dialect} {s B z : List Char} {ss : List (List Char)} {t : Table} {ts us : List Table}

/-! ## A statement in front of others -/

/-- A line of blanks is dropped. -/
theorem isKeptLine_ne_nil {l : List Char} (h : isKeptLine l = true) : trimStart l ≠ [] := by
  intro hnil
  rw [not_isKeptLine_of_isBlank (trimStart_eq_nil_iff.1 hnil)] at h
  exact Bool.false_ne_true h

/-- Of a text that does not begin like a comment, cleaning leaves something. -/
theorem trimStart_cleanLines_ne_nil {text rest : List Char} {c : Char}
    (h : trimStart text = c :: rest) (hc : opensComment c = false) :
    trimStart (cleanLines text) ≠ [] := by
  induction text using line_induction with
  | unbroken l hl =>
      have hkept := isKeptLine_of_trimStart h hc
      rw [cleanLines_of_unbroken hl, if_pos hkept]
      exact isKeptLine_ne_nil hkept
  | line l br tail hl hbr ih =>
      rw [cleanLines_line hl hbr]
      by_cases hkept : isKeptLine l = true
      · have hne := isKeptLine_ne_nil hkept
        rw [if_pos hkept, joinLines_cons, trimStart_append_of_not_blank hne]
        simp [hne]
      · rw [if_neg hkept]
        have hblank : trimStart l = [] := by
          by_contra hne
          rw [trimStart_append_of_not_blank hne] at h
          obtain ⟨x, more, hx⟩ := List.exists_cons_of_ne_nil hne
          rw [hx] at h
          obtain ⟨rfl, -⟩ := List.cons.inj h
          exact hkept (isKeptLine_of_trimStart hx hc)
        have hbreak : ∀ x ∈ br, isBlank x = true := fun x hx =>
          isBlank_of_isLineBreak (hbr.isLineBreak.2 x hx)
        rw [trimStart_append (trimStart_eq_nil_iff.1 hblank), trimStart_append hbreak] at h
        exact ih h

/-- The semicolon and the line feed behind a clear text, and what comes next, stay behind it. -/
theorem exists_cleanLines_append (hs : Clear .plain s) (hB : trimStart (cleanLines B) ≠ []) :
    ∃ b, (∀ c ∈ b, isBlank c = true) ∧
      cleanLines (s ++ ';' :: '\n' :: B) = cleanLines s ++ (b ++ ';' :: '\n' :: cleanLines B) := by
  have hkept : keptLines B ≠ [] := by
    intro hnil
    rw [cleanLines, hnil] at hB
    exact hB rfl
  obtain ⟨-, b, hb, hsemi⟩ := exists_cleanLines_semicolon hs
  refine ⟨b, hb, ?_⟩
  rw [cleanLines_append hs hkept, hsemi]
  simp

/-- Of a statement that is read, cleaning keeps the quotes as they are. -/
theorem scan_cleanLines (hclear : Clear .plain s) (hm : plain.scanString s = .plain) :
    plain.scan (cleanLines s) = .plain ↔ plain.scan s = .plain := by
  obtain ⟨x, r, hs, hr, hx⟩ := exists_relaid_cleanLines hclear hm
  have hq : (plain.scan x).HasQuote := HasQuote.scan (m := .plain) trivial x
  rw [← scan_trimStart, ← hx.scan_eq (M := .plain) trivial, ← scan_trimStart s, hs, scan_append]
  by_cases hne : r = []
  · rw [hne, scan_nil]
  · rw [scan_of_isBlank hq hne hr, afterBlank_eq_plain]

theorem breaksOutside_of_clear (h : Clear .plain s) : BreaksOutside s := by
  intro u c v huv hc
  rw [huv] at h
  exact (clear_append.1 h).2.of_isLineBreak hc

/-- A statement that is read does not consist of blanks. -/
theorem trimStart_ne_nil_of_read (h : (Statement.read d s).result = .ok t) : trimStart s ≠ [] := by
  obtain ⟨c, rest, hc, -⟩ := Sql.exists_trimStart_of_isCreateTable (Sql.isCreateTable_of_read h)
  rw [hc]
  exact List.cons_ne_nil c rest

/-- What is laid out anew still has something other than blanks. -/
theorem Relaid.ne_nil {m : Mode} {x x' r : List Char} (h : Relaid Exactly m x x')
    (hr : ∀ c ∈ r, isBlank c = true) (hx : Text.trimStart (x ++ r) ≠ []) :
    Text.trimStart x' ≠ [] := by
  intro hnil
  have hblank := h.exactly_symm.isBlank_of_isBlank (trimStart_eq_nil_iff.1 hnil)
  exact hx (trimStart_eq_nil_iff.2 (List.forall_mem_append.2 ⟨hblank, hr⟩))

/-! ## Statements that spoil a script -/

/-- What may come behind a statement in a script. -/
def Continues (z : List Char) : Prop :=
  z = [] ∨ ∃ B, z = ';' :: '\n' :: B ∧ trimStart (cleanLines B) ≠ []

/-- Cleaning leaves a clear text in front as it is cleaned alone. -/
theorem exists_cleanLines_continues (hs : Clear .plain s) (hz : Continues z) :
    ∃ more, cleanLines (s ++ z) = cleanLines s ++ more := by
  rcases hz with rfl | ⟨B, rfl, hB⟩
  · exact ⟨[], by rw [List.append_nil, List.append_nil]⟩
  · obtain ⟨b, -, hclean⟩ := exists_cleanLines_append hs hB
    exact ⟨_, hclean⟩

/-- A line break inside of a string spoils the statement, whatever comes behind it. -/
theorem spoils_cleanLines_of_break (h : (Statement.read d s).result = .ok t)
    (hbreaks : ¬BreaksOutside s) (z : List Char) : Spoils (trimStart (cleanLines (s ++ z))) := by
  have hspelled := Statement.spelled_of_read h
  rcases clear_or_exists_break .plain s fun u c v huv hu =>
    not_opensComment_of_spelled (huv ▸ hspelled) hu with hclear | ⟨x, c, y, rfl, hx, hm, hc⟩
  · exact absurd (breaksOutside_of_clear hclear) hbreaks
  · have hne : trimStart x ≠ [] := fun hnil =>
      hm (scanString_plain_of_isBlank (trimStart_eq_nil_iff.1 hnil))
    have hread := read_trimStart h
    rw [trimStart_append_of_not_blank hne] at hread
    obtain ⟨x₁, x', r, r', hx₁, hx', hrel, hopen, rfl, hr'⟩ :=
      (relaid_cleanLines_torn hx hm hc (y ++ z)).split
    rw [List.append_nil] at hx₁
    rw [hx₁] at hread
    rw [List.append_assoc, List.cons_append, hx']
    exact spoils_of_torn (Sql.isCreateTable_of_read hread) (Statement.spelled_of_read hread) hrel
      hopen hr'

/-- A semicolon that cuts the statement too early spoils what is read. -/
theorem spoils_cleanLines_of_cut (h : (Statement.read d s).result = .ok t)
    (hbreaks : BreaksOutside s) (hcuts : ¬CutsAtEnd s) (hz : Continues z) :
    Spoils (trimStart (cleanLines (s ++ z))) := by
  have hspelled := Statement.spelled_of_read h
  have hclear := clear_of_spelled hspelled hbreaks
  obtain ⟨x, r, hs, hr, hx⟩ := exists_relaid_cleanLines hclear hspelled.scanString
  obtain ⟨more, hmore⟩ := exists_cleanLines_continues hclear hz
  have hread := read_trimStart h
  have hne := hx.ne_nil hr (by rw [← hs]; exact trimStart_ne_nil_of_read hread)
  rw [trimStart_eq_self (headNot_trimStart _)] at hne
  rw [hs] at hread
  rw [← cutsAtEnd_trimStart, hs] at hcuts
  rw [hmore, trimStart_append_of_not_blank hne]
  exact spoils_of_cut (Sql.isCreateTable_of_read hread) (Statement.spelled_of_read hread) hx hr
    hcuts more

/-- Quotes that stay open reach into the statement behind. -/
theorem spoils_cleanLines_of_open (h : (Statement.read d s).result = .ok t)
    (hbreaks : BreaksOutside s) (hcuts : CutsAtEnd s) (hopen : plain.scan s ≠ .plain)
    (hB : trimStart (cleanLines B) ≠ []) :
    Spoils (trimStart (cleanLines (s ++ ';' :: '\n' :: B))) := by
  have hspelled := Statement.spelled_of_read h
  have hclear := clear_of_spelled hspelled hbreaks
  obtain ⟨x, r, hs, hr, hx⟩ := exists_relaid_cleanLines hclear hspelled.scanString
  obtain ⟨b, hb, hmore⟩ := exists_cleanLines_append hclear hB
  have hread := read_trimStart h
  have hne := hx.ne_nil hr (by rw [← hs]; exact trimStart_ne_nil_of_read hread)
  rw [trimStart_eq_self (headNot_trimStart _)] at hne
  rw [hs] at hread
  rw [← cutsAtEnd_trimStart, hs] at hcuts
  rw [← scan_trimStart, hs] at hopen
  obtain ⟨c, more, hc⟩ := List.exists_cons_of_ne_nil hB
  have hblank : isBlank c = false := by
    have hhead := headNot_trimStart (cleanLines B)
    rw [hc] at hhead
    exact headNot_cons.1 hhead
  have htake : ∀ y ∈ '\n' :: (cleanLines B).takeWhile isBlank, isBlank y = true :=
    List.forall_mem_cons.2 ⟨by decide, isBlank_of_mem_takeWhile (cleanLines B)⟩
  have hspoils := spoils_of_open (Sql.isCreateTable_of_read hread)
    (Statement.spelled_of_read hread) hx hr hcuts hopen hb htake hblank more
  rwa [List.cons_append, ← hc, takeWhile_append_trimStart,
    ← trimStart_append_of_not_blank hne, ← hmore] at hspoils

/-! ## Scripts -/

/-- No byte order mark stands in front of a statement that creates a table. -/
theorem dropByteOrderMark_of_isCreateTable (h : Sql.isCreateTable s = true) (more : List Char) :
    dropByteOrderMark (s ++ more) = s ++ more := by
  obtain ⟨c, rest, hc, hword⟩ := Sql.exists_trimStart_of_isCreateTable h
  cases s with
  | nil => simp [trimStart] at hc
  | cons x s =>
      have hx : x ≠ byteOrderMark := by
        rintro rfl
        rw [trimStart_eq_self (headNot_cons.2 (by decide))] at hc
        obtain ⟨rfl, -⟩ := List.cons.inj hc
        exact absurd hword (by decide +kernel)
      rw [List.cons_append, dropByteOrderMark, if_neg hx]

/-- What is asked of statements that come one after the other. -/
def InOrder : List (List Char) → Prop
  | [] => True
  | s :: ss => BreaksOutside s ∧ CutsAtEnd s ∧ (ss ≠ [] → plain.scan s = .plain) ∧ InOrder ss

theorem inOrder_iff : InOrder ss ↔
    (∀ s ∈ ss, BreaksOutside s ∧ CutsAtEnd s) ∧ ∀ s ∈ ss.dropLast, plain.scan s = .plain := by
  induction ss with
  | nil => simp [InOrder]
  | cons s ss ih =>
      rw [InOrder, ih, List.forall_mem_cons]
      cases ss with
      | nil => simp
      | cons s' ss =>
          rw [List.dropLast_cons_cons, List.forall_mem_cons]
          rw [List.forall_mem_cons]
          simp only [ne_eq, reduceCtorEq, not_false_eq_true, forall_const]
          tauto

/-- The statements with what stands between them. -/
def joined (ss : List (List Char)) : List Char := List.intercalate [';', '\n'] ss

theorem joined_cons (s : List Char) (hss : ss ≠ []) :
    joined (s :: ss) = s ++ ';' :: '\n' :: joined ss := by
  obtain ⟨s', ss, rfl⟩ := List.exists_cons_of_ne_nil hss
  simp [joined, List.intercalate]

theorem joined_singleton (s : List Char) : joined [s] = s := by
  simp [joined, List.intercalate]

/-- What stands behind the first of the statements. -/
def behind (ss : List (List Char)) : List Char :=
  if ss = [] then [] else ';' :: '\n' :: joined ss

theorem joined_cons_eq (s : List Char) (ss : List (List Char)) :
    joined (s :: ss) = s ++ behind ss := by
  by_cases hss : ss = []
  · rw [hss, joined_singleton, behind, if_pos rfl, List.append_nil]
  · rw [joined_cons s hss, behind, if_neg hss]

theorem behind_eq_nil : behind ss = [] ↔ ss = [] := by
  by_cases hss : ss = [] <;> simp [behind, hss]

/-- Behind a statement comes nothing, or a semicolon and a line feed. -/
theorem continues_behind
    (h : List.Forall₂ (fun s t => (Statement.read d s).result = .ok t) ss ts) :
    Continues (behind ss) := by
  cases h with
  | nil => exact .inl rfl
  | @cons s t ss ts hs _ =>
      refine .inr ⟨joined (s :: ss), by rw [behind, if_neg (List.cons_ne_nil s ss)], ?_⟩
      obtain ⟨c, rest, hc, hword⟩ :=
        Sql.exists_trimStart_of_isCreateTable (Sql.isCreateTable_of_read hs)
      have hne : trimStart s ≠ [] := trimStart_ne_nil_of_read hs
      have htrim : trimStart (joined (s :: ss)) = c :: (rest ++ behind ss) := by
        rw [joined_cons_eq, trimStart_append_of_not_blank hne, hc, List.cons_append]
      exact trimStart_cleanLines_ne_nil htrim
        (not_opensComment_of_admits (by simp [admits, hword]))

/-- A statement that survives is the first one, and those behind it are as they were. -/
theorem statements_cleanLines_append (h : (Statement.read d s).result = .ok t)
    (hbreaks : BreaksOutside s) (hclosed : plain.scan s = .plain)
    (hB : trimStart (cleanLines B) ≠ []) :
    statements (cleanLines (s ++ ';' :: '\n' :: B)) =
      statements (cleanLines s) ++ statements (cleanLines B) := by
  have hspelled := Statement.spelled_of_read h
  have hclear := clear_of_spelled hspelled hbreaks
  obtain ⟨b, hb, hclean⟩ := exists_cleanLines_append hclear hB
  have hm := (scan_cleanLines hclear hspelled.scanString).2 hclosed
  have hcut : plain.scan (cleanLines s ++ b) = .plain := by
    rw [scan_append, hm, scan_plain_of_isBlank hb]
  have hfeed : ∀ c ∈ ['\n'], isBlank c = true := List.forall_mem_singleton.2 (by decide)
  have hnewline := statements_blanks_append hfeed (cleanLines B)
  rw [List.singleton_append] at hnewline
  rw [hclean, ← List.append_assoc, statements_append_cut hcut, statements_append_blanks hb,
    hnewline]

/-- What a statement has to be like to survive in front of others. -/
def Survives (s : List Char) (ss : List (List Char)) : Prop :=
  BreaksOutside s ∧ CutsAtEnd s ∧ (ss ≠ [] → plain.scan s = .plain)

/-- A statement that survives in front of others is the first one of the script. -/
theorem statements_joined_cons (hs : (Statement.read d s).result = .ok t)
    (hz : Continues (behind ss)) (h : Survives s ss) :
    ∃ piece, statements (cleanLines (joined (s :: ss))) =
        piece :: statements (cleanLines (joined ss)) ∧
      HeadNot isBlank piece ∧ (Statement.read d piece).result = .ok t := by
  obtain ⟨hbreaks, hcuts, hclosed⟩ := h
  obtain ⟨piece, hpiece, hhead, hread⟩ := statements_cleanLines hs hbreaks hcuts
  refine ⟨piece, ?_, hhead, hread⟩
  by_cases hss : ss = []
  · rw [hss, joined_singleton, hpiece]
    rfl
  · have hB : trimStart (cleanLines (joined ss)) ≠ [] := by
      rw [behind, if_neg hss] at hz
      rcases hz with hz | ⟨B, hz, hB⟩
      · exact absurd hz (List.cons_ne_nil _ _)
      · obtain rfl : joined ss = B := by simpa using hz
        exact hB
    rw [joined_cons s hss, statements_cleanLines_append hs hbreaks (hclosed hss) hB, hpiece,
      List.singleton_append]

/-- A statement that does not survive spoils the script. -/
theorem spoils_joined_cons (hs : (Statement.read d s).result = .ok t)
    (hz : Continues (behind ss)) (h : ¬Survives s ss) :
    Spoils (trimStart (cleanLines (joined (s :: ss)))) := by
  rw [joined_cons_eq]
  by_cases hbreaks : BreaksOutside s
  · by_cases hcuts : CutsAtEnd s
    · have hopen : ss ≠ [] ∧ plain.scan s ≠ .plain := by
        by_contra hclosed
        exact h ⟨hbreaks, hcuts, fun hss => by_contra fun hm => hclosed ⟨hss, hm⟩⟩
      rcases hz with hz | ⟨B, hz, hB⟩
      · exact absurd (behind_eq_nil.1 hz) hopen.1
      · rw [hz]
        exact spoils_cleanLines_of_open hs hbreaks hcuts hopen.2 hB
    · exact spoils_cleanLines_of_cut hs hbreaks hcuts hz
  · exact spoils_cleanLines_of_break hs hbreaks _

theorem Spoils.readTables_ne_ok {text : List Char} (h : Spoils (Text.trimStart text)) :
    (readTables d (statements text)).result ≠ .ok ts := by
  obtain ⟨piece, pieces', hpieces, hmark, hcreate, hspelled⟩ := h
  rw [← statements_trimStart]
  exact Script.readTables_ne_ok hpieces hmark hcreate hspelled

/-- The tables of statements that are read one by one. -/
theorem result_readTables_joined
    (h : List.Forall₂ (fun s t => (Statement.read d s).result = .ok t) ss ts) :
    (readTables d (statements (cleanLines (joined ss)))).result = .ok ts ↔ InOrder ss := by
  induction h with
  | nil => exact ⟨fun _ => trivial, fun _ => rfl⟩
  | @cons s t ss ts hs hss ih =>
      have hz := continues_behind hss
      by_cases hgood : Survives s ss
      · obtain ⟨piece, hall, hhead, hread⟩ := statements_joined_cons hs hz hgood
        obtain ⟨hbreaks, hcuts, hclosed⟩ := hgood
        rw [hall, result_readTables_read hread hhead, InOrder]
        constructor
        · rintro ⟨us, hus, heq⟩
          obtain ⟨-, rfl⟩ := List.cons.inj heq
          exact ⟨hbreaks, hcuts, hclosed, ih.1 hus⟩
        · rintro ⟨-, -, -, hrest⟩
          exact ⟨ts, ih.2 hrest, rfl⟩
      · have hspoils := spoils_joined_cons hs hz hgood
        refine iff_of_false hspoils.readTables_ne_ok ?_
        rintro ⟨hbreaks, hcuts, hclosed, -⟩
        exact hgood ⟨hbreaks, hcuts, hclosed⟩

/-- Joined statements begin with no byte order mark, so only their lines are cleaned. -/
theorem clean_joined (h : List.Forall₂ (fun s t => (Statement.read d s).result = .ok t) ss ts) :
    clean (joined ss) = cleanLines (joined ss) := by
  cases h with
  | nil => rfl
  | cons hs _ =>
      rw [clean_eq, joined_cons_eq,
        dropByteOrderMark_of_isCreateTable (Sql.isCreateTable_of_read hs)]

/-- **Agreement**: statements that are read one by one are read as a script just if the line breaks
of each stand outside of strings, each is cut at most where it ends, and the quotes of all but the
last are closed. -/
theorem result_read_intercalate {name : String}
    (h : List.Forall₂ (fun s t => (Statement.read d s).result = .ok t) ss ts) :
    (read d name (List.intercalate [';', '\n'] ss)).result = .ok ⟨name, ts⟩ ↔
      (∀ s ∈ ss, BreaksOutside s ∧ CutsAtEnd s) ∧
        ∀ s ∈ ss.dropLast, plain.scan s = .plain := by
  have hclean := clean_joined h
  rw [joined] at hclean
  rw [result_read_eq_ok_iff, hclean, ← joined, ← inOrder_iff, ← result_readTables_joined h]
  constructor
  · rintro ⟨us, hus, heq⟩
    obtain rfl : ts = us := congrArg Database.tables heq
    exact hus
  · exact fun hts => ⟨ts, hts, rfl⟩

/-- Two statements, the first of which has a backtick on both sides of its name. -/
def tickedPair : List (List Char) :=
  ["CREATE TABLE `t` (a INT) ENGINE=e CHARSET=c COLLATE=l COMMENT='x;'".toList,
    "CREATE TABLE u (a INT) ENGINE=e CHARSET=c COLLATE=l COMMENT='y'".toList]

theorem result_read_intercalate_tickedPair :
    (read {} "" (List.intercalate [';', '\n'] tickedPair)).result =
      .ok ⟨"", [⟨"t", [⟨"a", ⟨.int, 0⟩, ""⟩], ⟨"e", "c", "l", "x;"⟩⟩,
        ⟨"u", [⟨"a", ⟨.int, 0⟩, ""⟩], ⟨"e", "c", "l", "y"⟩⟩]⟩ := by
  refine (result_read_intercalate ?_).2 ⟨?_, ?_⟩
  · exact .cons (by decide +kernel) (.cons (by decide +kernel) .nil)
  · decide +kernel
  · decide +kernel

/-- A line separator in a comment is a line break, so a script does not hold what is read alone. -/
theorem not_forall_result_read_intercalate :
    ¬∀ (d : Dialect) (name : String) (ss : List (List Char)) (ts : List Table),
      List.Forall₂ (fun s t => (Statement.read d s).result = .ok t) ss ts →
        (read d name (List.intercalate [';', '\n'] ss)).result = .ok ⟨name, ts⟩ := by
  intro h
  have hread := h {} ""
    ["CREATE TABLE t (a INT) ENGINE=e CHARSET=c COLLATE=l COMMENT='x\u2028y'".toList]
    [⟨"t", [⟨"a", ⟨.int, 0⟩, ""⟩], ⟨"e", "c", "l", "x\u2028y"⟩⟩]
    (.cons (by decide +kernel) .nil)
  revert hread
  decide +kernel

end TableDdl.Script
