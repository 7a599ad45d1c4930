import TableDdl.Proofs.Grammar.Overlong
import TableDdl.Proofs.Log
import TableDdl.Proofs.Marker
import TableDdl.Proofs.Script.Comments
import TableDdl.Sql.Expr

/-!
# Why reading fails

Texts without overlong integers fail for one reason only: something in them is no statement
(`Statement.read_eq_error`, `Script.read_eq_error`).  Cleaning and cutting a script bring no digits
together that stand apart in it, since lines are joined by line feeds and pieces are parts of the
text (`Script.overlong_of_statement`).
-/

namespace TableDdl

open Grammar Text

/-! ## Parts of texts -/

namespace Text

/-- A stretch without the mark between two texts lies in one of them. -/
theorem infix_of_infix_append_cons {v a b : List Char} {x : Char} (h : v <:+: a ++ x :: b)
    (hx : x ∉ v) : v <:+: a ∨ v <:+: b := by
  have hnil {w : List Char} (hw : w <+: x :: b) (hxw : x ∉ w) : w = [] := by
    cases w with
    | nil => rfl
    | cons y w =>
        obtain ⟨rfl, -⟩ := List.cons_prefix_cons.1 hw
        exact absurd List.mem_cons_self hxw
  rcases List.infix_append_iff.1 h with h | h | ⟨l, r, rfl, hl, hr⟩
  · exact .inl h
  · rcases List.infix_cons_iff.1 h with h | h
    · rw [hnil h hx]
      exact .inl (List.nil_infix)
    · exact .inr h
  · rw [hnil hr fun hm => hx (List.mem_append_right l hm), List.append_nil]
    exact .inl hl.isInfix

/-- A character that is no digit keeps the digits before it and behind it apart. -/
theorem overlong_append_cons {a b : List Char} {x : Char} (hx : isDigit x = false)
    (h : Overlong (a ++ x :: b)) : Overlong a ∨ Overlong b := by
  obtain ⟨digits, hin, hdigits, hlen⟩ := h
  have hnot : x ∉ digits := fun hm => by
    rw [hdigits x hm] at hx
    exact absurd hx (by decide)
  rcases infix_of_infix_append_cons hin hnot with hin | hin
  · exact .inl ⟨digits, hin, hdigits, hlen⟩
  · exact .inr ⟨digits, hin, hdigits, hlen⟩

/-- A line feed is no digit, so an overlong integer lies in one line. -/
theorem exists_overlong_of_joinLines {ls : List (List Char)} (h : Overlong (joinLines ls)) :
    ∃ l ∈ ls, Overlong l := by
  induction ls with
  | nil => exact absurd h (not_overlong_of_length_le (by decide))
  | cons l ls ih =>
      rw [joinLines_cons] at h
      split at h
      · rw [List.append_nil] at h
        exact ⟨l, List.mem_cons_self, h⟩
      · rcases overlong_append_cons (by decide) h with h | h
        · exact ⟨l, List.mem_cons_self, h⟩
        · obtain ⟨k, hk, hlong⟩ := ih h
          exact ⟨k, List.mem_cons_of_mem l hk, hlong⟩

end Text

namespace Script

theorem infix_of_mem_piecesFrom {m : Mode} {current text piece : List Char}
    (h : piece ∈ piecesFrom m current text) : piece <:+: current.reverse ++ text := by
  induction text generalizing m current with
  | nil =>
      rw [piecesFrom, List.mem_singleton] at h
      rw [h, List.append_nil]
  | cons c text ih =>
      rw [piecesFrom] at h
      split at h
      · rcases List.mem_cons.1 h with rfl | h
        · exact (List.prefix_append _ _).isInfix
        · have hrest : text <:+ current.reverse ++ c :: text :=
            (List.suffix_cons c text).trans (List.suffix_append _ _)
          exact (ih h).trans hrest.isInfix
      · have := ih h
        rwa [List.reverse_cons, List.append_assoc, List.singleton_append] at this

theorem infix_of_mem_statements {text statement : List Char} (h : statement ∈ statements text) :
    statement <:+: text := by
  obtain ⟨piece, hpiece, rfl⟩ := List.mem_map.1 h
  exact (trim_infix_self piece).trans (infix_of_mem_piecesFrom (List.mem_filter.1 hpiece).1)

theorem dropByteOrderMark_suffix (script : List Char) : dropByteOrderMark script <:+ script := by
  cases script with
  | nil => exact List.suffix_rfl
  | cons c rest =>
      rw [dropByteOrderMark]
      split
      · exact List.suffix_cons c rest
      · exact List.suffix_rfl

/-- Digits that stand together in a statement of a script stand together in the script. -/
theorem overlong_of_statement {script statement : List Char}
    (hs : statement ∈ statements (clean script)) (h : Overlong (stripComments statement)) :
    Overlong script := by
  have hclean : Overlong (clean script) :=
    h.mono ((stripComments_suffix statement).isInfix.trans (infix_of_mem_statements hs))
  obtain ⟨line, hline, hlong⟩ := exists_overlong_of_joinLines hclean
  exact (hlong.mono (infix_of_mem_lines (List.mem_filter.1 hline).1)).mono
    (dropByteOrderMark_suffix script).isInfix

end Script

/-! ## Errors -/

variable {d : Dialect}

/-- A text that is no statement leaves something unread, or stops at an overlong integer in it. -/
theorem Statement.error_cases {text : List Char} {e : Error}
    (h : (Statement.read d text).result = .error e) :
    (∃ remaining, e = .unparsed remaining) ∨ ∃ n, e = .overlongInteger n ∧ Overlong text := by
  rw [Statement.read] at h
  split at h
  · dsimp only at h
    split at h
    · exact absurd h (by simp [Pure.pure, Logged.pure])
    · rw [result_unparsed] at h
      exact .inl ⟨_, (Except.error.inj h).symm⟩
  · rw [result_unparsed] at h
    exact .inl ⟨_, (Except.error.inj h).symm⟩
  · next digits hrun =>
    obtain ⟨place, -, rfl, hlen⟩ := overlong_of_run hrun
    exact .inr ⟨_, (Except.error.inj h).symm, overlong_of_digitsAt hlen⟩

/-- A statement fails because something is left, or because of an overlong integer. -/
theorem Statement.read_eq_error {text : List Char} {e : Error}
    (h : (Statement.read d text).result = .error e) :
    (∃ remaining, e = .unparsed remaining) ∨ Overlong text :=
  (error_cases h).imp_right fun ⟨_, _, hlong⟩ => hlong

/-- The error of a list of statements is that of one of them. -/
theorem Script.exists_of_readTables_eq_error {pieces : List (List Char)} {e : Error}
    (h : (readTables d pieces).result = .error e) :
    ∃ piece ∈ pieces, (Statement.read d (stripComments piece)).result = .error e := by
  induction pieces with
  | nil => exact absurd h (by simp [readTables, Pure.pure, Logged.pure])
  | cons piece rest ih =>
      rw [List.exists_mem_cons_iff]
      rw [readTables] at h
      split at h
      · rcases Logged.result_bind_eq_error h with h | ⟨t, -, h⟩
        · exact .inl h
        · rcases Logged.result_bind_eq_error h with h | ⟨ts, -, h⟩
          · exact .inr (ih h)
          · exact absurd h (by simp [Pure.pure, Logged.pure])
      · rcases Logged.result_bind_eq_error h with h | ⟨_, -, h⟩
        · exact absurd h (by simp [Logged.log])
        · exact .inr (ih h)

/-- A script that cannot be read leaves something unread, or stops at an overlong integer in it. -/
theorem Script.error_cases {name : String} {script : List Char} {e : Error}
    (h : (Script.read d name script).result = .error e) :
    (∃ remaining, e = .unparsed remaining) ∨ ∃ n, e = .overlongInteger n ∧ Overlong script := by
  rcases Logged.result_bind_eq_error h with h | ⟨ts, -, h⟩
  · obtain ⟨statement, hs, h⟩ := exists_of_readTables_eq_error h
    refine (Statement.error_cases h).imp_right fun ⟨n, he, hlong⟩ => ?_
    exact ⟨n, he, overlong_of_statement hs hlong⟩
  · rcases Logged.result_bind_eq_error h with h | ⟨_, -, h⟩
    · exact absurd h (by simp [Logged.log])
    · exact absurd h (by simp [Pure.pure, Logged.pure])

/-- A script fails as one of its statements does. -/
theorem Script.read_eq_error {name : String} {script : List Char} {e : Error}
    (h : (Script.read d name script).result = .error e) :
    (∃ remaining, e = .unparsed remaining) ∨ Overlong script :=
  (error_cases h).imp_right fun ⟨_, _, hlong⟩ => hlong

/-! ## Values -/

/-- A choice that refuses no element is a choice without refusals. -/
theorem filterMapM_map_of_ok {α β γ ε : Type} {f : β → Except ε (Option γ)} {g : α → β}
    {h : α → Option γ} (hf : ∀ a, f (g a) = .ok (h a)) (as : List α) :
    (as.map g).filterMapM f = .ok (as.filterMap h) := by
  induction as with
  | nil => rfl
  | cons a as ih =>
      rw [List.map_cons, List.filterMapM_cons, hf, ih, List.filterMap_cons]
      cases h a <;> rfl

/-- The lines of a table body are columns and indexes, so none of them is refused. -/
theorem Table.ofValues_ofLine (name : String) (body : List BodyLine) (options : TableOptions) :
    Table.ofValues name (body.map Value.ofLine) options = .ok (Table.ofBody name body options) := by
  rw [Table.ofValues,
    filterMapM_map_of_ok (h := BodyLine.column?) fun line => by cases line <;> rfl]
  rfl

namespace Sql.Expr

mutual

/-- No keyword of the expression is empty. -/
def isWorded : Expr → Bool
  | keyword text => !text.isEmpty
  | keywords texts => texts.all fun text => !text.isEmpty
  | exactly _ => true
  | rule _ => true
  | optional part => part.isWorded
  | alternatives parts => areWorded parts
  | sequence parts => areWorded parts
  | preceded first part => first.isWorded && part.isWorded
  | many1 part => part.isWorded
  | singleton part => part.isWorded

/-- No keyword of the expressions is empty. -/
def areWorded : List Expr → Bool
  | [] => true
  | part :: parts => part.isWorded && areWorded parts

end

mutual

/-- An expression has a grammar, if no keyword of it is empty. -/
theorem exists_grammar (e : Expr) (h : e.isWorded = true) : ∃ g, e.grammar = .ok g := by
  cases e with
  | keyword text =>
      have hne : text.isEmpty = false := by simpa [isWorded] using h
      exact ⟨_, by rw [grammar, keyword?, hne]; rfl⟩
  | keywords texts =>
      have hne : texts.any String.isEmpty = false := by simpa [isWorded] using h
      exact ⟨_, by rw [grammar, hne]; rfl⟩
  | exactly text => exact ⟨_, rfl⟩
  | rule name => exact ⟨_, rfl⟩
  | optional part =>
      obtain ⟨g, hg⟩ := exists_grammar part (by simpa [isWorded] using h)
      exact ⟨_, by rw [grammar, hg]; rfl⟩
  | alternatives parts =>
      obtain ⟨gs, hgs⟩ := exists_grammars parts (by simpa [isWorded] using h)
      exact ⟨_, by rw [grammar, hgs]; rfl⟩
  | sequence parts =>
      obtain ⟨gs, hgs⟩ := exists_grammars parts (by simpa [isWorded] using h)
      exact ⟨_, by rw [grammar, hgs]; rfl⟩
  | preceded first part =>
      rw [isWorded, Bool.and_eq_true] at h
      obtain ⟨f, hf⟩ := exists_grammar first h.1
      obtain ⟨g, hg⟩ := exists_grammar part h.2
      exact ⟨_, by rw [grammar, hf, hg]; rfl⟩
  | many1 part =>
      obtain ⟨g, hg⟩ := exists_grammar part (by simpa [isWorded] using h)
      exact ⟨_, by rw [grammar, hg]; rfl⟩
  | singleton part =>
      obtain ⟨g, hg⟩ := exists_grammar part (by simpa [isWorded] using h)
      exact ⟨_, by rw [grammar, hg]; rfl⟩

theorem exists_grammars (es : List Expr) (h : areWorded es = true) :
    ∃ gs, grammars es = .ok gs := by
  cases es with
  | nil => exact ⟨[], by rw [grammars]⟩
  | cons part parts =>
      rw [areWorded, Bool.and_eq_true] at h
      obtain ⟨g, hg⟩ := exists_grammar part h.1
      obtain ⟨gs, hgs⟩ := exists_grammars parts h.2
      exact ⟨g :: gs, by rw [grammars, hg, hgs]; rfl⟩

end

end Sql.Expr

/-! ## Failures -/

/-- The schema of a table is made of the value of the statement that creates it, none of whose lines
is refused. -/
theorem Sql.exists_table_of_createTable {c next : Cursor} {value : Value}
    (h : (Rule.createTable.grammar d).run c = .matched next value) :
    ∃ name lines options table,
      value = .tuple [.str name, .list lines, .tableOptions options] ∧
        Table.ofValues name lines options = .ok table ∧
        (Rule.tableSchema.grammar d).run c = .matched next (.table table) := by
  obtain ⟨s, hs, rfl⟩ := run_map_eq_matched_iff.1 h
  refine ⟨s.name, s.body.map Value.ofLine, s.options, s.table, rfl, ?_, ?_⟩
  · exact Table.ofValues_ofLine s.name s.body s.options
  · exact run_map_of_matched (run_map_of_matched hs CreateTable.table) Value.table

/-- **Failures**: a grammar, from any place of a text or beyond its end, is matched or not matched,
or stops at an integer whose digits stand in the text, at or behind that place, and are counted to
the end of their row.  So in a text without overlong integers every grammar is matched or not, and a
statement or a script that cannot be read has a rest that is left unread.

Nothing else goes wrong on the way: an expression without empty keywords has a grammar, no line of a
table body is refused as unknown, and a string that is read by places is never asked for a character
or a length that is not there. -/
theorem fails_only_at_overlong (text : List Char) :
    (∀ {α : Type} (g : Grammar α) (pos n : Nat), g.run (.atPosition text pos) = .overlong n →
      ∃ place, pos ≤ place ∧ n = digitsAt text place ∧ maxDigits < n) ∧
    (¬Overlong text →
      (∀ {α : Type} (g : Grammar α) (pos : Nat),
        (∃ next a, g.run (.atPosition text pos) = .matched next a) ∨
          ∃ place, g.run (.atPosition text pos) = .mismatch place) ∧
      (∀ (d : Dialect) (e : Error), (Statement.read d text).result = .error e →
        ∃ remaining, e = .unparsed remaining) ∧
      ∀ (d : Dialect) (name : String) (e : Error), (Script.read d name text).result = .error e →
        ∃ remaining, e = .unparsed remaining) ∧
    (∀ e : Sql.Expr, e.isWorded = true → ∃ g, e.grammar = .ok g) ∧
    (∀ (d : Dialect) (pos : Nat) (next : Cursor) (value : Value),
      (Sql.Rule.createTable.grammar d).run (.atPosition text pos) = .matched next value →
        ∃ name lines options table,
          value = .tuple [.str name, .list lines, .tableOptions options] ∧
            Table.ofValues name lines options = .ok table ∧
            (Sql.Rule.tableSchema.grammar d).run (.atPosition text pos) =
              .matched next (.table table)) ∧
    ∀ pos : Nat, (⟨text, pos⟩ : Marker).quoted =
      .ok (Quoted.decode (Cursor.atPosition text pos).rest) := by
  refine ⟨fun g pos n h => overlong_of_run h, fun hshort => ⟨fun g pos => ?_, ?_, ?_⟩,
    Sql.Expr.exists_grammar, fun d pos next value h => Sql.exists_table_of_createTable h,
    Marker.quoted_eq text⟩
  · exact run_of_not_overlong g hshort
  · exact fun d e h => (Statement.read_eq_error h).resolve_right hshort
  · exact fun d name e h => (Script.read_eq_error h).resolve_right hshort

/-- A parenthesis, and behind it one digit more than an integer may have. -/
def sevens : List Char := '(' :: List.replicate 4301 '7'

theorem fails_only_at_overlong_sevens :
    Sql.typeSize.run (.atPosition sevens 0) = .overlong 4301 ∧
      (∃ place, 0 ≤ place ∧ 4301 = digitsAt sevens place ∧ maxDigits < 4301) ∧
      ¬Overlong "CREATE TABLE t".toList ∧
      (Statement.read {} "CREATE TABLE t".toList).result = .error (.unparsed "") ∧
      ∃ remaining, Error.unparsed "" = .unparsed remaining := by
  have hrun : Sql.typeSize.run (.atPosition sevens 0) = .overlong 4301 := by decide +kernel
  have hshort : ¬Overlong "CREATE TABLE t".toList := not_overlong_of_length_le (by decide)
  have hread : (Statement.read {} "CREATE TABLE t".toList).result = .error (.unparsed "") := by
    decide +kernel
  have hplace := (fails_only_at_overlong sevens).1 Sql.typeSize 0 4301 hrun
  have hrest := ((fails_only_at_overlong "CREATE TABLE t".toList).2.1 hshort).2.1 {} _ hread
  exact ⟨hrun, hplace, hshort, hread, hrest⟩

end TableDdl
