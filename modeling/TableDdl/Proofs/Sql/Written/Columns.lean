import TableDdl.Proofs.Sql.Written.Types
import TableDdl.Sql.Body

/-!
# Written columns are accepted

A column line is read clause by clause.  Where there is a choice, what reads one alternative keeps
the others from matching (`Accepts.alternatives_of_pairwise`); the defaults begin with one word and
are apart behind it (`pairwise_defaultLiterals`).  Only the choice between a column and an index
needs more: a line is first tried as an index, and what a column is called decides that it is none
(`rejects_indexLine_of_heading`).
-/

namespace TableDdl.Written

open Grammar Text Sql

variable {α : Type} {g : Grammar α} {L : Language Char} {P : α → Prop} {E F G : List Char → Prop}
  {v : List Char} {ks : List String}

/-! ## Defaults -/

/-- The word, blanks, and the content behind them. -/
theorem accepts_defaulted (hg : Accepts g L P G E) (hG : ∀ v, G v → HeadNot isBlank v) :
    Accepts (defaulted g) (word "default" * (blanks1 * L)) P (Begins ["default"]) E := by
  have hcontent := (accepts_blanks1 hG).preceded hg
  exact accepts_behind_word (by decide) hcontent fun v hv => hv.clear.1

/-- A number ends where a clause or the line does. -/
theorem accepts_defaultInt (n : Nat) :
    Accepts defaultInt (word "default" * (blanks1 * numeral n)) (fun _ => True)
      (Begins ["default"]) (Next ks lineMarks) := by
  have hnumber := (accepts_numeral n).behind fun v (hv : Next ks lineMarks v) =>
    headNot_isDigit_of_isWord hv.1.1
  have hdefault := accepts_defaulted hnumber fun v hv => hv.headNot_isBlank
  exact hdefault.map _ fun _ _ => trivial

/-- A string needs no end other than its quote. -/
theorem accepts_defaultStr (content : List Char) :
    Accepts defaultStr (word "default" * (blanks1 * quotedText content)) (fun _ => True)
      (Begins ["default"]) E := by
  have hdefault := accepts_defaulted (accepts_quotedText content (E := E))
    fun v hv => hv.headNot_isBlank
  exact hdefault.map _ fun _ _ => trivial

theorem accepts_defaultNull :
    Accepts defaultNull (words ["default", "null"]) (fun _ => True) (Begins ["default"])
      (HeadNot isWord) :=
  (accepts_words "default" ["null"] (by decide) (by decide)).map _ fun _ _ => trivial

/-- The time may have a size behind it, and any words that are given. -/
theorem accepts_currentTimestamp (precision : Option Nat) (ks : List String) (hks : "" ∉ ks) :
    Accepts Sql.currentTimestamp (currentTimestamp precision) (fun _ => True)
      (Begins ["current_timestamp"]) (Next ks lineMarks) := by
  have hsize := accepts_size? ks lineMarks hks (by decide) precision
  have hword := (accepts_word (k := "current_timestamp") (by decide)).behind
    fun v (hv : Next ks ('(' :: lineMarks) v) => hv.1.1
  exact (hword.seq hsize).anyValue

/-- What is done on update is written behind blanks, or left out. -/
theorem accepts_onUpdate? (onUpdate : Option (Option Nat)) :
    Accepts (optional onUpdateClause)
      (clause onUpdate fun updated =>
        blanks1 * (words ["on", "update"] * (blanks1 * currentTimestamp updated)))
      (fun _ => True) (Next ["on", "comment"] lineMarks) (Next ["comment"] lineMarks) := by
  have hclause (updated : Option Nat) : Accepts onUpdateClause
      (blanks1 * (words ["on", "update"] * (blanks1 * currentTimestamp updated))) (fun _ => True)
      (Next ["on"] []) (Next ["comment"] lineMarks) := by
    have htime := accepts_currentTimestamp updated ["comment"] (by decide)
    have hspaced := (accepts_blanks1 fun v hv => hv.headNot_isBlank (by decide)).seq htime
    have hwords := (accepts_words "on" ["update"] (by decide) (by decide)).behind
      fun v (hv : Spaced (Begins ["current_timestamp"]) v) => hv.clear.1
    have hblanks := accepts_blanks1 fun v (hv : Begins ["on"] v) => hv.headNot_isBlank (by decide)
    have hall := hblanks.seq (hwords.seq hspaced)
    exact hall.anyValue.front fun v hv => ⟨hv.clear, .inl hv.2⟩
  have hoptional := accepts_clause? _ opens_onUpdateClause (by decide) (by decide) mem_lineMarks
    hclause onUpdate
  exact hoptional.anyValue

theorem accepts_defaultCurrentTimestamp (precision : Option Nat) (onUpdate : Option (Option Nat)) :
    Accepts defaultCurrentTimestamp
      ((word "default" * (blanks1 * currentTimestamp precision)) *
        clause onUpdate fun updated =>
          blanks1 * (words ["on", "update"] * (blanks1 * currentTimestamp updated)))
      (fun _ => True) (Begins ["default"]) (Next ["comment"] lineMarks) := by
  have htime := accepts_currentTimestamp precision ["on", "comment"] (by decide)
  have hdefault := accepts_defaulted htime fun v hv => hv.headNot_isBlank (by decide)
  exact (hdefault.seq (accepts_onUpdate? onUpdate)).map _ fun _ _ => trivial

theorem accepts_autoIncrement :
    Accepts autoIncrement (word "auto_increment") (fun _ => True) (Begins ["auto_increment"])
      (HeadNot isWord) :=
  (accepts_word (by decide)).map _ fun _ _ => trivial

/-- Each default is read as the one that it is, since no two of them match at one place. -/
theorem accepts_defaultLiteral (d : DefaultDecl) :
    Accepts defaultLiteral d.written (fun _ => True) (Next ["default", "auto_increment"] [])
      (Next ["comment"] lineMarks) := by
  have hchoice {g : Grammar DefaultValue} {L : Language Char} {k : String}
      (hmem : g ∈ defaultLiterals)
      (hg : Accepts g L (fun _ => True) (Begins [k]) (Next ["comment"] lineMarks))
      (hk : k ∈ ["default", "auto_increment"]) :
      Accepts defaultLiteral (blanks1 * L) (fun _ => True) (Next ["default", "auto_increment"] [])
        (Next ["comment"] lineMarks) := by
    have hone := hg.alternatives_of_pairwise pairwise_defaultLiterals hmem
    exact accepts_behind_blanks1 (hone.front fun v hv => hv.of_mem hk) (by decide)
  cases d with
  | integer n => exact hchoice (by simp [defaultLiterals]) (accepts_defaultInt n) (by decide)
  | string content =>
      exact hchoice (by simp [defaultLiterals]) (accepts_defaultStr content) (by decide)
  | null =>
      have hnull := accepts_defaultNull.behind fun v (hv : Next ["comment"] lineMarks v) => hv.1.1
      exact hchoice (by simp [defaultLiterals]) hnull (by decide)
  | currentTimestamp precision onUpdate =>
      exact hchoice (by simp [defaultLiterals]) (accepts_defaultCurrentTimestamp precision onUpdate)
        (by decide)
  | autoIncrement =>
      have hword := accepts_autoIncrement.behind fun v (hv : Next ["comment"] lineMarks v) => hv.1.1
      exact hchoice (by simp [defaultLiterals]) hword (by decide)

/-! ## Clauses of columns -/

/-- The two ways to say it begin with different words. -/
theorem accepts_nullClause (n : Nullability) :
    Accepts nullClause n.written (fun _ => True) (Next ["not", "null"] []) (Next ks lineMarks) := by
  have hnot : Opens (keywords ["not", "null"]) ["not"] := opens_keywords (by decide) _
  have hnull : Opens (keyword "null") ["null"] := opens_keyword (by decide)
  have hpair : [keywords ["not", "null"], keyword "null"].Pairwise Apart :=
    pairwise_apart (.cons hnot (.cons hnull .nil)) (by decide)
  cases n with
  | notNull =>
      have hwords := accepts_words "not" ["null"] (by decide) (by decide)
      have hchoice := (hwords.alternatives_of_pairwise hpair (by simp)).behind
        fun v (hv : Next ks lineMarks v) => hv.1.1
      exact accepts_behind_blanks1 (hchoice.front fun v hv => hv.of_mem (by simp)) (by decide)
  | null =>
      have hword := accepts_word (k := "null") (by decide)
      have hchoice := (hword.alternatives_of_pairwise hpair (by simp)).behind
        fun v (hv : Next ks lineMarks v) => hv.1.1
      exact accepts_behind_blanks1 (hchoice.front fun v hv => hv.of_mem (by simp)) (by decide)

/-- The comment is the last clause, and the only one that a table keeps. -/
theorem accepts_comment? (comment : Option (List Char)) :
    Accepts (optional commentClause) (clause comment commentText)
      (fun found => found = comment.map String.ofList) (Next ["comment"] lineMarks)
      (Next [] lineMarks) := by
  have hclause (content : List Char) : Accepts commentClause (commentText content)
      (· = String.ofList content) (Next ["comment"] []) (Next [] lineMarks) := by
    have hblanks := accepts_blanks0 fun v (hv : Quote v) => hv.headNot_isBlank
    have hstring := hblanks.preceded (accepts_quotedText content (E := Next [] lineMarks))
    have hword := accepts_behind_word (k := "comment") (by decide) hstring fun v hv =>
      hv.2.elim (fun h => h.headNot_isWord) fun h => (clear_of_isBlank_head? h).1
    exact accepts_behind_blanks1 hword (by decide)
  have hoptional := accepts_clause? _ opens_commentClause (by decide) (by decide) mem_lineMarks
    hclause comment
  refine hoptional.value fun found hfound => ?_
  cases hfound with
  | none => rfl
  | some ha => rw [ha]; rfl

/-- All that stands behind the type of a column. -/
theorem accepts_clauses (c : ColumnDecl) :
    Accepts (preceded defaultClause (optional commentClause))
      ((clause c.nullability Nullability.written * clause c.default DefaultDecl.written) *
        clause c.comment commentText)
      (fun found => found = c.comment.map String.ofList) (Next afterType lineMarks)
      (Next [] lineMarks) := by
  have hdefault := accepts_clause? ["comment"] opens_defaultLiteral (by decide) (by decide)
    mem_lineMarks accepts_defaultLiteral c.default
  have hnull := accepts_clause? ["default", "auto_increment", "comment"] opens_nullClause
    (by decide) (by decide) mem_lineMarks (fun n => accepts_nullClause n) c.nullability
  have hclause := (hnull.seq hdefault).map (Q := fun _ => True)
    (fun parts => (⟨if parts.2.isSome then .null else .noDefault, .none⟩ : DefaultValue))
    fun _ _ => trivial
  exact hclause.preceded (accepts_comment? c.comment)

/-! ## A column is no index -/

/-- A word comes next, and behind it no size. -/
def Unsized (v : List Char) : Prop :=
  ∃ w r, v = w ++ r ∧ w ≠ [] ∧ (∀ c ∈ w, isWord c = true) ∧ Clear r ∧
    (trimStart r).head? ≠ some '('

/-- A word that no parenthesis follows has no size. -/
theorem unsized_of_word {k : String} (hk : isKeyword k = true) {w r : List Char} (hw : w ∈ word k)
    {ks : List String} (hks : "" ∉ ks) (hr : Next ks lineMarks r) : Unsized (w ++ r) := by
  refine ⟨w, r, rfl, ?_, isWord_of_isKeyword hk hw, hr.1,
    hr.head?_ne hks (by decide) (by decide)⟩
  rintro rfl
  have hnil : k.toList = [] := hw.symm
  rw [isKeyword, hnil] at hk
  exact absurd hk (by simp)

/-- A type that has no size is a word with no parenthesis behind it. -/
theorem unsized_of_mem_written {t : TypeDecl} (ht : t.isSized = false) {u : List Char}
    (hu : u ∈ t.written) (hv : Next afterType lineMarks v) : Unsized (u ++ v) := by
  cases t with
  | integer type width unsigned zerofill =>
      obtain rfl : width = none := by simpa [TypeDecl.isSized] using ht
      obtain ⟨w, hw, _, ⟨_, rfl, m, hm, rfl⟩, rfl⟩ := hu
      have hk : isKeyword type.keyword = true := by cases type <;> decide
      have hmodifiers := accepts_modifiers afterType (by decide) mem_lineMarks unsigned zerofill
      have hunsized := unsized_of_word hk hw (by decide) (hmodifiers m hm v hv).1
      simpa using hunsized
  | varchar => exact absurd ht (by simp [TypeDecl.isSized])
  | datetime precision hprecision =>
      obtain rfl : precision = none := by simpa [TypeDecl.isSized] using ht
      obtain ⟨w, hw, _, rfl, rfl⟩ := hu
      have hunsized := unsized_of_word (k := "datetime") (by decide) hw (by decide) hv
      simpa using hunsized
  | decimal => exact absurd ht (by simp [TypeDecl.isSized])
  | text type charset collate =>
      obtain ⟨w, hw, m, hm, rfl⟩ := hu
      have hk : isKeyword type.keyword = true := by cases type <;> decide
      have hclauses := (accepts_charsetCollate charset collate m hm v hv).1
      have hunsized := unsized_of_word hk hw (by decide) hclauses
      simpa using hunsized

/-- No index begins where, behind what is read as its kind, no `KEY` or `INDEX` and columns
stand. -/
theorem rejects_indexLine_of_kind {u text : List Char} {kind : IndexKind} (htext : text = u ++ v)
    (hu : HeadNot isBlank text) (hkind : Reads indexKind u v kind)
    (hrest : Rejects (seq (preceded (alternatives [keyword "key", keyword "index"])
      (preceded whitespace0 (optional identifier)))
        (seq (preceded whitespace0 indexColumns) (optional indexUsing))) v) :
    Rejects indexLine text := by
  subst htext
  have hblanks : Reads whitespace0 [] (u ++ v) "" := reads_whitespace0 (by simp) hu
  have hline := (hblanks.preceded hkind).rejects_seq hrest
  exact (hline.followedBy _).map _

/-- No index begins where, behind what is read as its kind, neither `KEY` nor `INDEX` stands. -/
theorem rejects_indexLine_of_no_word {u text : List Char} {kind : IndexKind} (htext : text = u ++ v)
    (hu : HeadNot isBlank text) (hkind : Reads indexKind u v kind)
    (hword : ¬Begins ["key", "index"] v) : Rejects indexLine text := by
  have hnone := opens_indexWord v hword
  exact rejects_indexLine_of_kind htext hu hkind ((hnone.preceded _).seq _)

theorem headNot_isBlank_of_word {k : String} (hk : isKeyword k = true) {w : List Char}
    (hw : w ∈ word k) : HeadNot isBlank (w ++ v) := by
  have hall := isWord_of_isKeyword hk hw
  cases w with
  | nil =>
      have hnil : k.toList = [] := hw.symm
      rw [isKeyword, hnil] at hk
      exact absurd hk (by simp)
  | cons x w => exact headNot_cons.2 (not_isBlank_of_isWord (hall x List.mem_cons_self))

/-- A tick is no word character. -/
theorem headNot_isWord_of_tick {e : List Char} (he : e = [] ∨ e = ['`']) (hv : HeadNot isWord v) :
    HeadNot isWord (e ++ v) := by
  rcases he with rfl | rfl
  · exact hv
  · exact headNot_cons.2 (by decide)

theorem accepts_indexPrefix {entry : String × IndexKind}
    (hentry : entry ∈ [("primary", IndexKind.primary), ("unique", IndexKind.unique)]) :
    Accepts indexPrefix (word entry.1) (· = entry.2) (Begins [entry.1]) (HeadNot isWord) :=
  accepts_wordChoice hentry (by decide) (by decide)

/-- A column called `PRIMARY` or `UNIQUE` is no index, since no `KEY` follows. -/
theorem rejects_indexLine_of_prefix {w e : List Char} (entry : String × IndexKind)
    (hentry : entry ∈ [("primary", IndexKind.primary), ("unique", IndexKind.unique)])
    (hw : w ∈ word entry.1) (he : e = [] ∨ e = ['`']) (hv : Spaced (Begins typeWords) v) :
    Rejects indexLine (w ++ (e ++ v)) := by
  have hall : ∀ e ∈ [("primary", IndexKind.primary), ("unique", IndexKind.unique)],
      isKeyword e.1 = true ∧ ∀ k ∈ [e.1], k ∉ ["key", "index"] := by decide
  obtain ⟨hk, hd⟩ := hall entry hentry
  have hend := headNot_isWord_of_tick he hv.clear.1
  obtain ⟨hbegins, _, -, hleft⟩ := accepts_indexPrefix hentry w hw _ hend
  rcases he with rfl | rfl
  · -- The blanks behind the prefix are there, and then comes the type.
    obtain ⟨b, ⟨hne, hb⟩, htext⟩ := hv.exists_blanks
    rw [List.nil_append, htext] at hleft ⊢
    have hblanks := reads_whitespace1 hne hb (headNot_trimStart v)
    have hkind := (hleft.followedBy hblanks).optional.map fun found => found.getD .normal
    exact rejects_indexLine_of_no_word (List.append_assoc _ _ _).symm
      (headNot_isBlank_of_word hk hw) hkind (hv.2.not_begins (by decide))
  · -- A backtick stands where blanks would have to.
    have hblank : Rejects whitespace1 (['`'] ++ v) :=
      rejects_whitespace1 (headNot_cons.2 (by decide))
    have hkindWord := hleft.rejects_followedBy hblank
    have hkind : Reads indexKind [] (w ++ (['`'] ++ v)) .normal :=
      hkindWord.optional.map fun found => found.getD .normal
    exact rejects_indexLine_of_no_word (List.nil_append _).symm
      (headNot_isBlank_of_word hk hw) hkind (hbegins.not_begins hd)

/-- The columns of an index begin with a parenthesis. -/
theorem rejects_indexColumns (hv : (trimStart v).head? ≠ some '(') :
    Rejects (preceded whitespace0 indexColumns) v := by
  have hopen := rejects_exactly_singleton (s := "(") (by decide) hv
  exact rejects_behind_whitespace0 ((hopen.preceded _).map _)

/-- Behind `KEY` or `INDEX` and the blanks there, the type of a column is read as the name of an
index, and no columns follow. -/
theorem rejects_indexBody_of_unsized {w : List Char} {word : String}
    (hword : Reads (alternatives [keyword "key", keyword "index"]) w v word)
    (hunsized : Unsized (trimStart v)) :
    Rejects (seq (preceded (alternatives [keyword "key", keyword "index"])
      (preceded whitespace0 (optional identifier)))
        (seq (preceded whitespace0 indexColumns) (optional indexUsing))) (w ++ v) := by
  obtain ⟨t, r, hr, hne, htype, hclear, hopen⟩ := hunsized
  have hname := reads_identifier (o := []) (e := []) hne htype (.inl rfl) (.inl rfl) hclear.1
    hclear.2
  rw [List.nil_append, List.append_nil] at hname
  have hb := isBlank_of_mem_takeWhile v
  have hhead : HeadNot isBlank (t ++ r) := hr ▸ headNot_trimStart v
  have hblanks := reads_whitespace0 hb hhead
  have htext := takeWhile_append_trimStart v
  rw [hr, ← List.append_assoc] at htext
  rw [← htext] at hword ⊢
  have hnamed := hword.preceded (hblanks.preceded hname.optional)
  have hrej := hnamed.rejects_seq ((rejects_indexColumns hopen).seq (optional indexUsing))
  rwa [List.append_assoc] at hrej

/-- Behind `KEY` or `INDEX` and a backtick, neither a name nor columns follow. -/
theorem rejects_indexBody_of_tick {w : List Char} {word : String}
    (hword : Reads (alternatives [keyword "key", keyword "index"]) w ('`' :: v) word)
    (hv : HeadNot isWord v) :
    Rejects (seq (preceded (alternatives [keyword "key", keyword "index"])
      (preceded whitespace0 (optional identifier)))
        (seq (preceded whitespace0 indexColumns) (optional indexUsing))) (w ++ '`' :: v) := by
  have htick : HeadNot isBlank ('`' :: v) := headNot_cons.2 (by decide)
  have hblanks : Reads whitespace0 [] ('`' :: v) "" := reads_whitespace0 (by simp) htick
  have hname : Reads (preceded whitespace0 (optional identifier)) [] ('`' :: v) none :=
    hblanks.preceded (rejects_identifier_of_tick hv).optional
  have hopen : (trimStart ('`' :: v)).head? ≠ some '(' := by
    rw [trimStart_eq_self htick, List.head?_cons]
    decide
  have hrej := (Reads.preceded (v := '`' :: v) hword hname).rejects_seq
    ((rejects_indexColumns hopen).seq (optional indexUsing))
  rwa [List.append_nil] at hrej

/-- A column called `KEY` or `INDEX` is no index, if a backtick or a type without size follows. -/
theorem rejects_indexLine_of_key {w e : List Char} {k : String} (hk : k ∈ ["key", "index"])
    (hw : w ∈ word k) (he : e = [] ∨ e = ['`']) (hv : Spaced (Begins typeWords) v)
    (hunsized : e = [] → Unsized (trimStart v)) : Rejects indexLine (w ++ (e ++ v)) := by
  have hall : ∀ l ∈ ["key", "index"],
      isKeyword l = true ∧ ∀ k ∈ [l], k ∉ ["primary", "unique"] := by decide
  have hend := headNot_isWord_of_tick he hv.clear.1
  have hchoice := accepts_keyword_of_mem hk (by decide) (by decide)
  obtain ⟨hbegins, _, -, hword⟩ := hchoice w hw _ hend
  have hkind : Reads indexKind [] (w ++ (e ++ v)) .normal :=
    reads_indexKind_normal (hbegins.not_begins (hall k hk).2)
  refine rejects_indexLine_of_kind (List.nil_append _).symm
    (headNot_isBlank_of_word (hall k hk).1 hw) hkind ?_
  rcases he with rfl | rfl
  · exact rejects_indexBody_of_unsized hword (hunsized rfl)
  · exact rejects_indexBody_of_tick hword hv.clear.1

/-- The backticks around the name of a column.  Around `KEY` and `INDEX` there is one at least, if
the type has a size. -/
theorem exists_ticks_of_mem_heading {c : ColumnDecl} {u : List Char} (hu : u ∈ c.heading) :
    ∃ o e, (o = [] ∨ o = ['`']) ∧ (e = [] ∨ e = ['`']) ∧ u = o ++ (c.name.text ++ e) ∧
      (c.name.isIndexWord = true → o = [] → e = [] → c.type.isSized = false) := by
  rw [ColumnDecl.heading] at hu
  split at hu
  · rcases hu with ⟨_, rfl, _, ⟨_, rfl, e, he, rfl⟩, rfl⟩ | ⟨_, rfl, _, rfl, rfl⟩
    · exact ⟨['`'], e, .inr rfl, mem_tick he, rfl, by simp⟩
    · exact ⟨[], ['`'], .inl rfl, .inr rfl, rfl, by simp⟩
  · next hplain =>
    obtain ⟨o, ho, _, ⟨_, rfl, e, he, rfl⟩, rfl⟩ := hu
    refine ⟨o, e, mem_tick ho, mem_tick he, rfl, fun hword _ _ => ?_⟩
    simpa [hword] using hplain

/-- A backtick begins no index. -/
theorem rejects_indexLine_of_tick : Rejects indexLine ('`' :: v) := by
  have htick : HeadNot isBlank ('`' :: v) := headNot_cons.2 (by decide)
  have hword : HeadNot isWord ('`' :: v) := headNot_cons.2 (by decide)
  refine opens_indexLine _ ?_
  rw [trimStart_eq_self htick, firstWord_eq_nil hword]
  exact nil_not_mem_map_toList (by decide)

/-- A name without a backtick in front of it is no index, if the column has a name of its own, a
backtick behind it, or a type without size. -/
theorem rejects_indexLine_of_name (n : Name) {e : List Char} (he : e = [] ∨ e = ['`'])
    (hv : Spaced (Begins typeWords) v)
    (hunsized : n.isIndexWord = true → e = [] → Unsized (trimStart v)) :
    Rejects indexLine (n.text ++ (e ++ v)) := by
  have hend := headNot_isWord_of_tick he hv.clear.1
  by_cases hw : firstWord (n.text ++ (e ++ v)) ∈
      ["primary", "unique", "key", "index"].map String.toList
  · rw [firstWord_append n.isWord_of_mem hend] at hw
    simp only [List.map_cons, List.map_nil, List.mem_cons, List.not_mem_nil, or_false] at hw
    rcases hw with hw | hw | hw | hw
    · exact rejects_indexLine_of_prefix (("primary", .primary)) (by simp) hw he hv
    · exact rejects_indexLine_of_prefix (("unique", .unique)) (by simp) hw he hv
    · exact rejects_indexLine_of_key (k := "key") (by simp) hw he hv
        (hunsized (by simp [Name.isIndexWord, hw]))
    · exact rejects_indexLine_of_key (k := "index") (by simp) hw he hv
        (hunsized (by simp [Name.isIndexWord, hw]))
  · refine opens_indexLine _ ?_
    obtain ⟨x, w, hx⟩ := List.exists_cons_of_ne_nil n.ne_nil
    have hword := n.isWord_of_mem x (by simp [hx])
    have hblank : HeadNot isBlank (n.text ++ (e ++ v)) := by
      rw [hx]
      exact headNot_cons.2 (not_isBlank_of_isWord hword)
    rwa [trimStart_eq_self hblank]

/-- **Columns are no indexes**: no column is read as an index, since one that would be has a
backtick. -/
theorem rejects_indexLine_of_heading (c : ColumnDecl) {u : List Char} (hu : u ∈ c.heading)
    (hv : Spaced (Begins typeWords) v)
    (hunsized : c.type.isSized = false → Unsized (trimStart v)) : Rejects indexLine (u ++ v) := by
  obtain ⟨o, e, rfl | rfl, he, rfl, hkey⟩ := exists_ticks_of_mem_heading hu
  · rw [List.nil_append, List.append_assoc]
    exact rejects_indexLine_of_name c.name he hv fun hword hnone =>
      hunsized (hkey hword rfl hnone)
  · exact rejects_indexLine_of_tick

/-! ## Column lines -/

/-- A column is called by a name, whatever backticks it needs. -/
theorem heading_subset (c : ColumnDecl) : ∀ w ∈ c.heading, w ∈ c.name.written := by
  intro w hw
  rw [ColumnDecl.heading] at hw
  split at hw
  · exact ticked_subset c.name w hw
  · exact hw

/-- A column up to the end of its line, which is no index. -/
theorem accepts_columnLine {extended : Bool} (c : ColumnDecl)
    (hc : c.type.isExtended = true → extended = true) {M : Language Char}
    (hend : Accepts (seq whitespace0 (seq lineEnd whitespace0)) M (fun _ => True)
      (Next [] lineMarks) E) :
    Accepts (columnLine extended) (c.written * M) (· = c.column)
      (fun v => Named v ∧ Rejects indexLine v) E := by
  have htype := (accepts_dataType c.type hc).front_and
    (G := fun v => c.type.isSized = false → Unsized v)
    fun u hu v hv hsized => unsized_of_mem_written hsized hu hv
  have hblanks := accepts_blanks1 fun v
    (hv : Begins typeWords v ∧ (c.type.isSized = false → Unsized v)) =>
      hv.1.headNot_isBlank (by decide)
  have hbehind := (hblanks.preceded htype).seq (accepts_clauses c)
  have hname : Accepts (preceded whitespace0 identifier) c.heading (· = c.name.value)
      (fun v => Named v ∧ Rejects indexLine v)
      (Spaced fun v => Begins typeWords v ∧ (c.type.isSized = false → Unsized v)) := by
    have hheading : Accepts identifier c.heading (· = c.name.value)
        (fun v => Named v ∧ Rejects indexLine v)
        (Spaced fun v => Begins typeWords v ∧ (c.type.isSized = false → Unsized v)) := by
      intro u hu v hv
      obtain ⟨hnamed, hread⟩ := accepts_name c.name u (heading_subset c u hu) v hv.clear
      exact ⟨⟨hnamed, rejects_indexLine_of_heading c hu ⟨hv.1, hv.2.1⟩ hv.2.2⟩, hread⟩
    have hline := (accepts_no_blanks fun v hv => hv.1.headNot_isBlank).preceded hheading
    rwa [one_mul] at hline
  refine ((hname.seq hbehind).followedBy hend).map _ ?_
  rintro ⟨name, type, found⟩ ⟨rfl, rfl, rfl⟩
  rfl

end TableDdl.Written
