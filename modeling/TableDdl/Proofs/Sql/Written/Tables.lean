import TableDdl.Proofs.Sql.Dialects
import TableDdl.Proofs.Sql.Written.Lines

/-!
# Written statements are read

The options, the head and the body of a statement put together: whatever a statement that creates a
table means, each way to write it is read as its table (`TableDecl.read_of_written`).  Strict
options are enough, since every dialect reads what the strict one reads.
-/

namespace TableDdl.Written

open Grammar Text Sql Language

variable {α : Type} {g : Grammar α} {L : Language Char} {P : α → Prop} {E F : List Char → Prop}
  {v : List Char} {ks : List String}

/-! ## Options -/

/-- The value of an option, with or without an equals sign. -/
theorem accepts_given (hg : Accepts g L P F E)
    (hF : ∀ v, F v → HeadNot isBlank v ∧ v.head? ≠ some '=') (hmoves : Moves g) :
    Accepts (preceded whitespace0 (preceded (optional (exactly "=")) (preceded whitespace0 g)))
      (given L) P (HeadNot isWord) E := by
  have hstart : ∀ v, F v → HeadNot isBlank v := fun v hv => (hF v hv).1
  have hnone := accepts_optional_none fun v hv =>
    rejects_exactly_singleton (s := "=") (by decide) (hF v hv).2
  have hbare := hnone.preceded ((accepts_no_blanks hstart).preceded hg)
  have hplain := (accepts_blanks0 hstart).preceded hbare
  rw [one_mul, one_mul] at hplain
  have hbehind := (accepts_blanks0 hstart).preceded hg
  have hvalue := (accepts_mark (s := "=") (m := '=') (by decide)).optional.preceded hbehind
  have hblanks := accepts_blanks0 fun v (hv : Marked '=' v) => headNot_of_head? hv (by decide)
  have hequals := hblanks.preceded hvalue
  rintro u ⟨hu, hapart⟩ v hv
  have hread : ∃ a, P a ∧ Reads (preceded whitespace0
      (preceded (optional (exactly "=")) (preceded whitespace0 g))) u v a := by
    rcases hu with hu | hu
    · exact (hplain u hu v hv).2
    · exact (hequals u hu v hv).2
  obtain ⟨a, ha, hread⟩ := hread
  have hne : u ≠ [] :=
    hread.ne_nil (((hmoves.preceded_right _).preceded_right _).preceded_right _)
  exact ⟨(headNot_append hne).2 hapart, a, ha, hread⟩

/-- A name begins with no equals sign, so a missing sign is noticed. -/
theorem Named.ne_equals (hv : Named v) : v.head? ≠ some '=' := by
  obtain ⟨x, hx, hword | rfl⟩ := hv
  · rw [Option.mem_def.1 hx]
    rintro ⟨⟩
    exact absurd hword (by decide)
  · rw [Option.mem_def.1 hx]
    decide

theorem Quote.ne_equals (hv : Quote v) : v.head? ≠ some '=' := by
  obtain ⟨q, hq, hquote⟩ := hv
  rw [Option.mem_def.1 hq]
  rintro ⟨⟩
  exact absurd hquote (by decide)

/-- A name behind blanks, with an equals sign or without one. -/
theorem accepts_givenName (n : Name) :
    Accepts (preceded whitespace0 (preceded (optional (exactly "=")) (preceded whitespace0
      identifier))) (given n.written) (· = n.value) (HeadNot isWord) Clear :=
  accepts_given (accepts_name n) (fun _ hv => ⟨hv.headNot_isBlank, hv.ne_equals⟩) moves_identifier

/-- `DEFAULT`, or nothing, in front of another word. -/
theorem accepts_defaultPrefix {Q : α → Prop} (hg : Accepts g L Q (Begins ks) E) (hks : "" ∉ ks)
    (hd : ∀ k ∈ ks, k ∉ ["default"]) :
    Accepts (preceded defaultPrefix g) (defaultWord * L) Q (Begins ("default" :: ks)) E := by
  have hword := (accepts_word (k := "default") (by decide)).behind
    fun v (hv : Spaced (Begins ks) v) => hv.clear.1
  have hblanks := accepts_blanks1 fun v (hv : Begins ks v) => hv.headNot_isBlank hks
  have hopens : Opens (seq (keyword "default") whitespace1) ["default"] :=
    (opens_keyword (by decide)).seq whitespace1
  have hleft : Accepts defaultPrefix defaultWord (fun _ => True) (Begins ("default" :: ks))
      (Begins ks) := by
    have hnone := accepts_optional_none fun v (hv : Begins ks v) => hv.rejects hopens hd
    rintro u (hu | hu) v hv
    · exact (hnone.front fun v hv => hv.mono (List.subset_cons_self _ _)) u hu v hv
    · exact ((hword.seq hblanks).optional.front fun v hv => hv.of_mem List.mem_cons_self) u hu v hv
  exact hleft.preceded hg

/-- The four options in order. -/
theorem accepts_options (t : TableDecl) :
    Accepts strictOptions t.options (· = t.table.options) (fun _ => True) (fun _ => True) := by
  -- from the last option to the first, since each one ends where the next one begins
  have hsummary := accepts_given (accepts_quotedText t.comment (E := fun _ => True))
    (fun _ hv => ⟨hv.headNot_isBlank, hv.ne_equals⟩) moves_quotedString
  have hcomment := accepts_behind_blanks1
    (accepts_behind_word (k := "comment") (by decide) hsummary fun _ hv => hv) (by decide)
  have hcollateName := (accepts_givenName t.collate).behind
    fun v (hv : Next ["comment"] [] v) => hv.1
  have hcollateWord := accepts_defaultPrefix (accepts_word (k := "collate") (by decide))
    (by decide) (by decide)
  have hcollate := accepts_behind_blanks1 (hcollateWord.preceded hcollateName) (by decide)
  have hcharsetName := (accepts_givenName t.charset).behind
    fun v (hv : Next ["default", "collate"] [] v) => hv.1
  have hcharsetWord := accepts_defaultPrefix (accepts_charsetWord fun _ hv => hv)
    (by decide) (by decide)
  have hcharset := accepts_behind_blanks1 (hcharsetWord.preceded hcharsetName) (by decide)
  have hengineName := (accepts_givenName t.engine).behind
    fun v (hv : Next ["default", "character", "charset"] [] v) => hv.1
  have hengineWord := accepts_behind_word (k := "engine") (by decide) hengineName fun _ hv => hv
  have hblanks := accepts_blanks0 fun v (hv : Begins ["engine"] v) =>
    hv.headNot_isBlank (by decide)
  have hengine := hblanks.preceded hengineWord
  have hall := hengine.seq (hcharset.seq (hcollate.seq hcomment))
  refine (hall.front fun _ _ => trivial).map _ ?_
  rintro ⟨engine, charset, collate, comment⟩ ⟨rfl, rfl, rfl, rfl⟩
  rfl

/-! ## Heads and bodies -/

/-- A flag of the head, where another word or a name comes next. -/
theorem accepts_headFlag {F' : List Char → Prop} (present : Bool)
    (hg : Accepts g L P F' E) (hF : ∀ v, F' v → F v) (hnone : ∀ v, E v → F v ∧ Rejects g v) :
    Accepts (optional g) (flag present L) (fun _ => True) F E :=
  (accepts_optional (fun _ : Unit => hg.front hF) hnone _).anyValue

/-- `TEMPORARY` stands in front of `TABLE`, or is left out there. -/
theorem accepts_temporaryWord (temporary : Bool) :
    Accepts temporaryWord (flag temporary (word "temporary" * blanks1)) (fun _ => True)
      (Begins ["temporary", "table"]) (Begins ["table"]) := by
  have hspace := accepts_blanks1 fun v (hv : Begins ["table"] v) => hv.headNot_isBlank (by decide)
  have hword := ((accepts_word (k := "temporary") (by decide)).behind
    fun v hv => hv.clear.1).seq hspace
  have hopens : Opens (seq (keyword "temporary") whitespace1) ["temporary"] :=
    (opens_keyword (by decide)).seq whitespace1
  refine accepts_headFlag temporary hword (fun v hv => hv.of_mem (by simp)) fun v hv => ⟨?_, ?_⟩
  · exact hv.of_mem (by simp)
  · exact hv.rejects hopens (by decide)

/-- The words between `CREATE` and the name. -/
theorem accepts_tableHead (temporary : Bool) :
    Accepts tableHead (blanks1 * (flag temporary (word "temporary" * blanks1) *
      (word "table" * blanks1))) (fun _ => True) (Next ["temporary", "table"] []) Named := by
  have hblanks := accepts_blanks1 fun v (hv : Named v) => hv.headNot_isBlank
  have htable := ((accepts_word (k := "table") (by decide)).behind fun v hv => hv.clear.1).seq
    hblanks
  have hfront := accepts_blanks1 fun v (hv : Begins ["temporary", "table"] v) =>
    hv.headNot_isBlank (by decide)
  have hall := hfront.seq ((accepts_temporaryWord temporary).seq htable)
  exact hall.anyValue.front fun v hv => ⟨hv.clear, .inl hv.2⟩

/-- The words in front of a name that may be left out. -/
def existsWords : Grammar (String × String) := seq (keywords ["if", "not", "exists"]) whitespace1

/-- Behind a name, no word stands in front of the parenthesis. -/
theorem firstWord_behind_name {e : List Char} (he : e = [] ∨ e = ['`']) (hv : Next [] ['('] v) :
    firstWord (trimStart (e ++ v)) = [] := by
  rcases he with rfl | rfl
  · exact hv.firstWord_eq_nil (List.forall_mem_singleton.2 (by decide))
  · have hblank : HeadNot isBlank (['`'] ++ v) := headNot_cons.2 (by decide)
    rw [trimStart_eq_self hblank]
    exact firstWord_eq_nil (headNot_cons.2 (by decide))

/-- A table that is called `IF` is no condition, since `NOT` does not follow. -/
theorem rejects_existsWords (n : Name) {u : List Char} (hu : u ∈ n.written)
    (hv : Next [] ['('] v) : Rejects existsWords (u ++ v) := by
  have hopens : Opens existsWords ["if"] := (opens_keywords (by decide) _).seq _
  obtain ⟨o, ho, _, ⟨_, rfl, e, he, rfl⟩, rfl⟩ := hu
  dsimp only
  rcases mem_tick ho with rfl | rfl
  · have hend := headNot_isWord_of_tick (mem_tick he) hv.1.1
    rw [List.nil_append, List.append_assoc]
    by_cases hw : n.text.map asciiLower = "if".toList
    · have hnot : Rejects (preceded whitespace1 (keywordParts ["not", "exists"])) (e ++ v) := by
        refine (opens_keywordParts (by decide) ["exists"]).behind_whitespace1 _ ?_
        rw [firstWord_behind_name (mem_tick he) hv]
        exact nil_not_mem_map_toList (by decide)
      have hword := reads_keyword (k := "if") (v := e ++ v) (by decide) hw hend
      exact (((hword.rejects_seq hnot).map _).map capitals).seq whitespace1
    · refine hopens _ ?_
      rw [firstWord_append n.isWord_of_mem hend]
      simpa using hw
  · refine hopens _ ?_
    have hword : HeadNot isWord (['`'] ++ (n.text ++ e) ++ v) := headNot_cons.2 (by decide)
    rw [firstWord_eq_nil hword]
    exact nil_not_mem_map_toList (by decide)

/-- The words in front of the name are there or left out, and the name is read either way. -/
theorem accepts_named (ifNotExists : Bool) (n : Name) {h : Grammar α} {M : Language Char}
    (hh : Accepts h M P (Next [] ['(']) E) :
    Accepts (pair Sql.ifNotExists (pair identifier h))
      (flag ifNotExists (words ["if", "not", "exists"] * blanks1) * (n.written * M))
      (fun value => value.2.1 = n.value ∧ P value.2.2) Named E := by
  have hname : Accepts identifier n.written (· = n.value) (fun v => Named v ∧ Rejects existsWords v)
      (Next [] ['(']) :=
    ((accepts_name n).behind fun v (hv : Next [] ['('] v) => hv.1).front_and fun u hu v hv =>
      rejects_existsWords n hu hv
  have hblanks := accepts_blanks1 fun v (hv : Named v ∧ Rejects existsWords v) =>
    hv.1.headNot_isBlank
  have hwords := accepts_words "if" ["not", "exists"] (by decide) (by decide)
  have hexists := (hwords.behind fun v hv => hv.clear.1).seq hblanks
  have hstart : ∀ v, Begins ["if"] v → Named v := by
    intro v hv
    obtain ⟨x, hx, hword⟩ := hv.exists_isWord (by decide)
    exact ⟨x, hx, .inl hword⟩
  have hflag := accepts_headFlag ifNotExists hexists hstart fun v hv => hv
  exact (hflag.pair (hname.pair hh)).value fun _ hv => hv.2

/-- The body between its parentheses, and what stands behind it. -/
theorem accepts_body {extended : Bool} (t : TableDecl)
    (ht : t.isExtended = true → extended = true) {h : Grammar α} {M : Language Char}
    (hh : Accepts h M P F E) :
    Accepts (map Prod.snd (pair (seq whitespace0 (seq (exactly "(") whitespace0))
      (pair (many1 (bodyLine extended))
        (map Prod.snd (pair (seq whitespace0 (exactly ")")) h)))))
      (blanks0 * (mark '(' * blanks0) *
        (joined (mark ',' * blanks0) LineDecl.written t.lines * (mark ')' * M)))
      (fun value => value.1.filterMap BodyLine.column? = t.lines.filterMap LineDecl.column? ∧
        P value.2) (Next [] ['(']) E := by
  have hlines := accepts_lines extended t.lines_ne_nil fun l hl hextended =>
    ht (List.any_eq_true.2 ⟨l, hl, hextended⟩)
  have hclose := ((accepts_close_mark (E := F)).pair hh).map (Q := P) Prod.snd fun _ hv => hv.2
  have hblanks := accepts_blanks0 fun v (hv : Named v) => hv.headNot_isBlank
  have hmark := (accepts_mark (s := "(") (m := '(') (by decide)).seq hblanks
  have hopen := (accepts_blanks0_mark (m := '(') (by decide)).seq hmark
  exact (hopen.pair (hlines.pair hclose)).map _ fun _ hv => hv.2

/-! ## Statements -/

/-- The whole statement, in front of anything. -/
theorem accepts_tableSchema {d : Dialect} (hd : d.relaxedOptions = false) (t : TableDecl)
    (ht : t.isExtended = true → d.extendedTypes = true) :
    Accepts (tableSchema d) (blanks0 * (t.head * (t.body * t.options))) (· = t.table)
      (fun _ => True) (fun _ => True) := by
  have hoptions : Accepts (tableOptions d.relaxedOptions) t.options (· = t.table.options)
      (fun _ => True) (fun _ => True) := by
    rw [hd]
    exact accepts_options t
  have hnamed := accepts_named t.ifNotExists t.name (accepts_body t ht hoptions)
  have hhead := (accepts_tableHead t.temporary).pair hnamed
  have hcreate := ((accepts_word (k := "create") (by decide)).behind
    fun v (hv : Next ["temporary", "table"] [] v) => hv.1.1).pair hhead
  have hblanks := accepts_blanks0 fun v (hv : Begins ["create"] v) =>
    hv.headNot_isBlank (by decide)
  have hstatement := hblanks.pair hcreate
  have hlanguage : blanks0 * (t.head * (t.body * t.options)) = blanks0 * (word "create" *
      (blanks1 * (flag t.temporary (word "temporary" * blanks1) * (word "table" * blanks1)) *
        (flag t.ifNotExists (words ["if", "not", "exists"] * blanks1) * (t.name.written *
          (blanks0 * (mark '(' * blanks0) * (joined (mark ',' * blanks0) LineDecl.written t.lines *
            (mark ')' * t.options))))))) := by
    simp only [TableDecl.head, TableDecl.body, mul_assoc]
  rw [hlanguage]
  refine ((hstatement.front fun _ _ => trivial).map (Q := fun s => s.table = t.table) _ ?_).map _
    fun s hs => hs
  rintro ⟨blanks, create, head, condition, name, lines, options⟩ ⟨-, -, -, rfl, hlines, rfl⟩
  have hcolumns : lines.filterMap BodyLine.column? = t.lines.filterMap LineDecl.column? := hlines
  simp only [CreateTable.table, Table.ofBody, hcolumns]
  rfl

/-- What is written behind a statement ends it. -/
theorem ends_of_mem {w : List Char}
    (hw : w ∈ (blanks0 * (1 + mark ';' * blanks0) : Language Char)) : Statement.Ends w := by
  obtain ⟨b, hb, e, he, rfl⟩ := hw
  refine Statement.ends_iff_trimStart.2 ?_
  dsimp only
  rw [trimStart_append hb]
  rcases he with rfl | ⟨_, rfl, b', hb', rfl⟩
  · exact .inl rfl
  · exact .inr ⟨b', hb', trimStart_eq_self (headNot_cons.2 (by decide))⟩

/-- **Completeness**: every statement that creates a table is read as its table, however it is
written, in each dialect that has its types. -/
theorem read_of_written (d : Dialect) (t : TableDecl)
    (ht : t.isExtended = true → d.extendedTypes = true) (text : List Char)
    (htext : text ∈ t.written) : Statement.read d text = Logged.pure t.table := by
  obtain ⟨u, hu, e, he, rfl⟩ := htext
  have hstrict := accepts_tableSchema (d := ⟨false, d.extendedTypes⟩) rfl t ht
  obtain ⟨-, table, htable, hread⟩ := hstrict u hu e trivial
  have hrun := hread (.start (u ++ e)) rfl
  have hend : Statement.Ends ((Cursor.start (u ++ e)).advance u.length).rest := by
    rw [Cursor.rest_advance_of_append (v := e) rfl]
    exact ends_of_mem he
  have hresult := Statement.result_read_eq_ok_iff.2 ⟨_, hrun, hend⟩
  have hbelow : Dialect.Below ⟨false, d.extendedTypes⟩ d :=
    ⟨fun h => absurd h (by simp), fun h => h⟩
  rw [← htable]
  exact Statement.read_of_below hbelow hresult

/-! ## A statement with lines of both kinds -/

/-- A text is cut in two. -/
theorem mem_mul_of_append {M : Language Char} (x y : String) {s : String} (hs : x ++ y = s)
    (hx : x.toList ∈ L) (hy : y.toList ∈ M) : s.toList ∈ L * M := by
  rw [← hs, String.toList_append]
  exact append_mem_mul hx hy

/-- Where blanks may stand, none need to. -/
theorem nil_mem_blanks0 : [] ∈ blanks0 := List.forall_mem_nil _

theorem mem_blanks0_mul {w : List Char} (hw : w ∈ L) : w ∈ blanks0 * L :=
  append_mem_mul nil_mem_blanks0 hw

theorem mem_mul_blanks0 {w : List Char} (hw : w ∈ L) : w ∈ L * blanks0 :=
  ⟨w, hw, [], nil_mem_blanks0, List.append_nil w⟩

theorem space_mem_blanks0 : " ".toList ∈ blanks0 := List.forall_mem_singleton.2 (by decide)

/-- Where blanks must stand, one is enough. -/
theorem space_mem_blanks1 : " ".toList ∈ blanks1 := ⟨List.cons_ne_nil _ _, space_mem_blanks0⟩

/-- A keyword is written in any letter case. -/
theorem mem_word {k s : String} (hs : s.toList.map asciiLower = k.toList) : s.toList ∈ word k := hs

/-- One digit is a number. -/
theorem digit_mem_numeral (c : Char) (hc : isDigit c = true) :
    [c] ∈ numeral (Nat.ofDigitChars 10 [c] 0) :=
  ⟨List.cons_ne_nil c [], List.forall_mem_singleton.2 hc, by simp [maxDigits], rfl⟩

/-- A name may be written without backticks. -/
theorem Name.text_mem_written (n : Name) : n.text ∈ n.written :=
  ⟨[], .inl rfl, n.text, ⟨n.text, rfl, [], .inl rfl, List.append_nil _⟩, rfl⟩

/-- The value of an option may be written right behind an equals sign. -/
theorem equals_mem_given {w : List Char} (hw : w ∈ L) : '=' :: w ∈ given L := by
  have hvalue : '=' :: w ∈ blanks0 * (mark '=' * (blanks0 * L)) :=
    mem_blanks0_mul (append_mem_mul (a := ['=']) rfl (mem_blanks0_mul hw))
  refine ⟨.inr hvalue, ?_⟩
  rintro _ ⟨⟩
  decide

/-- A name of one character. -/
def letter (c : Char) (hc : isWord c = true) : Name :=
  ⟨[c], List.cons_ne_nil c [], List.forall_mem_singleton.2 hc⟩

/-- A column with a width, a modifier, a default and a comment. -/
def countColumn : ColumnDecl where
  name := letter 'a' (by decide)
  type := .integer .int (some 3) true false
  default := some (.integer 7)
  comment := some ['y']

theorem countColumn_mem_written :
    "a int(3) Unsigned DEFAULT 7 COMMENT 'y'".toList ∈ countColumn.written := by
  have hname : "a".toList ∈ countColumn.heading := Name.text_mem_written _
  have hdigit : "3)".toList ∈ numeral 3 * (blanks0 * mark ')') :=
    mem_mul_of_append "3" ")" rfl (digit_mem_numeral '3' (by decide)) (mem_blanks0_mul rfl)
  have hsize : "(3)".toList ∈ size 3 :=
    mem_blanks0_mul (mem_mul_of_append "(" "3)" rfl rfl (mem_blanks0_mul hdigit))
  have hmodifier : " Unsigned".toList ∈ blanks1 * word "unsigned" :=
    mem_mul_of_append " " "Unsigned" rfl space_mem_blanks1 (mem_word rfl)
  have hmodifiers : " Unsigned".toList ∈ flag true (blanks1 * word "unsigned") *
      flag false (blanks1 * word "zerofill") :=
    mem_mul_of_append " Unsigned" "" rfl hmodifier nil_mem_one
  have htype : "int(3) Unsigned".toList ∈ countColumn.type.written :=
    mem_mul_of_append "int" "(3) Unsigned" rfl (mem_word rfl)
      (mem_mul_of_append "(3)" " Unsigned" rfl hsize hmodifiers)
  have hvalue : " 7".toList ∈ blanks1 * numeral 7 :=
    mem_mul_of_append " " "7" rfl space_mem_blanks1 (digit_mem_numeral '7' (by decide))
  have hdefault : " DEFAULT 7".toList ∈ (DefaultDecl.integer 7).written :=
    mem_mul_of_append " " "DEFAULT 7" rfl space_mem_blanks1
      (mem_mul_of_append "DEFAULT" " 7" rfl (mem_word rfl) hvalue)
  have hquoted : "'y'".toList ∈ quotedText ['y'] := ⟨'\'', ['y'], rfl, .plain rfl .nil, rfl⟩
  have hstring : " 'y'".toList ∈ blanks0 * quotedText ['y'] :=
    mem_mul_of_append " " "'y'" rfl space_mem_blanks0 hquoted
  have hcomment : " COMMENT 'y'".toList ∈ commentText ['y'] :=
    mem_mul_of_append " " "COMMENT 'y'" rfl space_mem_blanks1
      (mem_mul_of_append "COMMENT" " 'y'" rfl (mem_word rfl) hstring)
  have hclauses : " DEFAULT 7 COMMENT 'y'".toList ∈
      clause countColumn.nullability Nullability.written *
        clause countColumn.default DefaultDecl.written *
          clause countColumn.comment commentText :=
    mem_mul_of_append " DEFAULT 7" " COMMENT 'y'" rfl
      (mem_mul_of_append "" " DEFAULT 7" rfl nil_mem_one hdefault) hcomment
  have hspaced : " int(3) Unsigned".toList ∈ blanks1 * countColumn.type.written :=
    mem_mul_of_append " " "int(3) Unsigned" rfl space_mem_blanks1 htype
  exact mem_mul_of_append "a" " int(3) Unsigned DEFAULT 7 COMMENT 'y'" rfl hname
    (mem_mul_of_append " int(3) Unsigned" " DEFAULT 7 COMMENT 'y'" rfl hspaced hclauses)

/-- A column of an extended type that may not be null. -/
def textColumn : ColumnDecl where
  name := letter 'b' (by decide)
  type := .text .text none none
  nullability := some .notNull

theorem textColumn_mem_written : "b Text NOT NULL".toList ∈ textColumn.written := by
  have hname : "b".toList ∈ textColumn.heading := Name.text_mem_written _
  have htype : "Text".toList ∈ textColumn.type.written :=
    mem_mul_of_append "Text" "" rfl (mem_word rfl)
      (mem_mul_of_append "" "" rfl nil_mem_one nil_mem_one)
  have hspaced : " Text".toList ∈ blanks1 * textColumn.type.written :=
    mem_mul_of_append " " "Text" rfl space_mem_blanks1 htype
  have hnull : " NULL".toList ∈ blanks1 * word "null" :=
    mem_mul_of_append " " "NULL" rfl space_mem_blanks1 (mem_word rfl)
  have hnotNull : " NOT NULL".toList ∈ Nullability.notNull.written :=
    mem_mul_of_append " " "NOT NULL" rfl space_mem_blanks1
      (mem_mul_of_append "NOT" " NULL" rfl (mem_word rfl) hnull)
  have hclauses : " NOT NULL".toList ∈
      clause textColumn.nullability Nullability.written *
        clause textColumn.default DefaultDecl.written *
          clause textColumn.comment commentText :=
    mem_mul_of_append " NOT NULL" "" rfl
      (mem_mul_of_append " NOT NULL" "" rfl hnotNull nil_mem_one) nil_mem_one
  exact mem_mul_of_append "b" " Text NOT NULL" rfl hname
    (mem_mul_of_append " Text" " NOT NULL" rfl hspaced hclauses)

/-- A primary key of two columns. -/
def pairIndex : IndexDecl where
  kind := some .primary
  parts := [{ name := letter 'a' (by decide) },
    { name := letter 'b' (by decide), order := some .desc }]
  parts_ne_nil := List.cons_ne_nil _ _

theorem pairIndex_mem_written : "PRIMARY KEY (a, b Desc)".toList ∈ pairIndex.written := by
  have hkind : "PRIMARY ".toList ∈ word "primary" * blanks1 :=
    mem_mul_of_append "PRIMARY" " " rfl (mem_word rfl) space_mem_blanks1
  have hword : "KEY".toList ∈ word "key" + word "index" := .inl (mem_word rfl)
  have hkey : "KEY".toList ∈ (word "key" + word "index") * 1 :=
    mem_mul_of_append "KEY" "" rfl hword nil_mem_one
  have hnone : "".toList ∈ 1 * ((1 : Language Char) * blanks0) :=
    mem_mul_of_append "" "" rfl nil_mem_one
      (mem_mul_of_append "" "" rfl nil_mem_one nil_mem_blanks0)
  have hfirst : "a".toList ∈ IndexPart.written { name := letter 'a' (by decide) } :=
    mem_blanks0_mul (mem_mul_of_append "a" "" rfl (Name.text_mem_written _) hnone)
  have horder : " Desc".toList ∈ blanks1 * word "desc" :=
    mem_mul_of_append " " "Desc" rfl space_mem_blanks1 (mem_word rfl)
  have hordered : " Desc".toList ∈ 1 * (blanks1 * word "desc" * blanks0) :=
    mem_mul_of_append "" " Desc" rfl nil_mem_one
      (mem_mul_blanks0 horder)
  have hsecond : " b Desc".toList ∈
      IndexPart.written { name := letter 'b' (by decide), order := some .desc } :=
    mem_mul_of_append " " "b Desc" rfl space_mem_blanks0
      (mem_mul_of_append "b" " Desc" rfl (Name.text_mem_written _) hordered)
  have hparts : "a, b Desc".toList ∈ joined (mark ',') IndexPart.written pairIndex.parts :=
    mem_mul_of_append "a," " b Desc" rfl (mem_mul_of_append "a" "," rfl hfirst rfl) hsecond
  have hlist : "(a, b Desc)".toList ∈
      mark '(' * (joined (mark ',') IndexPart.written pairIndex.parts * mark ')') :=
    mem_mul_of_append "(" "a, b Desc)" rfl rfl (mem_mul_of_append "a, b Desc" ")" rfl hparts rfl)
  have hspaced : " (a, b Desc)".toList ∈
      blanks0 * (mark '(' * (joined (mark ',') IndexPart.written pairIndex.parts * mark ')')) :=
    mem_mul_of_append " " "(a, b Desc)" rfl space_mem_blanks0 hlist
  exact mem_mul_of_append "PRIMARY " "KEY (a, b Desc)" rfl hkind
    (mem_mul_of_append "KEY" " (a, b Desc)" rfl hkey
      (mem_mul_of_append " (a, b Desc)" "" rfl hspaced nil_mem_one))

/-- A table with two columns and their index. -/
def smallTable : TableDecl where
  ifNotExists := true
  name := letter 't' (by decide)
  lines := [.column countColumn, .column textColumn, .index pairIndex]
  lines_ne_nil := List.cons_ne_nil _ _
  engine := letter 'e' (by decide)
  charset := letter 'u' (by decide)
  collate := letter 'b' (by decide)
  comment := ['x']

theorem smallTable_head : "CREATE TABLE if not exists t".toList ∈ smallTable.head := by
  have htable : "TABLE ".toList ∈
      flag false (word "temporary" * blanks1) * (word "table" * blanks1) :=
    mem_mul_of_append "" "TABLE " rfl nil_mem_one
      (mem_mul_of_append "TABLE" " " rfl (mem_word rfl) space_mem_blanks1)
  have hcreate : " TABLE ".toList ∈ blanks1 *
      (flag false (word "temporary" * blanks1) * (word "table" * blanks1)) :=
    mem_mul_of_append " " "TABLE " rfl space_mem_blanks1 htable
  have hnot : "not exists".toList ∈ words ["not", "exists"] :=
    mem_mul_of_append "not" " exists" rfl (mem_word rfl)
      (mem_mul_of_append " " "exists" rfl space_mem_blanks1 (mem_word rfl))
  have hwords : "if not exists".toList ∈ words ["if", "not", "exists"] :=
    mem_mul_of_append "if" " not exists" rfl (mem_word rfl)
      (mem_mul_of_append " " "not exists" rfl space_mem_blanks1 hnot)
  have hcondition : "if not exists ".toList ∈
      flag true (words ["if", "not", "exists"] * blanks1) :=
    mem_mul_of_append "if not exists" " " rfl hwords space_mem_blanks1
  exact mem_mul_of_append "CREATE" " TABLE if not exists t" rfl (mem_word rfl)
    (mem_mul_of_append " TABLE " "if not exists t" rfl hcreate
      (mem_mul_of_append "if not exists " "t" rfl hcondition (Name.text_mem_written _)))

/-- The lines of the table, as they are written. -/
def smallLines : String :=
  "a int(3) Unsigned DEFAULT 7 COMMENT 'y'" ++ ", " ++
    ("b Text NOT NULL" ++ ", " ++ "PRIMARY KEY (a, b Desc)")

theorem smallLines_mem_written :
    smallLines.toList ∈ joined (mark ',' * blanks0) LineDecl.written smallTable.lines := by
  have hcomma : ", ".toList ∈ mark ',' * blanks0 :=
    mem_mul_of_append "," " " rfl rfl space_mem_blanks0
  have hcount : "a int(3) Unsigned DEFAULT 7 COMMENT 'y'".toList ∈
      (LineDecl.column countColumn).written :=
    mem_mul_blanks0 countColumn_mem_written
  have htext : "b Text NOT NULL".toList ∈ (LineDecl.column textColumn).written :=
    mem_mul_blanks0 textColumn_mem_written
  have hindex : "PRIMARY KEY (a, b Desc)".toList ∈ (LineDecl.index pairIndex).written :=
    mem_mul_blanks0 pairIndex_mem_written
  have hrest := mem_mul_of_append _ _ rfl (mem_mul_of_append _ _ rfl htext hcomma) hindex
  exact mem_mul_of_append _ _ rfl (mem_mul_of_append _ _ rfl hcount hcomma) hrest

theorem smallTable_options :
    " ENGINE=e DEFAULT CHARSET=u COLLATE=b COMMENT='x'".toList ∈ smallTable.options := by
  have hengine : " ENGINE=e".toList ∈ blanks0 * (word "engine" * given smallTable.engine.written) :=
    mem_mul_of_append " " "ENGINE=e" rfl space_mem_blanks0
      (mem_mul_of_append "ENGINE" "=e" rfl (mem_word rfl)
        (equals_mem_given (Name.text_mem_written _)))
  have hdefault : "DEFAULT ".toList ∈ defaultWord :=
    .inr (mem_mul_of_append "DEFAULT" " " rfl (mem_word rfl) space_mem_blanks1)
  have hcharsetWord : "CHARSET".toList ∈ charsetWord := .inr (mem_word rfl)
  have hcharset : "DEFAULT CHARSET=u".toList ∈
      defaultWord * charsetWord * given smallTable.charset.written :=
    mem_mul_of_append "DEFAULT CHARSET" "=u" rfl
      (mem_mul_of_append "DEFAULT " "CHARSET" rfl hdefault hcharsetWord)
      (equals_mem_given (Name.text_mem_written _))
  have hnone : "".toList ∈ defaultWord := .inl rfl
  have hcollate : "COLLATE=b".toList ∈
      defaultWord * word "collate" * given smallTable.collate.written :=
    mem_mul_of_append "COLLATE" "=b" rfl
      (mem_mul_of_append "" "COLLATE" rfl hnone (mem_word rfl))
      (equals_mem_given (Name.text_mem_written _))
  have hquoted : "'x'".toList ∈ quotedText ['x'] := ⟨'\'', ['x'], rfl, .plain rfl .nil, rfl⟩
  have hcomment : "COMMENT='x'".toList ∈ word "comment" * given (quotedText smallTable.comment) :=
    mem_mul_of_append "COMMENT" "='x'" rfl (mem_word rfl) (equals_mem_given hquoted)
  have hcharset := mem_mul_of_append " " "DEFAULT CHARSET=u" rfl space_mem_blanks1 hcharset
  have hcollate := mem_mul_of_append " " "COLLATE=b" rfl space_mem_blanks1 hcollate
  have hcomment := mem_mul_of_append " " "COMMENT='x'" rfl space_mem_blanks1 hcomment
  have hlast := mem_mul_of_append " COLLATE=b" " COMMENT='x'" rfl hcollate hcomment
  have hrest := mem_mul_of_append " DEFAULT CHARSET=u" " COLLATE=b COMMENT='x'" rfl hcharset hlast
  exact mem_mul_of_append " ENGINE=e" " DEFAULT CHARSET=u COLLATE=b COMMENT='x'" rfl hengine hrest

/-- One way to write the table. -/
def smallText : String :=
  "CREATE TABLE if not exists t" ++ (" (" ++ (smallLines ++ ")") ++
    " ENGINE=e DEFAULT CHARSET=u COLLATE=b COMMENT='x'") ++ ";"

/-- The text is made of the texts of its head, its lines and its options. -/
theorem smallText_mem_written : smallText.toList ∈ smallTable.written := by
  have hopen : " (".toList ∈ blanks0 * (mark '(' * blanks0) :=
    mem_mul_of_append " " "(" rfl space_mem_blanks0
      (mem_mul_blanks0 rfl)
  have hbody : (" (" ++ (smallLines ++ ")")).toList ∈ smallTable.body :=
    mem_mul_of_append " (" _ rfl hopen
      (mem_mul_of_append smallLines ")" rfl smallLines_mem_written rfl)
  have hend : ";".toList ∈ blanks0 * (1 + mark ';' * blanks0) :=
    mem_blanks0_mul (.inr (mem_mul_blanks0 rfl))
  have hstatement := mem_mul_of_append _ _ rfl smallTable_head
    (mem_mul_of_append _ _ rfl hbody smallTable_options)
  exact mem_mul_of_append _ _ rfl (mem_blanks0_mul hstatement) hend

theorem read_of_written_smallText :
    smallText.toList ∈ smallTable.written ∧
      Statement.read { extendedTypes := true } smallText.toList = Logged.pure smallTable.table :=
  ⟨smallText_mem_written,
    read_of_written { extendedTypes := true } smallTable (fun _ => rfl) _ smallText_mem_written⟩

end TableDdl.Written
