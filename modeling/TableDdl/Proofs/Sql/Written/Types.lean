import TableDdl.Proofs.Sql.Choices
import TableDdl.Proofs.Sql.Written.Tokens

/-!
# Written types are accepted

A type ends where none of its own clauses comes next.  What may come next behind a type are the
words `afterType` and the marks `lineMarks`, and each clause of a type adds its own words.
-/

namespace TableDdl.Written

open Grammar Text Sql

variable {v : List Char} {E F : List Char → Prop}

/-- The words that may follow a type. -/
def afterType : List String := ["not", "null", "default", "auto_increment", "comment"]

/-- The marks that end a line. -/
def lineMarks : List Char := [',', ')']

/-- The marks that end a line are no word characters. -/
theorem mem_lineMarks : ∀ m ∈ lineMarks, isWord m = false :=
  List.forall_mem_cons.2 ⟨by decide, List.forall_mem_singleton.2 (by decide)⟩

theorem Next.lineMarks {m : Char} (hv : Next [] [m] v) (hm : m ∈ lineMarks) :
    Next [] lineMarks v :=
  hv.mono (List.Subset.refl _) fun _ hx => List.mem_singleton.1 hx ▸ hm

/-! ## Sizes -/

/-- The parenthesis that closes something, behind blanks. -/
theorem accepts_close {E : List Char → Prop} :
    Accepts (seq whitespace0 (exactly ")")) (blanks0 * mark ')') (fun _ => True) (Next [] [')'])
      E :=
  ((accepts_blanks0_mark (by decide)).seq (accepts_mark (by decide))).anyValue

/-- A size is accepted with blanks anywhere in it and in front of it. -/
theorem accepts_size (n : Nat) : Accepts typeSize (size n) (· = n) (Next [] ['(']) E := by
  have hdigits := (accepts_numeral n).behind fun v (hv : Next [] [')'] v) =>
    headNot_isDigit_of_isWord hv.1.1
  have hnumber := hdigits.followedBy (accepts_close (E := E))
  have hblanks := accepts_blanks0 fun v (hv : Digit v) => hv.headNot_isBlank
  have hinner := hblanks.preceded hnumber
  have hopen := (accepts_mark (s := "(") (m := '(') (by decide)).preceded hinner
  exact (accepts_blanks0_mark (by decide)).preceded hopen

/-- A size begins with a parenthesis. -/
theorem rejects_typeSize (hv : (trimStart v).head? ≠ some '(') : Rejects typeSize v :=
  rejects_behind_whitespace0 ((rejects_exactly_singleton (by decide) hv).preceded _)

/-- A size, if there is one, in front of words and marks that are none. -/
theorem accepts_size? (ks : List String) (ms : List Char) (hks : "" ∉ ks) (hms : '(' ∉ ms)
    (o : Option Nat) :
    Accepts (optional typeSize) (clause o size) (Option.Rel (fun n a => a = n) o)
      (Next ks ('(' :: ms)) (Next ks ms) := by
  refine accepts_optional (fun n => ?_) (fun v hv => ⟨?_, ?_⟩) o
  · exact (accepts_size n).front fun v hv => hv.mono (List.nil_subset _) (by simp)
  · exact hv.mono (List.Subset.refl _) (List.subset_cons_self _ _)
  · exact rejects_typeSize (hv.head?_ne hks (by decide) hms)

/-! ## Clauses of types -/

/-- One modifier, which has its blanks in front. -/
theorem accepts_modifier {k : String} (hk : k ∈ ["unsigned", "zerofill"]) :
    Accepts typeModifier (blanks1 * word k) (fun _ => True) (Next [k] []) Clear := by
  have hall : ∀ l ∈ ["unsigned", "zerofill"], "" ∉ [l] := by decide
  have hword := accepts_keyword_of_mem hk (by decide) (by decide)
  exact accepts_behind_blanks1 (hword.behind fun v hv => hv.1) (hall k hk)

/-- Two modifiers.  The first one that is there is read as the first, `ZEROFILL` too. -/
theorem accepts_modifiers (ks : List String) {ms : List Char}
    (hd : ∀ l ∈ ks, l ∉ ["unsigned", "zerofill"]) (hms : ∀ m ∈ ms, isWord m = false)
    (unsigned zerofill : Bool) :
    Accepts (seq (optional typeModifier) (optional typeModifier))
      (flag unsigned (blanks1 * word "unsigned") * flag zerofill (blanks1 * word "zerofill"))
      (fun _ => True) (Next ("unsigned" :: "zerofill" :: ks) ms) (Next ks ms) := by
  have hnone := accepts_none opens_typeModifier hd (by decide) hms
  have hsome {k : String} (hk : k ∈ ["unsigned", "zerofill"]) :
      Accepts (optional typeModifier) (blanks1 * word k) (fun _ => True)
        (Next ("unsigned" :: "zerofill" :: ks) ms) Clear := by
    refine (accepts_modifier hk).optional.front fun v hv => hv.mono ?_ (List.nil_subset _)
    exact List.cons_subset.2 ⟨List.mem_append_left ks hk, List.nil_subset _⟩
  have hlast {k : String} (hk : k ∈ ["unsigned", "zerofill"]) :=
    (hsome hk).behind fun v (hv : Next ks ms v) => hv.1
  have hunsigned := (hsome (k := "unsigned") (by decide)).behind
    fun v (hv : Next ("unsigned" :: "zerofill" :: ks) ms v) => hv.1
  have hboth := hunsigned.seq (hlast (k := "zerofill") (by decide))
  have hfirst {k : String} (hk : k ∈ ["unsigned", "zerofill"]) := (hlast hk).seq hnone
  have hneither := (hnone.seq hnone).front fun v (hv : Next ks ms v) =>
    (hv.mono (fun l hl => List.mem_append_right ["unsigned", "zerofill"] hl) (List.Subset.refl _) :
      Next ("unsigned" :: "zerofill" :: ks) ms v)
  cases unsigned <;> cases zerofill
  · exact hneither.anyValue
  · have hswap : flag false (blanks1 * word "unsigned") * flag true (blanks1 * word "zerofill") =
        blanks1 * word "zerofill" * 1 := (one_mul _).trans (mul_one _).symm
    rw [hswap]
    exact (hfirst (by decide)).anyValue
  · exact (hfirst (k := "unsigned") (by decide)).anyValue
  · exact hboth.anyValue

/-- Both ways to introduce a character set are accepted, and told apart by their words. -/
theorem accepts_charsetWord {E : List Char → Prop} (hE : ∀ v, E v → HeadNot isWord v) :
    Accepts charsetWords charsetWord (fun _ => True) (Begins ["character", "charset"]) E := by
  have hcharacter : Opens (keywords ["character", "set"]) ["character"] :=
    opens_keywords (by decide) _
  have hcharset : Opens (keyword "charset") ["charset"] := opens_keyword (by decide)
  have hpair : [keywords ["character", "set"], keyword "charset"].Pairwise Apart :=
    pairwise_apart (.cons hcharacter (.cons hcharset .nil)) (by decide)
  rintro u (hu | hu) v hv
  · have hwords := accepts_words "character" ["set"] (by decide) (by decide)
    obtain ⟨hbegins, hread⟩ := hwords.alternatives_of_pairwise hpair (by simp) u hu v (hE v hv)
    exact ⟨hbegins.mono (by simp), hread⟩
  · have hword := accepts_word (k := "charset") (by decide)
    obtain ⟨hbegins, hread⟩ := hword.alternatives_of_pairwise hpair (by simp) u hu v (hE v hv)
    exact ⟨hbegins.mono (by simp), hread⟩

/-- A keyword and a name, behind blanks. -/
theorem accepts_wordName {g : Grammar String} {L : Language Char} {ks : List String} {n : Name}
    (hks : "" ∉ ks)
    (hg : Accepts g L (fun _ => True) (Begins ks) (HeadNot isWord)) :
    Accepts (preceded whitespace1 (preceded g (preceded whitespace1 identifier)))
      (blanks1 * (L * (blanks1 * n.written))) (· = n.value) (Next ks []) Clear := by
  have hblanks := accepts_blanks1 fun v (hv : Named v) => hv.headNot_isBlank
  have hname := hblanks.preceded (accepts_name n)
  have hword := hg.behind fun v (hv : Spaced Named v) => hv.clear.1
  exact accepts_behind_blanks1 (hword.preceded hname) hks

/-- The collation of a type may be left out where no other one comes next. -/
theorem accepts_typeCollate? (ks : List String) {ms : List Char}
    (hd : ∀ k ∈ ks, k ∉ ["collate"]) (hms : ∀ m ∈ ms, isWord m = false) (o : Option Name) :
    Accepts (optional Sql.typeCollate) (clause o Written.typeCollate)
      (Option.Rel (fun n a => a = n.value) o) (Next ("collate" :: ks) ms) (Next ks ms) := by
  have hsome (n : Name) : Accepts Sql.typeCollate (Written.typeCollate n) (· = n.value)
      (Next ["collate"] []) (Next ks ms) := by
    have hname := accepts_wordName (n := n) (by decide) (accepts_word (k := "collate") (by decide))
    exact hname.behind fun v hv => hv.1
  exact accepts_clause? ks opens_typeCollate hd (by decide) hms hsome o

theorem accepts_typeCharset? (ks : List String) {ms : List Char}
    (hd : ∀ k ∈ ks, k ∉ ["character", "charset"]) (hms : ∀ m ∈ ms, isWord m = false)
    (o : Option Name) :
    Accepts (optional Sql.typeCharset) (clause o Written.typeCharset)
      (Option.Rel (fun n a => a = n.value) o) (Next ("character" :: "charset" :: ks) ms)
      (Next ks ms) := by
  have hsome (n : Name) : Accepts Sql.typeCharset (Written.typeCharset n) (· = n.value)
      (Next ["character", "charset"] []) (Next ks ms) := by
    have hname := accepts_wordName (n := n) (by decide) (accepts_charsetWord fun _ hv => hv)
    exact hname.behind fun v hv => hv.1
  exact accepts_clause? ks opens_typeCharset hd (by decide) hms hsome o

/-! ## Types -/

/-- Neither the width nor the words behind it count. -/
theorem accepts_integer (type : IntType) (width : Option Nat) (unsigned zerofill : Bool) :
    Accepts someInt (TypeDecl.integer type width unsigned zerofill).written
      (· = (TypeDecl.integer type width unsigned zerofill).dataType) (Begins [type.keyword])
      (Next afterType lineMarks) := by
  have hentry : (type.keyword, type.kind) ∈ intKeywords := by cases type <;> decide
  have hkind : Accepts intKind (word type.keyword) (· = type.kind) (Begins [type.keyword])
      (HeadNot isWord) := accepts_wordChoice hentry (by decide) (by decide)
  have hmodifiers := accepts_modifiers afterType (by decide) mem_lineMarks unsigned zerofill
  have hwidth := accepts_size? ("unsigned" :: "zerofill" :: afterType) lineMarks
    (by decide) (by decide) width
  have hall := (hkind.behind fun v hv => hv.1.1).seq (hwidth.seq hmodifiers)
  refine hall.map _ ?_
  rintro ⟨kind, rest⟩ ⟨rfl, -⟩
  rfl

/-- A size within its limit is taken over. -/
theorem sizedWithin_eq {kind : TypeKind} {limit n : Nat} (hn : n ≤ limit) :
    sizedWithin kind limit n = some ⟨kind, n⟩ := by
  rw [sizedWithin, if_neg (by omega)]

/-- The words that may follow the character set of a type. -/
theorem accepts_charsetCollate (charset collate : Option Name) :
    Accepts (seq (optional Sql.typeCharset) (optional Sql.typeCollate))
      (clause charset Written.typeCharset * clause collate Written.typeCollate) (fun _ => True)
      (Next ("character" :: "charset" :: "collate" :: afterType) lineMarks)
      (Next afterType lineMarks) := by
  have hcollate := accepts_typeCollate? afterType (by decide) mem_lineMarks collate
  have hcharset := accepts_typeCharset? ("collate" :: afterType) (by decide) mem_lineMarks
    charset
  exact (hcharset.seq hcollate).anyValue

/-- The width counts, and the character set and the collation do not. -/
theorem accepts_varchar {width : Nat} (hwidth : width ≤ maxTypeWidth)
    (charset collate : Option Name) :
    Accepts varchar (TypeDecl.varchar width hwidth charset collate).written
      (· = (TypeDecl.varchar width hwidth charset collate).dataType) (Begins ["varchar"])
      (Next afterType lineMarks) := by
  have hword := (accepts_word (k := "varchar") (by decide)).behind
    fun v (hv : Next [] ['('] v) => hv.1.1
  have hsize := (accepts_size width).seq (accepts_charsetCollate charset collate)
  refine (hword.seq hsize).refine ?_
  rintro ⟨word, n, rest⟩ ⟨-, rfl, -⟩
  exact ⟨_, rfl, sizedWithin_eq hwidth⟩

/-- A precision that is not given is zero. -/
theorem accepts_datetime {precision : Option Nat} (hprecision : precision.getD 0 ≤ maxTypeWidth) :
    Accepts datetime (TypeDecl.datetime precision hprecision).written
      (· = (TypeDecl.datetime precision hprecision).dataType) (Begins ["datetime"])
      (Next afterType lineMarks) := by
  have hword := (accepts_word (k := "datetime") (by decide)).behind
    fun v (hv : Next afterType ('(' :: lineMarks) v) => hv.1.1
  have hsize := accepts_size? afterType lineMarks (by decide) (by decide) precision
  refine (hword.seq hsize).refine ?_
  rintro ⟨word, found⟩ ⟨-, hfound⟩
  have heq : found = precision := by cases hfound <;> simp_all
  subst heq
  exact ⟨_, rfl, sizedWithin_eq hprecision⟩

/-- Only the precision counts, and the scale is dropped. -/
theorem accepts_decimal {precision : Nat} (hprecision : precision ≤ maxDecimalPrecision)
    (scale : Option Nat) :
    Accepts decimal (TypeDecl.decimal precision hprecision scale).written
      (· = (TypeDecl.decimal precision hprecision scale).dataType) (Begins ["decimal"])
      (Next afterType lineMarks) := by
  have hdigit (n : Nat) := (accepts_numeral n).behind fun v (hv : Next [] [',', ')'] v) =>
    headNot_isDigit_of_isWord hv.1.1
  have hblanks := accepts_blanks0 fun v (hv : Digit v) => hv.headNot_isBlank
  have hscale : Accepts (optional (preceded whitespace0 (preceded (exactly ",")
        (preceded whitespace0 unsignedInteger))))
      (clause scale fun s => blanks0 * (mark ',' * (blanks0 * numeral s)))
      (Option.Rel (fun s a => a = s) scale) (Next [] [',', ')']) (Next [] [')']) := by
    refine accepts_optional (fun s => ?_) (fun v hv => ⟨?_, ?_⟩) scale
    · have hlast := (hdigit s).behind fun v (hv : Next [] [')'] v) => hv.mono (by simp) (by simp)
      have hnumber := hblanks.preceded hlast
      have hmark := (accepts_mark (s := ",") (m := ',') (by decide)).preceded hnumber
      have hcomma := (accepts_blanks0_mark (by decide)).preceded hmark
      exact hcomma.front fun v hv => hv.mono (by simp) (by simp)
    · exact hv.mono (by simp) (by simp)
    · have hne := hv.head?_ne (by simp) (x := ',') (by decide) (by decide)
      have hmark := rejects_exactly_singleton (s := ",") (by decide) hne
      exact rejects_behind_whitespace0 (hmark.preceded _)
  have hclose := hscale.seq (accepts_close (E := Next afterType lineMarks))
  have hbehind := (hdigit precision).seq hclose
  have hopen := (accepts_mark (s := "(") (m := '(') (by decide)).seq hblanks
  have hspaced := (accepts_blanks0_mark (by decide)).seq hopen
  have hword := (accepts_word (k := "decimal") (by decide)).behind
    fun v (hv : Next [] ['('] v) => hv.1.1
  refine ((hword.seq hspaced).seq hbehind).refine ?_
  rintro ⟨words, n, rest⟩ ⟨-, rfl, -⟩
  exact ⟨_, rfl, sizedWithin_eq hprecision⟩

theorem accepts_text (type : TextType) (charset collate : Option Name) :
    Accepts textType (TypeDecl.text type charset collate).written
      (· = (TypeDecl.text type charset collate).dataType) (Begins [type.keyword])
      (Next afterType lineMarks) := by
  have hentry : (type.keyword, type.kind) ∈ [("text", .text), ("bigtext", .bigText)] := by
    cases type <;> decide
  have hkind : Accepts textKind (word type.keyword) (· = type.kind) (Begins [type.keyword])
      (HeadNot isWord) := accepts_wordChoice hentry (by decide) (by decide)
  have hall := (hkind.behind fun v hv => hv.1.1).seq (accepts_charsetCollate charset collate)
  refine hall.map _ ?_
  rintro ⟨kind, rest⟩ ⟨rfl, -⟩
  rfl

/-- **Types**: every type is read, where its clauses cannot go on and, for an extended type, where
these are read at all. -/
theorem accepts_dataType {extended : Bool} (t : TypeDecl)
    (ht : t.isExtended = true → extended = true) :
    Accepts (dataType extended) t.written (· = t.dataType) (Begins typeWords)
      (Next afterType lineMarks) := by
  have hchoice {g : Grammar DataType} {k : String} (hmem : g ∈ dataTypes extended)
      (hg : Accepts g t.written (· = t.dataType) (Begins [k]) (Next afterType lineMarks))
      (hk : k ∈ typeWords) :
      Accepts (dataType extended) t.written (· = t.dataType) (Begins typeWords)
        (Next afterType lineMarks) :=
    (hg.alternatives_of_pairwise (pairwise_dataTypes extended) hmem).front
      fun v hv => hv.of_mem hk
  cases t with
  | integer type width unsigned zerofill =>
      exact hchoice (by simp [dataTypes]) (accepts_integer type width unsigned zerofill)
        (by cases type <;> decide)
  | varchar width hwidth charset collate =>
      exact hchoice (by simp [dataTypes]) (accepts_varchar hwidth charset collate) (by decide)
  | datetime precision hprecision =>
      exact hchoice (by simp [dataTypes]) (accepts_datetime hprecision) (by decide)
  | decimal precision hprecision scale =>
      exact hchoice (by simp [dataTypes]) (accepts_decimal hprecision scale) (by decide)
  | text type charset collate =>
      obtain rfl : extended = true := ht rfl
      exact hchoice (by simp [dataTypes]) (accepts_text type charset collate)
        (by cases type <;> decide)

end TableDdl.Written
