import TableDdl.Proofs.Sql.Written.Columns

/-!
# Written lines are accepted

Index lines, and the lines of a body one behind the other.  A list with separators between its
members is read by a repetition in which each round takes a separator, if one stands there
(`accepts_joined`).
-/

namespace TableDdl.Written

open Grammar Text Sql

variable {α ι : Type} {g : Grammar α} {E F : List Char → Prop} {v : List Char}

/-! ## Lists -/

/-- A repetition takes a list with separators, if a round takes a member with the separator behind
it where another member comes next, and a member alone at the end. -/
theorem accepts_joined {separator : Language Char} {L : ι → Language Char} {P : ι → α → Prop}
    {is : List ι} (his : is ≠ []) (hinner : ∀ i ∈ is, Accepts g (L i * separator) (P i) F F)
    (hlast : ∀ i ∈ is, Accepts g (L i) (P i) F E) (hstop : ∀ v, E v → Rejects g v)
    (hmoves : Moves g) :
    Accepts (many1 g) (joined separator L is) (List.Forall₂ P is) F E := by
  suffices h : Accepts (many g) (joined separator L is) (List.Forall₂ P is) F E by
    refine h.refine fun as has => ⟨as, has, ?_⟩
    rw [nonempty?, if_neg]
    intro hnil
    rw [List.isEmpty_iff] at hnil
    rw [hnil] at has
    exact his (List.forall₂_nil_right_iff.1 has)
  induction is with
  | nil => exact absurd rfl his
  | cons i is ih =>
      cases is with
      | nil =>
          intro u hu v hv
          obtain ⟨hF, a, ha, hread⟩ := hlast i List.mem_cons_self u hu v hv
          have hmany := Reads.many (v := v) (by rwa [List.nil_append]) (hread.ne_nil hmoves)
            (hstop v hv).many
          rw [List.append_nil] at hmany
          exact ⟨hF, [a], .cons ha .nil, hmany⟩
      | cons j js =>
          rintro _ ⟨u, hu, w, hw, rfl⟩ v hv
          obtain ⟨hF', as, has, hread'⟩ := ih (List.cons_ne_nil j js)
            (fun k hk => hinner k (List.mem_cons_of_mem i hk))
            (fun k hk => hlast k (List.mem_cons_of_mem i hk))
            w hw v hv
          obtain ⟨hF, a, ha, hread⟩ := hinner i List.mem_cons_self u hu _ hF'
          dsimp only
          rw [List.append_assoc]
          exact ⟨hF, a :: as, .cons ha has, Reads.many hread (hread.ne_nil hmoves) hread'⟩

/-! ## The columns of an index -/

theorem accepts_indexColumn (p : IndexPart) {M : Language Char}
    (hend : Accepts (seq whitespace0 (optional (exactly ","))) M (fun _ => True)
      (Next [] lineMarks) E) :
    Accepts indexColumn
      (blanks0 * (p.name.written * (clause p.length size *
        (clause p.order (fun order => blanks1 * word order.keyword) * M))))
      (fun value => value.2.1 = p.name.value) (fun v => Named (trimStart v)) E := by
  have horder : ∀ order : SortDecl, Accepts sortOrder (blanks1 * word order.keyword)
      (fun _ => True) (Next ["asc", "desc"] []) (Next [] lineMarks) := by
    intro order
    have hmem : order.keyword ∈ ["asc", "desc"] := by cases order <;> decide
    have hword := (accepts_keyword_of_mem hmem (by decide) (by decide)).behind
      fun v (hv : Next [] lineMarks v) => hv.1.1
    exact accepts_behind_blanks1 (hword.front fun v hv => hv.of_mem hmem) (by decide)
  have horder? := accepts_clause? _ opens_sortOrder (by decide) (by decide) mem_lineMarks horder
    p.order
  have hsize? := accepts_size? ["asc", "desc"] lineMarks (by decide) (by decide) p.length
  have hname := (accepts_name p.name).behind
    fun v (hv : Next ["asc", "desc"] ('(' :: lineMarks) v) => hv.1
  have hblanks := accepts_blanks0 fun v (hv : Named v) => hv.headNot_isBlank
  have hall := hblanks.seq (hname.seq (hsize?.seq (horder?.seq hend)))
  refine hall.mono (fun _ hv => hv) (fun _ hv => hv.1) ?_
  rintro ⟨blanks, name, rest⟩ ⟨-, rfl, -⟩
  rfl

/-- A mark begins no name. -/
theorem rejects_identifier_of_marked {m : Char} (hv : Marked m v) (hm : isWord m = false)
    (ht : m ≠ '`') : Rejects identifier v :=
  rejects_identifier (hv.clear hm ht).1 (hv.clear hm ht).2

theorem Marked.rejects_comma (hv : Marked ')' v) : Rejects (exactly ",") v := by
  refine rejects_exactly_singleton (x := ',') (by decide) ?_
  rw [hv]
  decide

/-- An optional comma that is there. -/
theorem accepts_comma {E : List Char → Prop} :
    Accepts (optional (exactly ",")) (mark ',') (fun _ => True) (Marked ',') E :=
  (accepts_mark (by decide)).optional

/-- An optional comma that is not there. -/
theorem accepts_no_comma :
    Accepts (optional (exactly ",")) 1 (fun _ => True) (Marked ')') (Marked ')') :=
  accepts_optional_none fun _ hv => hv.rejects_comma

/-- The parenthesis that closes a list, where the blanks in front of it are read already. -/
theorem accepts_close_mark :
    Accepts (seq whitespace0 (exactly ")")) (mark ')') (fun _ => True) (Marked ')') E := by
  have hblanks := accepts_no_blanks fun v (hv : Marked ')' v) =>
    headNot_of_head? hv (by decide)
  have hclose := hblanks.seq (accepts_mark (s := ")") (m := ')') (E := E) (by decide))
  rw [one_mul] at hclose
  exact hclose.anyValue

/-- A comma or a closing parenthesis, and blanks in front of it. -/
theorem accepts_behind_lineMark {m : Char} {L : Language Char} {P : α → Prop} (hm : m ∈ lineMarks)
    (hg : Accepts g L P (Marked m) E) :
    Accepts (seq whitespace0 g) (blanks0 * L) (fun _ => True) (Next [] lineMarks) E := by
  have hall : ∀ m ∈ lineMarks, isWord m = false ∧ isBlank m = false ∧ m ≠ '`' :=
    List.forall_mem_cons.2 ⟨by decide, List.forall_mem_singleton.2 (by decide)⟩
  have hline := (accepts_blanks0_mark (hall m hm)).seq hg
  exact hline.anyValue.front fun v (hv : Next [] [m] v) => hv.lineMarks hm

/-- A column of an index that another one follows. -/
theorem accepts_indexColumn_comma (p : IndexPart) :
    Accepts indexColumn (p.written * mark ',') (fun value => value.2.1 = p.name.value)
      (fun v => Named (trimStart v)) E := by
  have hend := accepts_behind_lineMark (by decide) (accepts_comma (E := E))
  have hcolumn := accepts_indexColumn p hend
  simpa only [IndexPart.written, mul_assoc] using hcolumn

/-- The last column of an index. -/
theorem accepts_indexColumn_last (p : IndexPart) :
    Accepts indexColumn p.written (fun value => value.2.1 = p.name.value)
      (fun v => Named (trimStart v)) (Marked ')') := by
  have hend := accepts_behind_lineMark (by decide) accepts_no_comma
  rw [mul_one] at hend
  exact accepts_indexColumn p hend

theorem Marked.rejects_indexColumn (hv : Marked ')' v) : Rejects indexColumn v := by
  refine rejects_seq_whitespace0 ?_
  rw [trimStart_eq_self (headNot_of_head? hv (by decide))]
  exact (rejects_identifier_of_marked hv (by decide) (by decide)).seq _

theorem accepts_indexColumns {parts : List IndexPart} (hparts : parts ≠ []) :
    Accepts indexColumns (mark '(' * (joined (mark ',') IndexPart.written parts * mark ')'))
      (fun _ => True) (Marked '(') E := by
  have hlist := accepts_joined hparts (fun p _ => accepts_indexColumn_comma p)
    (fun p _ => accepts_indexColumn_last p) (fun _ hv => hv.rejects_indexColumn) moves_indexColumn
  have hclosed := hlist.followedBy (accepts_close_mark (E := E))
  exact ((accepts_mark (by decide)).preceded hclosed).map _ fun _ _ => trivial

/-! ## Index lines -/

theorem accepts_using? (method : Option MethodDecl) {ms : List Char}
    (hms : ∀ m ∈ ms, isWord m = false) :
    Accepts (optional indexUsing)
      (clause method fun method => blanks1 * (word "using" * (blanks1 * word method.keyword)))
      (fun _ => True) (Next ["using"] ms) (Next [] ms) := by
  have hclause (method : MethodDecl) : Accepts indexUsing
      (blanks1 * (word "using" * (blanks1 * word method.keyword))) (fun _ => True)
      (Next ["using"] []) (Next [] ms) := by
    have hmem : method.keyword ∈ ["btree", "hash"] := by cases method <;> decide
    have hchoice := accepts_keyword_of_mem hmem (by decide) (by decide)
    have hne : "" ∉ [method.keyword] := by cases method <;> decide
    have hbehind := accepts_behind_blanks1 (hchoice.behind fun v (hv : Next [] ms v) => hv.1.1) hne
    have hword := accepts_behind_word (k := "using") (by decide) hbehind fun v hv => hv.1.1
    exact accepts_behind_blanks1 hword (by decide)
  exact (accepts_clause? _ opens_indexUsing (by decide) (by decide) hms hclause method).anyValue

/-- Both words for an index are accepted. -/
theorem accepts_indexWord {E : List Char → Prop} (hE : ∀ v, E v → HeadNot isWord v) :
    Accepts (alternatives [keyword "key", keyword "index"]) (word "key" + word "index")
      (fun _ => True) (Begins ["key", "index"]) E := by
  have hchoice {k : String} (hk : k ∈ ["key", "index"]) :
      Accepts (alternatives [keyword "key", keyword "index"]) (word k) (fun _ => True)
        (Begins ["key", "index"]) E :=
    ((accepts_keyword_of_mem hk (by decide) (by decide)).behind hE).front fun v hv => hv.of_mem hk
  rintro u (hu | hu) v hv
  · exact hchoice (k := "key") (by decide) u hu v hv
  · exact hchoice (k := "index") (by decide) u hu v hv

theorem accepts_indexKind (kind : Option KeyPrefix) :
    Accepts (preceded whitespace0 indexKind)
      (clause kind fun kind => word kind.keyword * blanks1) (fun _ => True)
      (Begins ["primary", "unique", "key", "index"]) (Begins ["key", "index"]) := by
  have hkind : Accepts indexKind (clause kind fun kind => word kind.keyword * blanks1)
      (fun _ => True) (Begins ["primary", "unique", "key", "index"]) (Begins ["key", "index"]) := by
    cases kind with
    | none =>
        rintro _ rfl v hv
        exact ⟨hv.mono (by decide), _, trivial,
          reads_indexKind_normal (not_mem_map_toList hv (by decide))⟩
    | some kind =>
        have hentry : ∃ entry ∈ [("primary", IndexKind.primary), ("unique", IndexKind.unique)],
            entry.1 = kind.keyword := by cases kind <;> decide
        obtain ⟨entry, hentry, hword⟩ := hentry
        have hblanks := accepts_blanks1 fun v (hv : Begins ["key", "index"] v) =>
          hv.headNot_isBlank (by decide)
        have hkindWord := (accepts_indexPrefix hentry).behind
          fun v (hv : Spaced (Begins ["key", "index"]) v) => hv.clear.1
        have hboth := hkindWord.followedBy hblanks
        rw [hword] at hboth
        intro u hu v hv
        obtain ⟨hbegins, a, -, hread⟩ := hboth u hu v hv
        refine ⟨hbegins.mono (by cases kind <;> decide), a, trivial, ?_⟩
        exact hread.optional.map fun found => found.getD .normal
  have hline := (accepts_no_blanks fun v hv => hv.headNot_isBlank (by decide)).preceded hkind
  rwa [one_mul] at hline

theorem mem_apart {L : Language Char} {w : List Char} :
    w ∈ apart L ↔ w ∈ L ∧ HeadNot isWord w := Iff.rfl

/-- An index without a name.  The blanks in front of the columns are read before the name is looked
for. -/
theorem accepts_no_indexName :
    Accepts (preceded whitespace0 (optional identifier)) blanks0 (fun _ => True) (Next [] ['('])
      (Marked '(') := by
  have hnone := accepts_optional_none fun v (hv : Marked '(' v) =>
    rejects_identifier_of_marked hv (by decide) (by decide)
  have hblanks := (accepts_blanks0_mark (m := '(') (by decide)).preceded hnone
  rwa [mul_one] at hblanks

/-- The name of an index.  It stands apart from the word in front of it, by a blank or by its
backtick. -/
theorem accepts_indexName (n : Name) :
    Accepts (preceded whitespace0 (optional identifier)) (apart (blanks0 * n.written))
      (fun _ => True) (HeadNot isWord) Clear := by
  have hblanks := accepts_blanks0 fun v (hv : Named v) => hv.headNot_isBlank
  have hnamed := hblanks.preceded (accepts_name n).optional
  intro u hu v hv
  obtain ⟨hmem, hapart⟩ := mem_apart.1 hu
  obtain ⟨⟨hname, -⟩, a, ha, hread⟩ := hnamed u hmem v hv
  have hne : u ≠ [] := by
    rintro rfl
    obtain ⟨b, -, w, hw, hnil⟩ := hmem
    obtain ⟨-, rfl⟩ := List.append_eq_nil_iff.1 hnil
    obtain ⟨⟨x, hx, -⟩, -⟩ := accepts_name n [] hw [] ⟨by simp, by simp⟩
    simp at hx
  exact ⟨(headNot_append hne).2 hapart, a, ha, hread⟩

/-- The word of an index, its name if it has one, and its columns. -/
theorem accepts_indexBody {k : Grammar α} {M : Language Char} (i : IndexDecl)
    (hk : Accepts k M (fun _ => True) F E) :
    Accepts (seq (preceded (alternatives [keyword "key", keyword "index"])
        (preceded whitespace0 (optional identifier))) (seq (preceded whitespace0 indexColumns) k))
      (((word "key" + word "index") * clause i.name (fun n => apart (blanks0 * n.written))) *
        ((blanks0 * (mark '(' * (joined (mark ',') IndexPart.written i.parts * mark ')'))) * M))
      (fun _ => True) (Begins ["key", "index"]) E := by
  have hcolumns := accepts_indexColumns i.parts_ne_nil (E := F)
  cases hname : i.name with
  | none =>
      have hindex := accepts_indexWord fun v (hv : Next [] ['('] v) => hv.1.1
      have hword := hindex.preceded accepts_no_indexName
      have hblanks := accepts_no_blanks fun v (hv : Marked '(' v) =>
        headNot_of_head? hv (by decide)
      have hbehind := (hblanks.preceded hcolumns).seq hk
      have hall := hword.seq hbehind
      simp only [clause, Option.elim_none, mul_one, one_mul, mul_assoc] at hall ⊢
      exact hall.anyValue
  | some n =>
      have hnamed := (accepts_indexName n).behind fun v (hv : Next [] ['('] v) => hv.1
      have hindex := accepts_indexWord fun v (hv : HeadNot isWord v) => hv
      have hword := hindex.preceded hnamed
      have hblanks := accepts_blanks0_mark (m := '(') (by decide)
      have hbehind := (hblanks.preceded hcolumns).seq hk
      exact (hword.seq hbehind).anyValue

/-- An index up to the end of its line. -/
theorem accepts_indexLine (i : IndexDecl) {M : Language Char}
    (hend : Accepts (seq whitespace0 (seq (optional (exactly ",")) whitespace0)) M (fun _ => True)
      (Next [] lineMarks) E) :
    Accepts indexLine (i.written * M) (fun _ => True) Named E := by
  have hbody := accepts_indexBody i (accepts_using? i.method mem_lineMarks)
  have hall := ((accepts_indexKind i.kind).seq hbody).followedBy hend
  refine (hall.front fun v hv => ?_).map _ fun _ _ => trivial
  obtain ⟨x, hx, hword⟩ := hv.exists_isWord (by decide)
  exact ⟨x, hx, .inl hword⟩

/-! ## Bodies -/

/-- A line is read as what it declares, whatever reads the end of column lines and of index
lines. -/
theorem accepts_bodyLine {extended : Bool} (l : LineDecl)
    (hl : l.isExtended = true → extended = true) {M : Language Char}
    (hcolumn : Accepts (seq whitespace0 (seq lineEnd whitespace0)) M (fun _ => True)
      (Next [] lineMarks) E)
    (hindex : Accepts (seq whitespace0 (seq (optional (exactly ",")) whitespace0)) M
      (fun _ => True) (Next [] lineMarks) E) :
    Accepts (bodyLine extended) (l.content * M) (fun line => line.column? = l.column?) Named E := by
  cases l with
  | column c =>
      intro u hu v hv
      obtain ⟨⟨hnamed, hrej⟩, a, rfl, hread⟩ := accepts_columnLine c hl hcolumn u hu v hv
      exact ⟨hnamed, _, rfl, (hread.map BodyLine.column).orElse_of_rejects (hrej.map _)⟩
  | index i =>
      intro u hu v hv
      obtain ⟨hnamed, a, -, hread⟩ := accepts_indexLine i hindex u hu v hv
      exact ⟨hnamed, _, rfl, (hread.map BodyLine.index).orElse⟩

/-- A line that another one follows. -/
theorem accepts_bodyLine_comma {extended : Bool} (l : LineDecl)
    (hl : l.isExtended = true → extended = true) :
    Accepts (bodyLine extended) (l.written * (mark ',' * blanks0))
      (fun line => line.column? = l.column?) Named Named := by
  have hblanks := accepts_blanks0 fun v (hv : Named v) => hv.headNot_isBlank
  have hcomma : Accepts lineEnd (mark ',') (fun _ => True) (Marked ',')
      (fun v => Named (trimStart v) ∧ (Named v ∨ ∃ b ∈ v.head?, isBlank b = true)) :=
    ((accepts_mark (s := ",") (by decide)).map some fun _ _ => trivial).alternatives [] _ (by simp)
  have hline := accepts_bodyLine l hl
    (accepts_behind_lineMark (by decide) (hcomma.seq hblanks))
    (accepts_behind_lineMark (by decide) (accepts_comma.seq hblanks))
  rwa [← mul_assoc] at hline

/-- The end of a line stays where it is the parenthesis that closes the body. -/
theorem accepts_lineEnd_close :
    Accepts lineEnd 1 (fun _ => True) (Marked ')') (Marked ')') := by
  rintro _ rfl v hv
  have hahead : Reads (ahead fun next => next == some ')') [] v () := by
    intro c hc
    rw [List.nil_append] at hc
    rw [run, hc, hv]
    rfl
  have hread := (hahead.map fun _ => (none : Option String)).alternatives_head []
  exact ⟨hv, none, trivial, hread.alternatives_tail (hv.rejects_comma.map some)⟩

/-- The last line. -/
theorem accepts_bodyLine_last {extended : Bool} (l : LineDecl)
    (hl : l.isExtended = true → extended = true) :
    Accepts (bodyLine extended) l.written (fun line => line.column? = l.column?) Named
      (Marked ')') := by
  have hblanks := accepts_no_blanks fun v (hv : Marked ')' v) => headNot_of_head? hv (by decide)
  have hcolumn := accepts_behind_lineMark (by decide) (accepts_lineEnd_close.seq hblanks)
  have hindex := accepts_behind_lineMark (by decide) (accepts_no_comma.seq hblanks)
  rw [mul_one, mul_one] at hcolumn hindex
  exact accepts_bodyLine l hl hcolumn hindex

theorem Marked.rejects_bodyLine {extended : Bool} (hv : Marked ')' v) :
    Rejects (bodyLine extended) v := by
  have hclear : Clear v := hv.clear (by decide) (by decide)
  rw [← trimStart_eq_self (v := v) (headNot_of_head? hv (by decide))] at hclear
  exact Sql.rejects_bodyLine hclear.1 hclear.2

/-- The lines of a body, up to the closing parenthesis. -/
theorem accepts_lines (extended : Bool) {lines : List LineDecl} (hne : lines ≠ [])
    (hlines : ∀ l ∈ lines, l.isExtended = true → extended = true) :
    Accepts (many1 (bodyLine extended)) (joined (mark ',' * blanks0) LineDecl.written lines)
      (fun found => found.filterMap BodyLine.column? = lines.filterMap LineDecl.column?) Named
      (Marked ')') := by
  have hall := accepts_joined hne (fun l hl => accepts_bodyLine_comma l (hlines l hl))
    (fun l hl => accepts_bodyLine_last l (hlines l hl)) (fun _ hv => hv.rejects_bodyLine)
    (moves_bodyLine extended)
  refine hall.value fun found hfound => ?_
  clear hall hlines hne
  induction hfound with
  | nil => rfl
  | cons hline _ ih => rw [List.filterMap_cons, List.filterMap_cons, hline, ih]

end TableDdl.Written
