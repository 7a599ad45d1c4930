import TableDdl.Proofs.Text.Terms
import TableDdl.Value.Basic

/-!
# The terms of values

The term of a value is written from a tree: a record for a part of a schema or for a result, a tuple
or a list for several values, and words and texts for what has no parts.

* Each term is written as its tree says (`Value.toList_term`).
* The tree holds every field of a value, so no two values have one tree (`Value.tree_inj`), and no
  two have one term (`Value.term_inj`).
-/

namespace TableDdl

open Text Text.Term

/-! ## Names of kinds -/

/-- A kind of type is found again by its name. -/
theorem TypeKind.ofName_name (kind : TypeKind) : TypeKind.ofName kind.name = .ok kind := by
  cases kind <;> decide +kernel

/-- Since each kind is found again by its name, no two have one name. -/
@[simp]
theorem TypeKind.name_inj {a b : TypeKind} : a.name = b.name ↔ a = b := by
  refine ⟨fun h => ?_, congrArg name⟩
  have hname := ofName_name a
  rw [h, ofName_name] at hname
  exact (Except.ok.inj hname).symm

/-- A kind of index is found again by its name. -/
theorem IndexKind.ofName_name (kind : IndexKind) : IndexKind.ofName kind.name = .ok kind := by
  cases kind <;> decide +kernel

@[simp]
theorem IndexKind.name_inj {a b : IndexKind} : a.name = b.name ↔ a = b := by
  refine ⟨fun h => ?_, congrArg name⟩
  have hname := ofName_name a
  rw [h, ofName_name] at hname
  exact (Except.ok.inj hname).symm

/-- No kind of default is looked up by its name, so the names are compared two by two. -/
@[simp]
theorem DefaultKind.name_inj {a b : DefaultKind} : a.name = b.name ↔ a = b := by
  cases a <;> cases b <;> simp [name]

/-- A kind that stands alone is written with its number, and no two are written alike. -/
@[simp]
theorem IndexKind.term_inj {a b : IndexKind} : a.term = b.term ↔ a = b := by
  cases a <;> cases b <;> decide

/-- The name of a kind as a word. -/
def TypeKind.word (kind : TypeKind) : Word :=
  ⟨kind.name, by cases kind <;> decide, by cases kind <;> decide⟩

/-- The name of a kind as a word. -/
def DefaultKind.word (kind : DefaultKind) : Word :=
  ⟨kind.name, by cases kind <;> decide, by cases kind <;> decide⟩

/-- The name of a kind as a word. -/
def IndexKind.word (kind : IndexKind) : Word :=
  ⟨kind.name, by cases kind <;> decide, by cases kind <;> decide⟩

/-- A kind that stands alone. -/
def IndexKind.termWord (kind : IndexKind) : Word :=
  ⟨kind.term, by cases kind <;> decide, by cases kind <;> decide⟩

/-! ## Records -/

namespace Text.Term

/-- What stands for nothing. -/
def noneWord : Word := ⟨"None", by decide, by decide⟩

/-- The kinds of values that are written as records. -/
inductive RecordKind where
  | dataType
  | defaultValue
  | column
  | index
  | tableOptions
  | table
  | success
  | failure

/-- The name in front of a record. -/
def RecordKind.name : RecordKind → String
  | dataType => "DataType"
  | defaultValue => "DefaultValue"
  | column => "Column"
  | index => "Index"
  | tableOptions => "TableOption"
  | table => "TableSchema"
  | success => "Success"
  | failure => "Failure"

theorem RecordKind.name_inj {a b : RecordKind} : a.name = b.name ↔ a = b := by
  cases a <;> cases b <;> simp [name]

/-- The name in front of a record as a word. -/
def RecordKind.word (kind : RecordKind) : Word :=
  ⟨kind.name, by cases kind <;> decide, by cases kind <;> decide⟩

/-- The name in front of a record tells which kind of record it is. -/
@[simp]
theorem RecordKind.word_inj {a b : RecordKind} : a.word = b.word ↔ a = b := by
  simp [word, name_inj]

/-- A record with its fields. -/
def record (kind : RecordKind) (fields : List Term) : Term := .node (.record kind.word) fields

/-- Records of one kind are equal just if their fields are. -/
@[simp]
theorem record_inj {a b : RecordKind} {xs ys : List Term} :
    record a xs = record b ys ↔ a = b ∧ xs = ys := by
  simp [record]

/-- A text as a term. -/
def quoted (s : String) : Term := .text s.toList

@[simp]
theorem quoted_inj {s t : String} : quoted s = quoted t ↔ s = t := by
  rw [quoted, quoted, Term.text.injEq, String.toList_inj]

theorem toList_quoteText (s : String) : (quoteText s).toList = (quoted s).chars := by
  rw [quoteText, String.toList_ofList, quoted, chars]

/-- The tree of an optional text. -/
def ofOption : Option String → Term
  | some s => quoted s
  | none => .word noneWord

end Text.Term

/-! ## Trees -/

def DataType.tree (t : DataType) : Term :=
  record .dataType [.word t.kind.word, .word (.number t.size)]

/-- The tree of the content of a default value. -/
def DefaultContent.tree : DefaultContent → Term
  | .none => .word noneWord
  | .int n => .word (.number n)
  | .str s => quoted s

def DefaultValue.tree (d : DefaultValue) : Term :=
  record .defaultValue [.word d.kind.word, d.content.tree]

def Column.tree (c : Column) : Term :=
  record .column [quoted c.name, c.type.tree, quoted c.comment]

def Index.tree (i : Index) : Term :=
  record .index [quoted i.name, .word i.kind.word, .node .list (i.columnNames.map quoted),
    ofOption i.usingType]

def TableOptions.tree (o : TableOptions) : Term :=
  record .tableOptions [quoted o.engine, quoted o.charset, quoted o.collate, quoted o.comment]

def Table.tree (t : Table) : Term :=
  record .table [quoted t.name, .node .list (t.columns.map Column.tree), t.options.tree]

namespace Value

mutual

/-- The tree of a value. -/
def tree : Value → Term
  | null => .word noneWord
  | str s => quoted s
  | int n => .word (.number n)
  | tuple items => .node .tuple (trees items)
  | list items => .node .list (trees items)
  | indexKind kind => .word kind.termWord
  | dataType t => t.tree
  | defaultValue d => d.tree
  | column c => c.tree
  | index i => i.tree
  | tableOptions o => o.tree
  | table t => t.tree
  | success remaining value => record .success [quoted remaining, tree value]
  | failure remaining => record .failure [quoted remaining]

/-- The trees of several values. -/
def trees : List Value → List Term
  | [] => []
  | value :: values => tree value :: trees values

end

end Value

/-! ## Terms are written from trees -/

/-- Texts with commas between them are written as the terms with commas between them. -/
theorem toList_intercalate_of {texts : List String} {ts : List Term}
    (h : texts.map String.toList = charsOf ts) :
    (", ".intercalate texts).toList = List.intercalate [',', ' '] (charsOf ts) := by
  rw [String.toList_intercalate, h]
  rfl

/-- Texts that are those of their terms one by one. -/
theorem map_toList_eq_charsOf {α : Type} {f : α → String} {g : α → Term}
    (h : ∀ x, (f x).toList = (g x).chars) (xs : List α) :
    (xs.map f).map String.toList = charsOf (xs.map g) := by
  rw [charsOf_eq_map, List.map_map, List.map_map]
  exact List.map_congr_left fun x _ => h x

/-- A list is written between brackets, whatever it holds. -/
theorem Value.toList_listTerm {texts : List String} {ts : List Term}
    (h : texts.map String.toList = charsOf ts) :
    (listTerm texts).toList = (Term.node .list ts).chars := by
  rw [listTerm, String.toList_append, String.toList_append, toList_intercalate_of h]
  rfl

/-- A tuple is written between parentheses. Only one of a single item has a comma at its end, so the
three lengths are told apart. -/
theorem Value.toList_tupleTerm {texts : List String} {ts : List Term}
    (h : texts.map String.toList = charsOf ts) :
    (tupleTerm texts).toList = (Term.node .tuple ts).chars := by
  have hitems := toList_intercalate_of h
  rw [chars, ← hitems]
  cases texts with
  | nil =>
      cases ts with
      | nil => rfl
      | cons t ts => cases h
  | cons s texts =>
      cases ts with
      | nil => cases h
      | cons t ts =>
          have htail : texts.map String.toList = charsOf ts := (List.cons.inj h).2
          cases texts with
          | nil =>
              cases ts with
              | nil =>
                  rw [tupleTerm, String.toList_append, String.toList_append, List.append_assoc,
                    String.intercalate_singleton]
                  rfl
              | cons t' ts => cases htail
          | cons s' texts =>
              cases ts with
              | nil => cases htail
              | cons t' ts =>
                  have hterm : tupleTerm (s :: s' :: texts) =
                      "(" ++ ", ".intercalate (s :: s' :: texts) ++ ")" := rfl
                  rw [hterm, String.toList_append, String.toList_append, List.append_assoc]
                  rfl

/-- A record as it is written, with the texts of its fields. -/
def Text.Term.RecordKind.text (kind : RecordKind) (fields : List String) : String :=
  kind.name ++ "(" ++ ", ".intercalate fields ++ ")"

/-- A record is written with its name in front, as its term is. -/
theorem Text.Term.RecordKind.toList_text (kind : RecordKind) {texts : List String} {ts : List Term}
    (h : texts.map String.toList = charsOf ts) :
    (kind.text texts).toList = (record kind ts).chars := by
  rw [text, String.toList_append, String.toList_append, String.toList_append,
    toList_intercalate_of h, List.append_assoc, List.append_assoc]
  rfl

/-- A type is written as a record of its kind and its size. -/
theorem DataType.toList_term (t : DataType) : t.term.toList = t.tree.chars := by
  have hterm : t.term = RecordKind.dataType.text [t.kind.name, toString t.size] := by
    -- unfolded first, since equality with a folded term would be tried by computing both texts
    unfold term
    simp only [RecordKind.text, RecordKind.name, String.reduceAppend,
      String.intercalate_cons_cons, String.intercalate_singleton, String.append_assoc]
  rw [hterm]
  exact RecordKind.toList_text .dataType rfl

/-- The content of a default is a word or a text. -/
theorem DefaultContent.toList_contentTerm (content : DefaultContent) :
    (DefaultValue.contentTerm content).toList = content.tree.chars := by
  cases content with
  | none => rfl
  | int n => rfl
  | str s => exact toList_quoteText s

/-- A default is written as a record of its kind and its content. -/
theorem DefaultValue.toList_term (d : DefaultValue) : d.term.toList = d.tree.chars := by
  have hterm : d.term = RecordKind.defaultValue.text [d.kind.name, contentTerm d.content] := by
    unfold term
    simp only [RecordKind.text, RecordKind.name, String.reduceAppend,
      String.intercalate_cons_cons, String.intercalate_singleton, String.append_assoc]
  rw [hterm]
  refine RecordKind.toList_text .defaultValue ?_
  simp only [List.map_cons, List.map_nil, d.content.toList_contentTerm, charsOf]
  rfl

/-- A column is written as a record, with that of its type within. -/
theorem Column.toList_term (c : Column) : c.term.toList = c.tree.chars := by
  have hterm : c.term = RecordKind.column.text
      [quoteText c.name, c.type.term, quoteText c.comment] := by
    unfold term
    simp only [RecordKind.text, RecordKind.name, String.reduceAppend,
      String.intercalate_cons_cons, String.intercalate_singleton, String.append_assoc]
  rw [hterm]
  refine RecordKind.toList_text .column ?_
  simp only [List.map_cons, List.map_nil, toList_quoteText, c.type.toList_term, charsOf]

/-- A missing text is written as a word, and no text is. -/
theorem toList_optionTerm (text : Option String) :
    (Index.optionTerm text).toList = (ofOption text).chars := by
  cases text with
  | none => rfl
  | some s => exact toList_quoteText s

/-- A list between other fields. -/
theorem comma_listTerm (texts : List String) (s : String) :
    ", " ++ (Value.listTerm texts ++ (", " ++ s)) =
      ", [" ++ (", ".intercalate texts ++ ("], " ++ s)) := by
  rw [Value.listTerm, ← String.toList_inj]
  simp

/-- An index is written as a record, with the list of its columns within. -/
theorem Index.toList_term (i : Index) : i.term.toList = i.tree.chars := by
  have hterm : i.term = RecordKind.index.text [quoteText i.name, i.kind.name,
      Value.listTerm (i.columnNames.map quoteText), optionTerm i.usingType] := by
    unfold term
    simp only [RecordKind.text, RecordKind.name, String.reduceAppend,
      String.intercalate_cons_cons, String.intercalate_singleton, String.append_assoc,
      comma_listTerm]
  rw [hterm]
  refine RecordKind.toList_text .index ?_
  have hnames := Value.toList_listTerm (map_toList_eq_charsOf toList_quoteText i.columnNames)
  simp only [List.map_cons, List.map_nil, toList_quoteText, hnames, toList_optionTerm, charsOf]
  rfl

theorem TableOptions.toList_term (o : TableOptions) : o.term.toList = o.tree.chars := by
  have hterm : o.term = RecordKind.tableOptions.text
      [quoteText o.engine, quoteText o.charset, quoteText o.collate, quoteText o.comment] := by
    unfold term
    simp only [RecordKind.text, RecordKind.name, String.reduceAppend,
      String.intercalate_cons_cons, String.intercalate_singleton, String.append_assoc]
  rw [hterm]
  refine RecordKind.toList_text .tableOptions ?_
  simp only [List.map_cons, List.map_nil, toList_quoteText, charsOf]

/-- A table is written as a record, with its columns and its options within. -/
theorem Table.toList_term (t : Table) : t.term.toList = t.tree.chars := by
  have hterm : t.term = RecordKind.table.text
      [quoteText t.name, Value.listTerm (t.columns.map Column.term), t.options.term] := by
    unfold term
    simp only [RecordKind.text, RecordKind.name, String.reduceAppend,
      String.intercalate_cons_cons, String.intercalate_singleton, String.append_assoc,
      comma_listTerm]
  rw [hterm]
  refine RecordKind.toList_text .table ?_
  have hcolumns := Value.toList_listTerm (map_toList_eq_charsOf Column.toList_term t.columns)
  simp only [List.map_cons, List.map_nil, toList_quoteText, hcolumns, t.options.toList_term,
    charsOf]

namespace Value

/-- A result is written with the value that was found, whichever it is. -/
theorem toList_success {remaining s : String} {t : Term} (h : s.toList = t.chars) :
    ("Success(" ++ quoteText remaining ++ ", " ++ s ++ ")").toList =
      (record .success [quoted remaining, t]).chars := by
  have hterm : "Success(" ++ quoteText remaining ++ ", " ++ s ++ ")" =
      RecordKind.success.text [quoteText remaining, s] := by
    simp only [RecordKind.text, RecordKind.name, String.reduceAppend,
      String.intercalate_cons_cons, String.intercalate_singleton, String.append_assoc]
  rw [hterm]
  refine RecordKind.toList_text .success ?_
  simp only [List.map_cons, List.map_nil, toList_quoteText, h, charsOf]

theorem toList_failure (remaining : String) :
    ("Failure(" ++ quoteText remaining ++ ")").toList =
      (record .failure [quoted remaining]).chars := by
  have hterm : "Failure(" ++ quoteText remaining ++ ")" =
      RecordKind.failure.text [quoteText remaining] := by
    simp only [RecordKind.text, RecordKind.name, String.reduceAppend, String.intercalate_singleton]
  rw [hterm]
  refine RecordKind.toList_text .failure ?_
  simp only [List.map_cons, List.map_nil, toList_quoteText, charsOf]

mutual

/-- Each value is written as its tree says. -/
theorem toList_term : ∀ v : Value, v.term.toList = v.tree.chars
  | null => rfl
  | str s => toList_quoteText s
  | int _ => rfl
  | tuple items => toList_tupleTerm (map_toList_terms items)
  | list items => toList_listTerm (map_toList_terms items)
  | indexKind _ => rfl
  | dataType t => t.toList_term
  | defaultValue d => d.toList_term
  | column c => c.toList_term
  | index i => i.toList_term
  | tableOptions o => o.toList_term
  | table t => t.toList_term
  | success _ value => toList_success (toList_term value)
  | failure remaining => toList_failure remaining

/-- Several values are written one by one. -/
theorem map_toList_terms : ∀ values : List Value,
    (terms values).map String.toList = charsOf (trees values)
  | [] => rfl
  | value :: values => by
      rw [terms, trees, charsOf, List.map_cons, toList_term value, map_toList_terms values]

end

end Value

/-! ## Trees hold every field -/

namespace Text.Term

/-- A word with a character that no number has is no number. -/
theorem Word.ne_number {w : Word} {c : Char} (hc : c ∈ w.text.toList)
    (hdigit : (c.isDigit || c == '-') = false) (n : Int) : w ≠ .number n := by
  rintro rfl
  rcases isDigit_or_eq_of_mem_toString c hc with h | rfl
  · simp [h] at hdigit
  · cases hdigit

/-- The word for nothing has letters in it. -/
theorem noneWord_ne_number (n : Int) : noneWord ≠ .number n :=
  Word.ne_number (c := 'N') (by decide) rfl n

/-- A text stands between quotes, and no word does. -/
@[simp]
theorem quoted_ne_word {s : String} {w : Word} : quoted s ≠ .word w := by simp [quoted]

@[simp]
theorem ofOption_inj {a b : Option String} : ofOption a = ofOption b ↔ a = b := by
  cases a <;> cases b <;> simp [ofOption, quoted_ne_word.symm]

end Text.Term

/-- A kind that stands alone is written between angle brackets. -/
theorem IndexKind.termWord_ne_number (kind : IndexKind) (n : Int) : kind.termWord ≠ .number n := by
  refine Word.ne_number (c := '<') ?_ rfl n
  cases kind <;> decide

theorem IndexKind.termWord_ne_noneWord (kind : IndexKind) : kind.termWord ≠ noneWord := by
  intro h
  have htext : kind.term = "None" := congrArg Word.text h
  cases kind <;> exact absurd htext (by decide)

@[simp]
theorem DataType.tree_inj {a b : DataType} : a.tree = b.tree ↔ a = b := by
  obtain ⟨kind, size⟩ := a
  obtain ⟨kind', size'⟩ := b
  simp [tree, TypeKind.word]

/-- Nothing, a number and a text have different trees. -/
theorem DefaultContent.tree_inj {a b : DefaultContent} : a.tree = b.tree ↔ a = b := by
  cases a <;> cases b <;>
    simp [tree, noneWord_ne_number, (noneWord_ne_number _).symm, quoted_ne_word.symm]

@[simp]
theorem DefaultValue.tree_inj {a b : DefaultValue} : a.tree = b.tree ↔ a = b := by
  obtain ⟨kind, content⟩ := a
  obtain ⟨kind', content'⟩ := b
  simp [tree, DefaultKind.word, DefaultContent.tree_inj]

@[simp]
theorem Column.tree_inj {a b : Column} : a.tree = b.tree ↔ a = b := by
  obtain ⟨name, type, comment⟩ := a
  obtain ⟨name', type', comment'⟩ := b
  simp [tree]

/-- The tree of an index holds its four fields, the names in order. -/
@[simp]
theorem Index.tree_inj {a b : Index} : a.tree = b.tree ↔ a = b := by
  obtain ⟨name, kind, columnNames, usingType⟩ := a
  obtain ⟨name', kind', columnNames', usingType'⟩ := b
  have hnames : columnNames.map quoted = columnNames'.map quoted ↔ columnNames = columnNames' :=
    List.map_inj_right fun _ _ h => quoted_inj.1 h
  simp [tree, IndexKind.word, hnames]

@[simp]
theorem TableOptions.tree_inj {a b : TableOptions} : a.tree = b.tree ↔ a = b := by
  obtain ⟨engine, charset, collate, comment⟩ := a
  obtain ⟨engine', charset', collate', comment'⟩ := b
  simp [tree]

/-- The tree of a table holds its columns in order, and its options. -/
@[simp]
theorem Table.tree_inj {a b : Table} : a.tree = b.tree ↔ a = b := by
  obtain ⟨name, columns, options⟩ := a
  obtain ⟨name', columns', options'⟩ := b
  have hcolumns : columns.map Column.tree = columns'.map Column.tree ↔ columns = columns' :=
    List.map_inj_right fun _ _ h => Column.tree_inj.1 h
  simp [tree, hcolumns]

namespace Value

mutual

/-- Values of different kinds have different trees, and those of one kind are told by their parts.
-/
theorem tree_inj (a b : Value) (h : a.tree = b.tree) : a = b := by
  cases a <;> cases b
  case null.null => rfl
  case str.str s s' => rw [quoted_inj.1 h]
  case int.int n n' => rw [Word.number_inj.1 (Term.word.inj h)]
  case tuple.tuple items items' => rw [trees_inj items items' (Term.node.inj h).2]
  case list.list items items' => rw [trees_inj items items' (Term.node.inj h).2]
  case indexKind.indexKind kind kind' =>
    rw [IndexKind.term_inj.1 (congrArg Word.text (Term.word.inj h))]
  case dataType.dataType t t' => rw [DataType.tree_inj.1 h]
  case defaultValue.defaultValue d d' => rw [DefaultValue.tree_inj.1 h]
  case column.column c c' => rw [Column.tree_inj.1 h]
  case index.index i i' => rw [Index.tree_inj.1 h]
  case tableOptions.tableOptions o o' => rw [TableOptions.tree_inj.1 h]
  case table.table t t' => rw [Table.tree_inj.1 h]
  case success.success remaining value remaining' value' =>
    obtain ⟨hremaining, hvalue⟩ := List.cons.inj (record_inj.1 h).2
    rw [quoted_inj.1 hremaining, tree_inj value value' (List.cons.inj hvalue).1]
  case failure.failure remaining remaining' =>
    rw [quoted_inj.1 (List.cons.inj (record_inj.1 h).2).1]
  -- values of two kinds have trees of two shapes, or else two words or two names
  case null.int n => exact absurd (Term.word.inj h) (noneWord_ne_number n)
  case int.null n => exact absurd (Term.word.inj h).symm (noneWord_ne_number n)
  case null.indexKind kind => exact absurd (Term.word.inj h) kind.termWord_ne_noneWord.symm
  case indexKind.null kind => exact absurd (Term.word.inj h) kind.termWord_ne_noneWord
  case int.indexKind n kind => exact absurd (Term.word.inj h) (kind.termWord_ne_number n).symm
  case indexKind.int kind n => exact absurd (Term.word.inj h) (kind.termWord_ne_number n)
  all_goals
    simp [tree, DataType.tree, DefaultValue.tree, Column.tree, Index.tree, TableOptions.tree,
      Table.tree, quoted, record] at h

/-- Values in order are told apart by their trees in order. -/
theorem trees_inj (as bs : List Value) (h : trees as = trees bs) : as = bs := by
  cases as with
  | nil =>
      cases bs with
      | nil => rfl
      | cons b bs => cases h
  | cons a as =>
      cases bs with
      | nil => cases h
      | cons b bs =>
          obtain ⟨hhead, htail⟩ := List.cons.inj h
          rw [tree_inj a b hhead, trees_inj as bs htail]

end

end Value

/-- **Terms**: two values are written alike just if they are one value. -/
theorem Value.term_inj {a b : Value} : a.term = b.term ↔ a = b := by
  rw [← String.toList_inj, toList_term, toList_term, chars_inj]
  exact ⟨tree_inj a b, congrArg tree⟩

end TableDdl
