import TableDdl.Proofs.Value.Terms
import TableDdl.Value.Equality

/-!
# Equality, terms and fingerprints agree

Values are equal just if they are one value (`Value.equal_iff`), and so just if they are written
alike.  Equal values have equal fingerprints.  Of two values of one class the fingerprints also tell
whether they are equal: a fingerprint forgets the class and whether several values are a tuple or a
list, but no field, and a term in it stands for one value only (`Value.term_inj`).
-/

namespace TableDdl

/-! ## Equality -/

namespace Value

mutual

/-- Values of different kinds are never equal, and those of one kind are compared field by field. -/
theorem equal_iff (a b : Value) : equal a b = true ↔ a = b := by
  cases a <;> cases b
  case tuple.tuple items items' => rw [equal, equalItems_iff, tuple.injEq]
  case list.list items items' => rw [equal, equalItems_iff, list.injEq]
  case dataType.dataType t t' => cases t; cases t'; simp [equal]
  case defaultValue.defaultValue d d' => cases d; cases d'; simp [equal]
  case column.column c c' => cases c; cases c'; simp [equal, and_assoc]
  case index.index i i' => cases i; cases i'; simp [equal, and_assoc]
  case tableOptions.tableOptions o o' => cases o; cases o'; simp [equal, and_assoc]
  case table.table t t' => cases t; cases t'; simp [equal, and_assoc]
  case success.success remaining value remaining' value' =>
    rw [equal, Bool.and_eq_true, equal_iff value value', beq_iff_eq, success.injEq]
  all_goals simp [equal]

/-- Values in order are compared one by one, and neither list may be longer. -/
theorem equalItems_iff (as bs : List Value) : equalItems as bs = true ↔ as = bs := by
  cases as with
  | nil => cases bs <;> simp [equalItems]
  | cons a as =>
      cases bs with
      | nil => simp [equalItems]
      | cons b bs =>
          rw [equalItems, Bool.and_eq_true, equal_iff a b, equalItems_iff as bs, List.cons.injEq]

end

end Value

/-! ## Fingerprints -/

namespace Fingerprint

mutual

/-- Values of different kinds are never equal, and those of one kind are compared field by field. -/
theorem equal_iff (a b : Fingerprint) : equal a b = true ↔ a = b := by
  cases a <;> cases b
  case tuple.tuple items items' => rw [equal, equalItems_iff, tuple.injEq]
  all_goals simp [equal]

/-- Values in order are compared one by one, and neither list may be longer. -/
theorem equalItems_iff (as bs : List Fingerprint) : equalItems as bs = true ↔ as = bs := by
  cases as with
  | nil => cases bs <;> simp [equalItems]
  | cons a as =>
      cases bs with
      | nil => simp [equalItems]
      | cons b bs =>
          rw [equalItems, Bool.and_eq_true, equal_iff a b, equalItems_iff as bs, List.cons.injEq]

end

/-! ### Every field counts -/

/-- A missing text has a fingerprint that no text has. -/
@[simp]
theorem ofText_inj {a b : Option String} : ofText a = ofText b ↔ a = b := by
  cases a <;> cases b <;> simp [ofText]

@[simp]
theorem ofContent_inj {a b : DefaultContent} : ofContent a = ofContent b ↔ a = b := by
  cases a <;> cases b <;> simp [ofContent]

@[simp]
theorem ofDataType_inj {a b : DataType} : ofDataType a = ofDataType b ↔ a = b := by
  cases a; cases b; simp [ofDataType]

/-- The fingerprint of a column holds its three fields. -/
@[simp]
theorem ofColumn_inj {a b : Column} : ofColumn a = ofColumn b ↔ a = b := by
  cases a; cases b; simp [ofColumn]

@[simp]
theorem ofOptions_inj {a b : TableOptions} : ofOptions a = ofOptions b ↔ a = b := by
  cases a; cases b; simp [ofOptions]

/-- The fingerprint of a table holds its columns in order. -/
@[simp]
theorem ofTable_inj {a b : Table} : ofTable a = ofTable b ↔ a = b := by
  obtain ⟨name, columns, options⟩ := a
  obtain ⟨name', columns', options'⟩ := b
  have hcolumns : columns.map ofColumn = columns'.map ofColumn ↔ columns = columns' :=
    List.map_inj_right fun _ _ h => ofColumn_inj.1 h
  simp [ofTable, hcolumns]

end Fingerprint

/-! ## One class -/

namespace Value

/-- The values are parts of a schema of one kind, or results of one kind. -/
inductive SameClass : Value → Value → Prop where
  | dataType (a b : DataType) : SameClass (dataType a) (dataType b)
  | defaultValue (a b : DefaultValue) : SameClass (defaultValue a) (defaultValue b)
  | column (a b : Column) : SameClass (column a) (column b)
  | index (a b : Index) : SameClass (index a) (index b)
  | tableOptions (a b : TableOptions) : SameClass (tableOptions a) (tableOptions b)
  | table (a b : Table) : SameClass (table a) (table b)
  | success (r s : String) (v w : Value) : SameClass (success r v) (success s w)
  | failure (r s : String) : SameClass (failure r) (failure s)

/-- Within a class, the fingerprint tells the values apart. -/
theorem SameClass.ofValue_inj {a b : Value} (h : SameClass a b) :
    Fingerprint.ofValue a = Fingerprint.ofValue b ↔ a = b := by
  cases h with
  | dataType a b => simp [Fingerprint.ofValue]
  | defaultValue a b => cases a; cases b; simp [Fingerprint.ofValue]
  | column a b => simp [Fingerprint.ofValue]
  | index a b =>
      obtain ⟨name, kind, columnNames, usingType⟩ := a
      obtain ⟨name', kind', columnNames', usingType'⟩ := b
      have hnames : columnNames.map Fingerprint.str = columnNames'.map Fingerprint.str ↔
          columnNames = columnNames' :=
        List.map_inj_right fun _ _ h => Fingerprint.str.inj h
      simp [Fingerprint.ofValue, hnames]
  | tableOptions a b => simp [Fingerprint.ofValue]
  | table a b => simp [Fingerprint.ofValue]
  | success r s v w => simp [Fingerprint.ofValue, term_inj]
  | failure r s => simp [Fingerprint.ofValue]

/-- **Equality**: two values are equal just if they are written alike.  Equal values have equal
fingerprints, and values of one class with equal fingerprints are equal. -/
theorem equal_agrees_with_term_and_fingerprint (a b : Value) :
    (a.equal b = true ↔ a.term = b.term) ∧
    (a.equal b = true → (Fingerprint.ofValue a).equal (Fingerprint.ofValue b) = true) ∧
    (SameClass a b →
      (Fingerprint.ofValue a).equal (Fingerprint.ofValue b) = true → a.equal b = true) := by
  rw [equal_iff, Fingerprint.equal_iff, term_inj]
  exact ⟨Iff.rfl, congrArg Fingerprint.ofValue, fun h => h.ofValue_inj.1⟩

/-- A text that looks like the end of a tuple and the beginning of another text is one text. -/
theorem equal_agrees_with_term_and_fingerprint_forgedTuple :
    (tuple [str "a', 'b"]).term ≠ (tuple [str "a", str "b"]).term ∧
    (Fingerprint.ofValue (success "" (tuple [str "it's", int (-5)]))).equal
      (Fingerprint.ofValue (success "" (tuple [str "it's", int (-5)]))) = true ∧
    (failure "x").equal (failure "x") = true := by
  have hforged := equal_agrees_with_term_and_fingerprint (tuple [str "a', 'b"])
    (tuple [str "a", str "b"])
  have hnested := equal_agrees_with_term_and_fingerprint
    (success "" (tuple [str "it's", int (-5)])) (success "" (tuple [str "it's", int (-5)]))
  have hfailure := equal_agrees_with_term_and_fingerprint (failure "x") (failure "x")
  exact ⟨fun h => absurd (hforged.1.2 h) (by decide), hnested.2.1 (by decide),
    hfailure.2.2 (.failure "x" "x") (by decide)⟩

end Value

end TableDdl
