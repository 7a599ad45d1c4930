import TableDdl.Text.Blank

/-!
# Pieces of a script

A script is cut at its semicolons, except at those that stand between quotes.  Quotes are `'`, `"`
and the backtick.  Behind a backslash between `'` or `"`, the next character counts for nothing;
between backticks a backslash is a character like any other.
-/

namespace TableDdl.Script

/-- Where a character stands. -/
inductive Mode where
  /-- Outside of quotes. -/
  | plain
  /-- Between quotes of this kind. -/
  | quoted (quote : Char)
  /-- Between quotes of this kind, behind a backslash. -/
  | escaped (quote : Char)
  deriving DecidableEq

namespace Mode

/-- Character that opens quotes. -/
def isOpening (c : Char) : Bool := c == '\'' || c == '"' || c == '`'

/-- Where the character behind `c` stands. -/
def step : Mode → Char → Mode
  | plain, c => if isOpening c then quoted c else plain
  | quoted q, c => if c = q then plain else if c = '\\' ∧ q ≠ '`' then escaped q else quoted q
  | escaped q, _ => quoted q

/-- Where the character behind `text` stands. -/
def scan (m : Mode) (text : List Char) : Mode := text.foldl step m

@[simp]
theorem scan_nil (m : Mode) : m.scan [] = m := rfl

@[simp]
theorem scan_cons (m : Mode) (c : Char) (text : List Char) :
    m.scan (c :: text) = (m.step c).scan text := rfl

/-- A scan goes on where the scan of the text before has come to. -/
theorem scan_append (m : Mode) (u v : List Char) : m.scan (u ++ v) = (m.scan u).scan v :=
  List.foldl_append

end Mode

/-- Whether a script is cut at the character `c`. -/
def isCut (m : Mode) (c : Char) : Bool := m == .plain && c == ';'

/-- The pieces of a script whose first piece has begun with `current`, last character first. -/
def piecesFrom (m : Mode) (current : List Char) : List Char → List (List Char)
  | [] => [current.reverse]
  | c :: rest =>
      if isCut m c then current.reverse :: piecesFrom .plain [] rest
      else piecesFrom (m.step c) (c :: current) rest

/-- The pieces between the cuts of a script, blanks and all. -/
def pieces (script : List Char) : List (List Char) :=
  piecesFrom .plain [] script

theorem piecesFrom_ne_nil (m : Mode) (current text : List Char) :
    piecesFrom m current text ≠ [] := by
  induction text generalizing m current with
  | nil => simp [piecesFrom]
  | cons c rest ih =>
    rw [piecesFrom]
    split
    · simp
    · exact ih _ _

theorem intercalate_piecesFrom (m : Mode) (current text : List Char) :
    List.intercalate [';'] (piecesFrom m current text) = current.reverse ++ text := by
  induction text generalizing m current with
  | nil => simp [piecesFrom, List.intercalate]
  | cons c rest ih =>
    rw [piecesFrom]
    split
    · next h =>
      have hc : c = ';' := by simp [isCut] at h; exact h.2
      obtain ⟨p, ps, hp⟩ := List.exists_cons_of_ne_nil (piecesFrom_ne_nil .plain [] rest)
      have := ih .plain []
      rw [hp] at this ⊢
      simp_all [List.intercalate]
    · rw [ih]
      simp

/-- Nothing is lost: the pieces with semicolons between them are the script. -/
theorem intercalate_pieces (script : List Char) :
    List.intercalate [';'] (pieces script) = script :=
  intercalate_piecesFrom .plain [] script

/-- The statements of a script: its pieces without the blanks around them, as far as anything is
left. -/
def statements (script : List Char) : List (List Char) :=
  ((pieces script).filter fun piece => !Text.isAllBlank piece).map Text.trim

end TableDdl.Script
