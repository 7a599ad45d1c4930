import TableDdl.Proofs.Grammar.Places
import TableDdl.Sql.Expr

/-!
# Grammars put together from rules

`Composed g` says that `g` is put together from keywords, single texts and the rules of the
statement grammar, in any dialect and in all the usual ways; the grammar of an expression is one
(`Expr.composed_of_grammar`).

All of them move forward through one text and do not leave it, and all but one family report a
mismatch where they began (`Composed.place_of_run`).  The exception is a statement that creates a
table, which is read in steps: it reports the start of the step that did not match.
-/

namespace TableDdl.Sql

open Grammar

/-- A grammar put together from keywords that are not empty, single texts and rules. -/
inductive Composed : {α : Type} → Grammar α → Prop where
  | keyword {text : String} (h : text ≠ "") : Composed (Grammar.keyword text)
  | keywords {texts : List String} (h : "" ∉ texts) : Composed (Grammar.keywords texts)
  | exactly (text : String) : Composed (Grammar.exactly text)
  | rule (d : Dialect) (name : Rule) : Composed (name.grammar d)
  | optional {α : Type} {part : Grammar α} (h : Composed part) : Composed part.optional
  | alternatives {α : Type} {parts : List (Grammar α)} (h : ∀ part ∈ parts, Composed part) :
      Composed (Grammar.alternatives parts)
  | sequence {α : Type} {parts : List (Grammar α)} (h : ∀ part ∈ parts, Composed part) :
      Composed (Grammar.sequence parts)
  | preceded {α β : Type} {first : Grammar α} {part : Grammar β} (hfirst : Composed first)
      (h : Composed part) : Composed (Grammar.preceded first part)
  | map {α β : Type} (f : α → β) {part : Grammar α} (h : Composed part) :
      Composed (Grammar.map f part)
  | many1 {α : Type} {part : Grammar α} (h : Composed part) : Composed part.many1

/-- A statement that creates a table, or its table, with its value perhaps changed. -/
inductive Stepwise : {α : Type} → Grammar α → Prop where
  | createTable (d : Dialect) : Stepwise (Rule.createTable.grammar d)
  | tableSchema (d : Dialect) : Stepwise (Rule.tableSchema.grammar d)
  | map {α β : Type} (f : α → β) {part : Grammar α} (h : Stepwise part) :
      Stepwise (Grammar.map f part)

/-! ## Where mismatches are reported -/

/-- A keyword goes back to where it began. -/
theorem isAnchored_keyword (text : String) : (Grammar.keyword text).isAnchored = true := by
  rw [Grammar.keyword, isAnchored, caselessWord]
  split <;> rfl

theorem isAnchored_keywordParts (texts : List String) :
    (Grammar.keywordParts texts).isAnchored = true := by
  match texts with
  | [] => rfl
  | [text] => exact isAnchored_keyword text
  | _ :: _ :: _ => rfl

/-- A choice goes back to where it began, whatever its alternatives do. -/
theorem isAnchored_alternatives {α : Type} (parts : List (Grammar α)) :
    (Grammar.alternatives parts).isAnchored = true := by
  cases parts <;> rfl

/-- A sequence goes back to where it began. -/
theorem isAnchored_sequence {α : Type} (parts : List (Grammar α)) :
    (Grammar.sequence parts).isAnchored = true := by
  cases parts <;> rfl

/-- The rules that report a mismatch behind their start are those of the whole statement. -/
theorem isAnchored_rule (d : Dialect) (name : Rule) :
    (name.grammar d).isAnchored = !(name == .createTable || name == .tableSchema) := by
  cases name <;> rfl

/-- What is composed reports a mismatch where it began, but for whole statements, which are bare
pairs. -/
theorem Composed.isAnchored_or_stepwise {α : Type} {g : Grammar α} (hg : Composed g) :
    g.isAnchored = true ∨ Stepwise g := by
  induction hg with
  | @keyword text h => exact .inl (isAnchored_keyword text)
  | @keywords texts h => exact .inl (isAnchored_keywordParts texts)
  | exactly text => exact .inl rfl
  | rule d name =>
      by_cases hname : name = .createTable ∨ name = .tableSchema
      · rcases hname with rfl | rfl
        · exact .inr (.createTable d)
        · exact .inr (.tableSchema d)
      · exact .inl (by simp_all [isAnchored_rule])
  | optional h ih => exact .inl rfl
  | @alternatives α parts h ih => exact .inl (isAnchored_alternatives parts)
  | @sequence α parts h ih => exact .inl (isAnchored_sequence parts)
  | preceded hfirst h ihfirst ih => exact .inl rfl
  | map f h ih => exact ih.imp_right (.map f)
  | many1 h ih => exact .inl rfl

/-! ## Expressions -/

namespace Expr

theorem map_eq_ok {ε α β : Type*} {x : Except ε α} {f : α → β} {b : β} (h : x.map f = .ok b) :
    ∃ a, x = .ok a ∧ f a = b := by
  cases x with
  | error e => simp [Except.map] at h
  | ok a => exact ⟨a, rfl, by simpa [Except.map] using h⟩

theorem bind_eq_ok {ε α β : Type*} {x : Except ε α} {f : α → Except ε β} {b : β}
    (h : x.bind f = .ok b) : ∃ a, x = .ok a ∧ f a = .ok b := by
  cases x with
  | error e => simp [Except.bind] at h
  | ok a => exact ⟨a, rfl, h⟩

mutual

/-- The grammar of an expression is put together from keywords, single texts and rules. -/
theorem composed_of_grammar (e : Expr) {g : Grammar Value} (h : e.grammar = .ok g) :
    Composed g := by
  cases e with
  | keyword text =>
      rw [grammar, keyword?] at h
      split at h
      · simp [Except.map] at h
      · next hne =>
        obtain rfl := Except.ok.inj h
        exact (Composed.keyword (by simpa using hne)).map _
  | keywords texts =>
      rw [grammar] at h
      split at h
      · simp at h
      · next hne =>
        obtain rfl := Except.ok.inj h
        exact (Composed.keywords (by simpa using hne)).map _
  | exactly text =>
      obtain rfl := Except.ok.inj h
      exact (Composed.exactly text).map _
  | rule name =>
      obtain rfl := Except.ok.inj h
      exact .rule {} name
  | optional part =>
      obtain ⟨k, hk, rfl⟩ := map_eq_ok h
      exact (composed_of_grammar part hk).optional.map _
  | alternatives parts =>
      obtain ⟨ks, hks, rfl⟩ := map_eq_ok h
      exact .alternatives (composed_of_grammars parts hks)
  | sequence parts =>
      obtain ⟨ks, hks, rfl⟩ := map_eq_ok h
      exact (Composed.sequence (composed_of_grammars parts hks)).map _
  | preceded first part =>
      obtain ⟨k, hk, h⟩ := bind_eq_ok h
      obtain ⟨l, hl, rfl⟩ := map_eq_ok h
      exact (composed_of_grammar first hk).preceded (composed_of_grammar part hl)
  | many1 part =>
      obtain ⟨k, hk, rfl⟩ := map_eq_ok h
      exact (composed_of_grammar part hk).many1.map _
  | singleton part =>
      obtain ⟨k, hk, rfl⟩ := map_eq_ok h
      exact (composed_of_grammar part hk).map _

/-- The parts of an expression are composed, one by one. -/
theorem composed_of_grammars (es : List Expr) {gs : List (Grammar Value)}
    (h : grammars es = .ok gs) : ∀ g ∈ gs, Composed g := by
  cases es with
  | nil =>
      obtain rfl := Except.ok.inj h
      simp
  | cons part parts =>
      obtain ⟨k, hk, h⟩ := bind_eq_ok h
      obtain ⟨ks, hks, rfl⟩ := map_eq_ok h
      exact List.forall_mem_cons.2 ⟨composed_of_grammar part hk, composed_of_grammars parts hks⟩

end

end Expr

/-! ## Places -/

/-- **Places**: a grammar that is put together from keywords, single texts and rules matches up to a
place of the same text that lies at or behind its start, and not beyond the end unless its start
does.  A mismatch it reports at its start exactly, and a statement that is read in steps reports it
within the same bounds. -/
theorem Composed.place_of_run {α : Type} {g : Grammar α} (hg : Composed g) (text : List Char)
    (pos : Nat) :
    (∀ next a, g.run (.atPosition text pos) = .matched next a →
      next.text = text ∧ pos ≤ next.pos ∧ next.pos ≤ max pos text.length) ∧
    ∀ place, g.run (.atPosition text pos) = .mismatch place →
      place.text = text ∧ pos ≤ place.pos ∧ place.pos ≤ max pos text.length ∧
        (place.pos = pos ∨ Stepwise g) := by
  refine ⟨fun next a h => ?_, fun place h => ?_⟩
  · obtain ⟨w, hw⟩ := took_of_run h
    exact hw.bounds
  · obtain ⟨w, hw, -⟩ := took_of_mismatch h
    obtain ⟨htext, hle, hmax⟩ := hw.bounds
    refine ⟨htext, hle, hmax, hg.isAnchored_or_stepwise.imp_left fun hanchored => ?_⟩
    rw [eq_of_isAnchored hanchored h]
    rfl

/-- How long the names of a list are, each of which stands behind a comma. -/
def listedNames : Grammar Nat :=
  Grammar.map List.length
    (Grammar.preceded (Grammar.exactly ",") (Rule.identifier.grammar {})).many1

theorem place_of_run_listedNames :
    listedNames.run (.atPosition "a,b,c;".toList 1) = .matched (.atPosition "a,b,c;".toList 5) 2 ∧
      (1 ≤ 5 ∧ 5 ≤ max 1 6) ∧
      listedNames.run (.atPosition "a,b,c;".toList 9) =
        .mismatch (.atPosition "a,b,c;".toList 9) ∧
      (9 = 9 ∨ Stepwise listedNames) := by
  have hround := Composed.preceded (.exactly ",") (.rule {} .identifier)
  have hg : Composed listedNames := .map _ hround.many1
  have hmatched : listedNames.run (.atPosition "a,b,c;".toList 1) =
      .matched (.atPosition "a,b,c;".toList 5) 2 := by decide +kernel
  have hmismatch : listedNames.run (.atPosition "a,b,c;".toList 9) =
      .mismatch (.atPosition "a,b,c;".toList 9) := by decide +kernel
  obtain ⟨-, hbounds⟩ := (hg.place_of_run "a,b,c;".toList 1).1 _ _ hmatched
  obtain ⟨-, -, -, hplace⟩ := (hg.place_of_run "a,b,c;".toList 9).2 _ hmismatch
  exact ⟨hmatched, hbounds, hmismatch, hplace⟩

/-- A table without a parenthesis behind its name is reported behind the name. -/
example :
    (Grammar.map (fun _ => ()) (Rule.createTable.grammar {})).run
        (.start "CREATE TABLE t a INT".toList) =
      .mismatch (.atPosition "CREATE TABLE t a INT".toList 14) := by decide +kernel

end TableDdl.Sql
