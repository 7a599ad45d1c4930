import TableDdl.Proofs.Grammar.Progress
import TableDdl.Proofs.Sql.Words

/-!
# Reading ends

Two loops of the grammar do not look whether a round took anything: the one over the lines of a
table body and the one over the options.  They need not, because each line and each option takes at
least a word.  The other repetitions look, and end whatever is repeated.
-/

namespace TableDdl.Sql

open Grammar

/-- **Reading ends**: lines, options and columns of an index move on with each match and stay within
the text.  The loops over lines and over options, which do not look, come to what the grammar reads,
after one reading more than the text has characters at most.  A loop that looks does so for every
grammar, and has no more values than it takes characters. -/
theorem loops_end (d : Dialect) :
    (Advances (bodyLine d.extendedTypes) ∧ Advances indexColumn ∧
      ∀ g ∈ optionSettings, Advances g ∧ Advances (preceded whitespace0 g)) ∧
    (∀ c : Cursor, ∃ o,
      loopRun false (bodyLine d.extendedTypes).run (c.text.length + 1) c = some o ∧
        (many1 (bodyLine d.extendedTypes)).run c =
          o.bind fun next lines => .ofOption c next (nonempty? lines)) ∧
    (∀ c : Cursor, ∃ o,
      loopRun false (preceded whitespace0 optionSetting).run (c.text.length + 1) c = some o ∧
        (tableOptions true).run c =
          o.map fun settings => settings.foldl OptionSetting.apply {}) ∧
    ∀ {α : Type} (g : Grammar α) (c : Cursor),
      (∃ o, loopRun true g.run (c.text.length + 1) c = some o ∧
        (many1 g).run c = o.bind fun next values => .ofOption c next (nonempty? values)) ∧
      ∀ next values, (many1 g).run c = .matched next values →
        c.pos + values.length ≤ next.pos := by
  have hlength (c : Cursor) : c.rest.length < c.text.length + 1 := by
    rw [c.length_rest]
    omega
  have hline := moves_bodyLine d.extendedTypes
  have hoption : Moves (preceded whitespace0 optionSetting) := moves_optionSetting.preceded_right _
  refine ⟨⟨hline.advances, moves_indexColumn.advances, fun g hg => ?_⟩, fun c => ?_, fun c => ?_,
    fun g c => ⟨?_, fun next values hm => length_le_of_run_many1 hm⟩⟩
  · have hmoves := moves_of_mem_optionSettings g hg
    exact ⟨hmoves.advances, (hmoves.preceded_right _).advances⟩
  · exact ⟨_, loopRun_eq (.inr hline) (hlength c), rfl⟩
  · exact ⟨_, loopRun_eq (.inr hoption) (hlength c), rfl⟩
  · exact ⟨_, loopRun_eq (.inl rfl) (hlength c), rfl⟩

theorem loops_end_emptyMatch :
    (many1 (optional (exactly ","))).run (.start ",,)".toList) =
      .matched (.atPosition ",,)".toList 2) [some ",", some ","] ∧
    0 + 2 ≤ 2 ∧ Advances (preceded whitespace0 (map OptionSetting.comment commentOption)) := by
  have hrun : (many1 (optional (exactly ","))).run (.start ",,)".toList) =
      .matched (.atPosition ",,)".toList 2) [some ",", some ","] := by decide +kernel
  have hmem : map OptionSetting.comment commentOption ∈ optionSettings := by
    rw [optionSettings]
    exact .tail _ (.tail _ (.tail _ (.head _)))
  exact ⟨hrun, ((loops_end {}).2.2.2 _ _).2 _ _ hrun, ((loops_end {}).1.2.2 _ hmem).2⟩

end TableDdl.Sql
