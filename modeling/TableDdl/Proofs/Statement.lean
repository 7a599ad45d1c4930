import TableDdl.Proofs.Grammar.Takes
import TableDdl.Proofs.Text.Words
import TableDdl.Statement

/-!
# What a statement comes to

A text is read as a statement just if the grammar matches and nothing but blanks and one semicolon
is left (`Statement.result_read_eq_ok_iff`).  Such a reading leaves no records.
-/

namespace TableDdl

/-! ## Steps -/

/-- A computation succeeds just if its first part and what is done with the result do. -/
theorem Logged.result_bind_eq_ok_iff {α β : Type} {x : Logged α} {k : α → Logged β} {b : β} :
    (x >>= k).result = .ok b ↔ ∃ a, x.result = .ok a ∧ (k a).result = .ok b := by
  obtain ⟨records, result⟩ := x
  cases result with
  | ok a =>
      constructor
      · exact fun h => ⟨a, rfl, h⟩
      · rintro ⟨a', ha, hk⟩
        obtain rfl := Except.ok.inj ha
        exact hk
  | error e =>
      constructor
      · intro h
        exact absurd (show Except.error e = Except.ok b from h) (by simp)
      · rintro ⟨a, ha, -⟩
        simp at ha

/-- Nothing is left behind a statement but blanks and perhaps a semicolon. -/
def Statement.Ends (rest : List Char) : Prop := Statement.afterStatement rest = []

namespace Statement

open Text

variable {d : Dialect} {text rest : List Char} {t : Table}

instance : DecidablePred Ends := fun rest => inferInstanceAs (Decidable (afterStatement rest = []))

/-! ## Ends of statements -/

/-- What ends a statement, behind blanks: nothing, or a semicolon and blanks. -/
theorem ends_iff_trimStart : Ends rest ↔ trimStart rest = [] ∨
    ∃ b, (∀ c ∈ b, isBlank c = true) ∧ trimStart rest = ';' :: b := by
  have hsemi : isBlank ';' = false := by decide
  constructor
  · intro h
    rw [Ends, afterStatement] at h
    split at h
    · next more htrim =>
      obtain ⟨b, hb, happ⟩ := exists_trimEnd (trimStart rest)
      rw [trim] at htrim
      rw [htrim, List.cons_append] at happ
      refine .inr ⟨more ++ b, ?_, happ⟩
      intro c hc
      rcases List.mem_append.1 hc with hc | hc
      · exact trim_eq_nil_iff.1 h c hc
      · exact hb c hc
    · next htrim => exact .inl (trimStart_eq_nil_iff.2 (trim_eq_nil_iff.1 h))
  · rintro (h | ⟨b, hb, h⟩)
    · have htrim : trim rest = [] := by rw [trim, h]; rfl
      rw [Ends, afterStatement, htrim]
    · have htrim : trim rest = [';'] := by
        have hend := trimEnd_append (v := [';']) hb
        rw [List.singleton_append] at hend
        rw [trim, h, hend]
        exact trimEnd_concat (v := []) hsemi
      rw [Ends, afterStatement, htrim]
      rfl

/-- No word comes next where a statement ends. -/
theorem Ends.firstWord_trimStart (h : Ends rest) : firstWord (trimStart rest) = [] := by
  rcases ends_iff_trimStart.1 h with h | ⟨b, -, h⟩
  · rw [h]; rfl
  · rw [h]
    refine firstWord_eq_nil ?_
    rw [headNot_cons]
    decide

/-- No word begins what ends a statement. -/
theorem Ends.firstWord_not_mem (h : Ends rest) {ks : List String} (hks : "" ∉ ks) :
    firstWord (trimStart rest) ∉ ks.map String.toList := by
  rw [h.firstWord_trimStart]
  exact nil_not_mem_map_toList hks

/-! ## Readings -/

theorem result_unparsed {α : Type} (about : String) (remaining : List Char) :
    (unparsed about remaining : Logged α).result = .error (.unparsed (String.ofList remaining)) :=
  rfl

/-- **Readings**: a text has a table just if the grammar matches in front of the end of a
statement. -/
theorem result_read_eq_ok_iff : (read d text).result = .ok t ↔
    ∃ next, (Sql.tableSchema d).run (.start text) = .matched next t ∧ Ends next.rest := by
  rw [read]
  cases h : (Sql.tableSchema d).run (.start text) with
  | matched next table =>
      dsimp only
      by_cases hend : Ends next.rest
      · rw [if_pos (by simpa [Ends] using hend)]
        constructor
        · intro ht
          obtain rfl : table = t := Except.ok.inj ht
          exact ⟨next, rfl, hend⟩
        · rintro ⟨_, hm, -⟩
          obtain ⟨-, rfl⟩ := Outcome.matched.inj hm
          rfl
      · rw [if_neg (by simpa [Ends] using hend), result_unparsed]
        constructor
        · intro ht
          exact absurd ht (by simp)
        · rintro ⟨_, hm, hends⟩
          obtain ⟨rfl, -⟩ := Outcome.matched.inj hm
          exact absurd hends hend
  | mismatch place =>
      dsimp only
      rw [result_unparsed]
      simp
  | overlong digits =>
      constructor
      · intro ht
        simp [Logged.fail] at ht
      · rintro ⟨_, hm, -⟩
        simp at hm

/-- A text that has a table leaves no records. -/
theorem read_eq_pure (h : (read d text).result = .ok t) : read d text = pure t := by
  obtain ⟨next, hm, hends⟩ := result_read_eq_ok_iff.1 h
  rw [read, hm]
  dsimp only
  rw [if_pos (by simpa [Ends] using hends)]

end Statement

end TableDdl
