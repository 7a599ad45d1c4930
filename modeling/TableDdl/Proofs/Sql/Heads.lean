import TableDdl.Proofs.Sql.Steady
import TableDdl.Proofs.Sql.Written.Tables
import TableDdl.Script.Comments

/-!
# How statements begin

A statement begins with `CREATE`, perhaps `TEMPORARY`, and `TABLE`, with blanks between them
(`opening`), and no text that begins otherwise is taken for one (`isCreateTable_iff`).  So whether a
text is taken for one does not depend on what stands behind the first mark in it.
-/

namespace TableDdl

open Grammar Text Written

namespace Grammar

variable {c next : Cursor} {w : String} {k : String}

/-! ## What tokens take -/

theorem took_whitespace0 (h : whitespace0.run c = .matched next w) :
    ∃ u ∈ blanks0, c.Took next u := by
  obtain ⟨rfl, -⟩ := Outcome.matched.inj h
  exact ⟨_, isBlank_of_mem_takeWhile c.rest, took_takeWhile c isBlank⟩

theorem took_whitespace1 (h : whitespace1.run c = .matched next w) :
    ∃ u ∈ blanks1, c.Took next u := by
  obtain ⟨t, ht, -⟩ := run_map_eq_matched_iff.1 h
  obtain ⟨u, hu, hne⟩ := run_refine_eq_matched_iff.1 ht
  obtain ⟨rfl, rfl⟩ := Outcome.matched.inj hu
  obtain ⟨rfl, hne⟩ := nonempty?_eq_some hne
  exact ⟨_, ⟨hne, isBlank_of_mem_takeWhile c.rest⟩, took_takeWhile c isBlank⟩

/-- A keyword takes a spelling of itself, and no word character comes behind it. -/
theorem took_keyword (hk : isKeyword k = true) (h : (keyword k).run c = .matched next w) :
    ∃ u ∈ word k, c.Took next u ∧ HeadNot isWord next.rest := by
  obtain ⟨hfirst, rfl⟩ := run_keyword_eq_matched hk h
  refine ⟨_, hfirst, took_takeWhile c isWord, ?_⟩
  rw [rest_advance_takeWhile]
  exact headNot_dropWhile isWord c.rest

end Grammar

namespace Sql

/-- The words that a statement begins with, and the blanks before and between them. -/
def opening (temporary : Bool) : Language Char :=
  blanks0 * (word "create" * (blanks1 * (flag temporary (word "temporary" * blanks1) *
    word "table")))

/-- The word is there with blanks behind it, or nothing is taken. -/
theorem took_temporaryWord {c next : Cursor} {found : Option (String × String)}
    (h : temporaryWord.run c = .matched next found) :
    ∃ temporary, ∃ u ∈ flag temporary (word "temporary" * blanks1), c.Took next u := by
  rcases run_optional_eq_matched h with ⟨a, ha, -⟩ | ⟨-, rfl, -⟩
  · obtain ⟨mid, hword, hblank⟩ := run_seq_eq_matched_iff.1 ha
    obtain ⟨u, hu, htu, -⟩ := took_keyword (by decide) hword
    obtain ⟨v, hv, htv⟩ := took_whitespace1 hblank
    exact ⟨true, u ++ v, Language.append_mem_mul hu hv, htu.trans htv⟩
  · exact ⟨false, [], rfl, next.took_nil⟩

/-- The keywords of an opening are read, if no other word runs on from them. -/
theorem accepts_opening (temporary : Bool) :
    Accepts createTableHead (opening temporary) (fun _ => True) (fun _ => True)
      (HeadNot isWord) := by
  have htable := accepts_word (k := "table") (by decide)
  have hrest := (accepts_temporaryWord temporary).seq htable
  have hfront := accepts_blanks1 fun v (hv : Begins ["temporary", "table"] v) =>
    hv.headNot_isBlank (by decide)
  have hcreate := (accepts_word (k := "create") (by decide)).behind
    fun v (hv : Spaced (Begins ["temporary", "table"]) v) => hv.clear.1
  have hblanks := accepts_blanks0 fun v (hv : Begins ["create"] v) => hv.headNot_isBlank (by decide)
  have hall := hblanks.seq (hcreate.seq (hfront.seq hrest))
  exact (hall.front fun _ _ => trivial).map _ fun _ _ => trivial

/-- **How statements begin**: a text is taken for a statement that creates a table just if these
words come first, and no other word runs on from them. -/
theorem isCreateTable_iff {text : List Char} :
    isCreateTable text = true ↔
      ∃ temporary, ∃ u ∈ opening temporary, ∃ v, text = u ++ v ∧ HeadNot isWord v := by
  constructor
  · intro h
    rw [isCreateTable] at h
    split at h
    · next next value hm =>
      obtain ⟨parts, hm, -⟩ := run_map_eq_matched_iff.1 hm
      obtain ⟨c1, hblanks, h1⟩ := run_seq_eq_matched_iff.1 hm
      obtain ⟨c2, hcreate, h2⟩ := run_seq_eq_matched_iff.1 h1
      obtain ⟨c3, hspace, h3⟩ := run_seq_eq_matched_iff.1 h2
      obtain ⟨c4, htemporary, htable⟩ := run_seq_eq_matched_iff.1 h3
      obtain ⟨b, hb, htb⟩ := took_whitespace0 hblanks
      obtain ⟨w, hw, htw, -⟩ := took_keyword (by decide) hcreate
      obtain ⟨s, hs, hts⟩ := took_whitespace1 hspace
      obtain ⟨temporary, t, ht, htt⟩ := took_temporaryWord htemporary
      obtain ⟨k, hk, htk, hend⟩ := took_keyword (by decide) htable
      have htook := htb.trans (htw.trans (hts.trans (htt.trans htk)))
      have hwords := Language.append_mem_mul hs (Language.append_mem_mul ht hk)
      have hopening := Language.append_mem_mul hb (Language.append_mem_mul hw hwords)
      exact ⟨temporary, _, hopening, next.rest, htook.1, hend⟩
    · exact absurd h Bool.false_ne_true
  · rintro ⟨temporary, u, hu, v, rfl, hv⟩
    obtain ⟨-, a, -, hread⟩ := accepts_opening temporary u hu v hv
    rw [isCreateTable, hread (.start (u ++ v)) rfl]

/-! ## Openings hold no marks -/

/-- Neither a blank nor a word character. -/
def isMark (c : Char) : Bool := !isBlank c && !isWord c

/-- An opening consists of words and blanks, and has no mark. -/
theorem not_isMark_of_mem_opening {temporary : Bool} {u : List Char} (hu : u ∈ opening temporary) :
    ∀ c ∈ u, isMark c = false := by
  have hblank {b : List Char} (hb : ∀ c ∈ b, isBlank c = true) : ∀ c ∈ b, isMark c = false :=
    fun c hc => by simp [isMark, hb c hc]
  have hword {k : String} {w : List Char} (hk : isKeyword k = true) (hw : w ∈ word k) :
      ∀ c ∈ w, isMark c = false :=
    fun c hc => by simp [isMark, isWord_of_isKeyword hk hw c hc]
  obtain ⟨b, hb, _, ⟨w, hw, _, ⟨s, hs, _, ⟨t, ht, k, hk, rfl⟩, rfl⟩, rfl⟩, rfl⟩ := hu
  have htemporary : ∀ c ∈ t, isMark c = false := by
    cases temporary with
    | false =>
        obtain rfl : t = [] := ht
        simp
    | true =>
        obtain ⟨x, hx, y, hy, rfl⟩ := ht
        exact List.forall_mem_append.2 ⟨hword (by decide) hx, hblank hy.2⟩
  have htable := List.forall_mem_append.2 ⟨htemporary, hword (by decide) hk⟩
  have hspaced := List.forall_mem_append.2 ⟨hblank hs.2, htable⟩
  have hcreate := List.forall_mem_append.2 ⟨hword (by decide) hw, hspaced⟩
  exact List.forall_mem_append.2 ⟨hblank hb, hcreate⟩

/-- What stands behind the first mark does not matter for whether a text is taken for a
statement. -/
theorem isCreateTable_append_iff {text : List Char} (hmark : ∃ c ∈ text, isMark c = true)
    (more : List Char) : isCreateTable (text ++ more) = true ↔ isCreateTable text = true := by
  obtain ⟨x, hx, hxm⟩ := hmark
  rw [isCreateTable_iff, isCreateTable_iff]
  constructor
  · rintro ⟨temporary, u, hu, v, htext, hv⟩
    rcases List.append_eq_append_iff.1 htext with ⟨w, rfl, -⟩ | ⟨w, rfl, rfl⟩
    · -- the opening would hold the mark
      have := not_isMark_of_mem_opening hu x (List.mem_append_left w hx)
      rw [hxm] at this
      exact absurd this.symm Bool.false_ne_true
    · refine ⟨temporary, u, hu, w, rfl, ?_⟩
      cases w with
      | nil =>
          rw [List.append_nil] at hx
          have := not_isMark_of_mem_opening hu x hx
          rw [hxm] at this
          exact absurd this.symm Bool.false_ne_true
      | cons c w => simpa using hv
  · rintro ⟨temporary, u, hu, v, rfl, hv⟩
    refine ⟨temporary, u, hu, v ++ more, by simp, ?_⟩
    cases v with
    | nil =>
        rw [List.append_nil] at hx
        have := not_isMark_of_mem_opening hu x hx
        rw [hxm] at this
        exact absurd this.symm Bool.false_ne_true
    | cons c v => simpa using hv

/-! ## Statements that are read -/

/-- What is read as a statement is taken for one. -/
theorem isCreateTable_of_read {d : Dialect} {text : List Char} {t : Table}
    (h : (Statement.read d text).result = .ok t) : isCreateTable text = true := by
  obtain ⟨next, hm, -⟩ := Statement.result_read_eq_ok_iff.1 h
  obtain ⟨s, hs, -⟩ := run_map_eq_matched_iff.1 hm
  obtain ⟨parts, hparts, -⟩ := run_map_eq_matched_iff.1 hs
  obtain ⟨c1, hblanks, h1⟩ := run_pair_eq_matched_iff.1 hparts
  obtain ⟨c2, hcreate, h2⟩ := run_pair_eq_matched_iff.1 h1
  obtain ⟨c3, hhead, -⟩ := run_pair_eq_matched_iff.1 h2
  obtain ⟨c4, hspace, hhead⟩ := run_seq_eq_matched_iff.1 hhead
  obtain ⟨c5, htemporary, hhead⟩ := run_seq_eq_matched_iff.1 hhead
  obtain ⟨c6, htable, -⟩ := run_seq_eq_matched_iff.1 hhead
  have hwords := run_seq_of_matched hspace (run_seq_of_matched htemporary htable)
  have hopening := run_seq_of_matched hblanks (run_seq_of_matched hcreate hwords)
  have hrun : createTableHead.run (.start text) = .matched c6 () := run_map_of_matched hopening _
  rw [isCreateTable, hrun]

/-- Blanks in front do not matter for whether a text is taken for a statement. -/
theorem isCreateTable_trimStart (text : List Char) :
    isCreateTable (trimStart text) = isCreateTable text := by
  have htrim : trimStart (trimStart text) = trimStart text :=
    trimStart_eq_self (headNot_trimStart text)
  have hrel := Script.relaid_refl .plain (trimStart text)
  rw [Bool.eq_iff_iff]
  exact ⟨fun h => isCreateTable_of_relaid Script.ending_exactly (by rwa [htrim]) h,
    fun h => isCreateTable_of_relaid Script.ending_exactly (by rwa [htrim]) h⟩

/-- Behind the blanks, a statement begins with a word character. -/
theorem exists_trimStart_of_isCreateTable {text : List Char} (h : isCreateTable text = true) :
    ∃ c rest, trimStart text = c :: rest ∧ isWord c = true := by
  obtain ⟨temporary, _, ⟨b, hb, _, ⟨w, hw, s, -, rfl⟩, rfl⟩, v, rfl, -⟩ := isCreateTable_iff.1 h
  have hword := isWord_of_isKeyword (k := "create") (by decide) hw
  cases w with
  | nil => exact absurd (show [] = "create".toList from hw) (by decide)
  | cons c w =>
      have hc := hword c List.mem_cons_self
      refine ⟨c, w ++ (s ++ v), ?_, hc⟩
      dsimp only
      rw [List.append_assoc, trimStart_append hb, List.cons_append, List.cons_append,
        trimStart_eq_self (headNot_cons.2 (not_isBlank_of_isWord hc)), List.append_assoc]

/-- No comment stands in front of a statement. -/
theorem stripComments_of_isCreateTable {text : List Char} (h : isCreateTable text = true) :
    Script.stripComments text = trimStart text := by
  obtain ⟨c, rest, htrim, hc⟩ := exists_trimStart_of_isCreateTable h
  have hslash : c ≠ '/' := by
    rintro rfl
    exact absurd hc (by decide)
  have hnone : Script.afterComment? (trimStart text) = none := by
    rw [htrim, Script.afterComment?.eq_def]
    split
    · next r hr => exact absurd (List.cons.inj hr).1 hslash
    · rfl
  rw [Script.stripComments.eq_def]
  split
  · next r hr =>
    rw [hnone] at hr
    simp at hr
  · rfl

end Sql

end TableDdl
