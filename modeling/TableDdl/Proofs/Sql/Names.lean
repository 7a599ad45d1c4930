import Mathlib.Algebra.GroupWithZero.Nat
import TableDdl.Proofs.Sql.Heads

/-!
# Where the name of a table stands

The name of a table is the last word in front of the first parenthesis of its statement, and the
words before it have no more letters than the longest opening, `CREATE TEMPORARY TABLE IF NOT
EXISTS` (`exists_headWords_of_read`).  So a text in front of a statement that has this opening
cannot be read as the beginning of it.
-/

namespace TableDdl

open Grammar Text Written

variable {u v : List Char} {m n : Nat} {c next : Cursor}

/-- The text has no parenthesis, and no more than `n` word characters. -/
def Brief (n : Nat) (u : List Char) : Prop := '(' ∉ u ∧ (u.filter isWord).length ≤ n

instance (n : Nat) : DecidablePred (Brief n) := fun u =>
  inferInstanceAs (Decidable ('(' ∉ u ∧ (u.filter isWord).length ≤ n))

theorem brief_nil (n : Nat) : Brief n [] := ⟨List.not_mem_nil, Nat.zero_le n⟩

theorem Brief.filter_eq_nil (hu : Brief 0 u) : u.filter isWord = [] :=
  List.length_eq_zero_iff.1 (Nat.le_zero.1 hu.2)

/-- The word characters of two texts add up. -/
theorem Brief.append (hu : Brief m u) (hv : Brief n v) : Brief (m + n) (u ++ v) := by
  refine ⟨fun h => (List.mem_append.1 h).elim hu.1 hv.1, ?_⟩
  rw [List.filter_append, List.length_append]
  exact Nat.add_le_add hu.2 hv.2

/-- Blanks have no word characters. -/
theorem filter_isWord_of_isBlank (hu : ∀ c ∈ u, isBlank c = true) : u.filter isWord = [] :=
  List.filter_eq_nil_iff.2 fun c hc => by simp [not_isWord_of_isBlank (hu c hc)]

theorem brief_of_isBlank (hu : ∀ c ∈ u, isBlank c = true) : Brief 0 u :=
  ⟨fun h => absurd (hu _ h) (by decide), by rw [filter_isWord_of_isBlank hu]; rfl⟩

theorem not_mem_of_isWord (hu : ∀ c ∈ u, isWord c = true) : '(' ∉ u :=
  fun h => absurd (hu _ h) (by decide)

/-- A keyword is as long in any letter case. -/
theorem brief_word {k : String} (hk : isKeyword k = true) (hu : u ∈ word k) :
    Brief k.length u := by
  refine ⟨not_mem_of_isWord (isWord_of_isKeyword hk hu), (List.length_filter_le _ _).trans ?_⟩
  have hlen := congrArg List.length (show u.map asciiLower = k.toList from hu)
  rw [List.length_map, String.length_toList] at hlen
  exact hlen.le

/-! ## The words of a head -/

/-- The number of characters of the words together. -/
def lettersOf (ks : List String) : Nat := (ks.map String.length).sum

/-- Keywords have as many word characters as their letters. -/
theorem took_keywordParts {ks ws : List String} (hks : ∀ k ∈ ks, isKeyword k = true)
    (h : (keywordParts ks).run c = .matched next ws) :
    ∃ u, Brief (lettersOf ks) u ∧ c.Took next u := by
  induction ks generalizing c ws with
  | nil =>
      obtain ⟨rfl, -⟩ := Outcome.matched.inj h
      exact ⟨[], brief_nil _, c.took_nil⟩
  | cons k ks ih =>
      have hk := hks k List.mem_cons_self
      cases ks with
      | nil =>
          obtain ⟨w, hw, -⟩ := run_map_eq_matched_iff.1 h
          obtain ⟨u, hu, htu, -⟩ := took_keyword hk hw
          exact ⟨u, brief_word hk hu, htu⟩
      | cons l ls =>
          obtain ⟨parts, hparts, -⟩ := run_map_eq_matched_iff.1 h
          obtain ⟨c1, hword, hrest⟩ := run_seq_eq_matched_iff.1 hparts
          obtain ⟨c2, b, hspace, hrest⟩ := run_preceded_eq_matched_iff.1 hrest
          obtain ⟨u, hu, htu, -⟩ := took_keyword hk hword
          obtain ⟨s, hs, hts⟩ := took_whitespace1 hspace
          obtain ⟨v, hv, htv⟩ := ih (fun j hj => hks j (List.mem_cons_of_mem k hj)) hrest
          refine ⟨_, (brief_word hk hu).append ?_, htu.trans (hts.trans htv)⟩
          have := (brief_of_isBlank hs.2).append hv
          rwa [Nat.zero_add] at this

/-- The eleven letters of the words are there, or none of them. -/
theorem took_ifNotExists {found : Option (String × String)}
    (h : Sql.ifNotExists.run c = .matched next found) : ∃ u, Brief 11 u ∧ c.Took next u := by
  rcases run_optional_eq_matched h with ⟨a, ha, -⟩ | ⟨-, rfl, -⟩
  · obtain ⟨mid, hwords, hblank⟩ := run_seq_eq_matched_iff.1 ha
    obtain ⟨ws, hws, -⟩ := run_map_eq_matched_iff.1 hwords
    obtain ⟨u, hu, htu⟩ := took_keywordParts (by decide) hws
    obtain ⟨v, hv, htv⟩ := took_whitespace1 hblank
    exact ⟨u ++ v, hu.append (brief_of_isBlank hv.2), htu.trans htv⟩
  · exact ⟨[], brief_nil _, next.took_nil⟩

/-- `TEMPORARY` has nine letters. -/
theorem brief_of_mem_flag {temporary : Bool}
    (hu : u ∈ flag temporary (word "temporary" * blanks1)) : Brief 9 u := by
  cases temporary with
  | false =>
      obtain rfl : u = [] := hu
      exact brief_nil _
  | true =>
      obtain ⟨x, hx, y, hy, rfl⟩ := hu
      exact (brief_word (by decide) hx).append (brief_of_isBlank hy.2)

/-- A backtick takes up no word characters. -/
theorem took_tick {found : Option String}
    (h : (optional (exactly "`")).run c = .matched next found) :
    ∃ u, Brief 0 u ∧ c.Took next u := by
  rcases run_optional_eq_matched h with ⟨a, ha, -⟩ | ⟨-, rfl, -⟩
  · exact ⟨_, by decide, took_exactly ha⟩
  · exact ⟨[], brief_nil _, next.took_nil⟩

/-- A name is taken with its backticks, which are no word characters. -/
theorem took_identifier {name : String} (h : identifier.run c = .matched next name) :
    ∃ u, '(' ∉ u ∧ u.filter isWord = name.toList ∧ c.Took next u := by
  obtain ⟨parts, hparts, rfl⟩ := run_map_eq_matched_iff.1 h
  obtain ⟨c1, hfront, hrest⟩ := run_seq_eq_matched_iff.1 hparts
  obtain ⟨c2, hword, hback⟩ := run_seq_eq_matched_iff.1 hrest
  obtain ⟨w, hw, hne⟩ := run_refine_eq_matched_iff.1 hword
  obtain ⟨rfl, rfl⟩ := Outcome.matched.inj hw
  obtain ⟨u, hu, htu⟩ := took_tick hfront
  obtain ⟨v, hv, htv⟩ := took_tick hback
  have hall : ∀ x ∈ c1.rest.takeWhile isWord, isWord x = true :=
    fun _ hx => List.mem_takeWhile_imp hx
  have hname : c1.rest.takeWhile isWord = parts.2.1 := (nonempty?_eq_some hne).1
  refine ⟨u ++ (c1.rest.takeWhile isWord ++ v), ?_, ?_,
    htu.trans ((took_takeWhile c1 isWord).trans htv)⟩
  · simp only [List.mem_append, not_or]
    exact ⟨hu.1, not_mem_of_isWord hall, hv.1⟩
  · rw [List.filter_append, List.filter_append, hu.filter_eq_nil, hv.filter_eq_nil,
      List.filter_eq_self.2 hall, List.nil_append, List.append_nil, hname, String.toList_ofList]

/-! ## The name -/

/-- The word characters in front of the first parenthesis. -/
def headWords (text : List Char) : List Char := (text.takeWhile (· != '(')).filter isWord

/-- Behind the first parenthesis, word characters do not count. -/
theorem headWords_append_parenthesis (hu : '(' ∉ u) (v : List Char) :
    headWords (u ++ '(' :: v) = u.filter isWord := by
  have hall : ∀ x ∈ u, (x != '(') = true := fun x hx => bne_iff_ne.2 fun h => hu (h ▸ hx)
  rw [headWords, takeWhile_append_of_headNot hall (headNot_cons.2 (by decide))]

/-- `TEMPORARY` and `TABLE` have fourteen letters. -/
theorem took_tableHead {parts : String × Option (String × String) × String × String}
    (h : Sql.tableHead.run c = .matched next parts) : ∃ u, Brief 14 u ∧ c.Took next u := by
  obtain ⟨c1, hspace, h⟩ := run_seq_eq_matched_iff.1 h
  obtain ⟨c2, htemporary, h⟩ := run_seq_eq_matched_iff.1 h
  obtain ⟨c3, htable, hspace'⟩ := run_seq_eq_matched_iff.1 h
  obtain ⟨s, hs, hts⟩ := took_whitespace1 hspace
  obtain ⟨temporary, f, hf, htf⟩ := Sql.took_temporaryWord htemporary
  obtain ⟨k, hk, htk, -⟩ := took_keyword (by decide) htable
  obtain ⟨s', hs', hts'⟩ := took_whitespace1 hspace'
  have htable := (brief_word (by decide) hk).append (brief_of_isBlank hs'.2)
  exact ⟨_, (brief_of_isBlank hs.2).append ((brief_of_mem_flag hf).append htable),
    hts.trans (htf.trans (htk.trans hts'))⟩

/-- Between the name of a table and the first parenthesis stand only blanks. -/
theorem exists_name_of_tableParts {d : Dialect} {parts : String × List BodyLine × TableOptions}
    (h : (Sql.tableParts d).run c = .matched next parts) :
    ∃ n b rest, c.rest = n ++ b ++ '(' :: rest ∧ '(' ∉ n ∧ n.filter isWord = parts.1.toList ∧
      ∀ x ∈ b, isBlank x = true := by
  obtain ⟨c1, hname, h⟩ := run_pair_eq_matched_iff.1 h
  obtain ⟨c2, _, hopen, -⟩ := run_map_snd_pair_eq_matched_iff.1 h
  obtain ⟨c3, hspace, hopen⟩ := run_seq_eq_matched_iff.1 hopen
  obtain ⟨c4, hopen, -⟩ := run_seq_eq_matched_iff.1 hopen
  obtain ⟨n, hn, hletters, htn⟩ := took_identifier hname
  obtain ⟨b, hb, htb⟩ := took_whitespace0 hspace
  have htext := (htn.trans (htb.trans (took_exactly hopen))).1
  exact ⟨n, b, c4.rest, by simpa using htext, hn, hletters, hb⟩

/-- **Names**: the name of a table is the last word in front of the first parenthesis, and the words
before it are no longer than the longest opening. -/
theorem exists_headWords_of_read {d : Dialect} {text : List Char} {t : Table}
    (h : (Statement.read d text).result = .ok t) :
    ∃ words, headWords text = words ++ t.name.toList ∧ words.length ≤ 31 := by
  obtain ⟨next, hm, -⟩ := Statement.result_read_eq_ok_iff.1 h
  obtain ⟨s, hs, rfl⟩ := run_map_eq_matched_iff.1 hm
  obtain ⟨parts, hparts, rfl⟩ := run_map_eq_matched_iff.1 hs
  obtain ⟨c1, hblanks, h1⟩ := run_pair_eq_matched_iff.1 hparts
  obtain ⟨c2, hcreate, h2⟩ := run_pair_eq_matched_iff.1 h1
  obtain ⟨c3, hhead, h3⟩ := run_pair_eq_matched_iff.1 h2
  obtain ⟨c4, hexists, h4⟩ := run_pair_eq_matched_iff.1 h3
  -- the words in front of the name
  obtain ⟨b, hb, htb⟩ := took_whitespace0 hblanks
  obtain ⟨w, hw, htw, -⟩ := took_keyword (by decide) hcreate
  obtain ⟨u, hu, htu⟩ := took_tableHead hhead
  obtain ⟨e, he, hte⟩ := took_ifNotExists hexists
  have hbrief := (brief_of_isBlank hb).append ((brief_word (by decide) hw).append (hu.append he))
  have hfront := (htb.trans (htw.trans (htu.trans hte))).1
  generalize b ++ (w ++ (u ++ e)) = front at hbrief hfront
  -- the name, and the parenthesis behind it
  obtain ⟨n, b', rest, hname, hn, hletters, hb'⟩ := exists_name_of_tableParts h4
  have hnone := brief_of_isBlank hb'
  have hmark : '(' ∉ front ++ (n ++ b') := by
    simp only [List.mem_append, not_or]
    exact ⟨hbrief.1, hn, hnone.1⟩
  have htext : text = front ++ (n ++ b') ++ '(' :: rest := by
    rw [hname] at hfront
    simpa using hfront
  refine ⟨front.filter isWord, ?_, hbrief.2⟩
  rw [htext, headWords_append_parenthesis hmark, List.filter_append, List.filter_append, hletters,
    hnone.filter_eq_nil, List.append_nil]
  rfl

end TableDdl
