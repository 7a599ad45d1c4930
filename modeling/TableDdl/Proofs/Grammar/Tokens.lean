import TableDdl.Proofs.Grammar.Reading
import TableDdl.Proofs.Text.Words

/-!
# Reading tokens

What a token takes and rejects depends on how the text in front of it begins, and mostly on its
first word only (`Text.firstWord`).  A keyword matches just where it is the first word
(`run_keyword`), so whether a clause that begins with a keyword is there is decided by one
comparison of words.
-/

namespace TableDdl.Grammar

open Text

variable {α : Type} {u v w : List Char} {k : String}

/-- Behind what a run takes stands what the run left. -/
theorem rest_advance_takeWhile (c : Cursor) (p : Char → Bool) :
    (c.advance (c.rest.takeWhile p).length).rest = c.rest.dropWhile p :=
  Cursor.rest_advance_of_append List.takeWhile_append_dropWhile.symm

/-! ## Keywords -/

/-- The text can be a keyword of the grammar: small letters and underscores, at least one. -/
def isKeyword (k : String) : Bool := !k.toList.isEmpty && k.toList.all isSmall

/-- For a keyword of small letters, the prefix of the same length decides. -/
theorem caselessPrefix_eq {ks text : List Char} (hks : ks.all isSmall = true) :
    caselessPrefix ks text =
      if (text.take ks.length).map asciiLower = ks then some (text.take ks.length) else none := by
  induction ks generalizing text with
  | nil => simp [caselessPrefix]
  | cons k ks ih =>
      rw [List.all_cons, Bool.and_eq_true] at hks
      cases text with
      | nil => simp [caselessPrefix]
      | cons c text =>
          rw [caselessPrefix, ih hks.2]
          by_cases hc : asciiLower c = k
          · have hlt : c.toNat < 0x80 := (isWord_of_isSmall_asciiLower (by rw [hc]; exact hks.1)).2
            rw [if_pos ⟨hlt, hc⟩]
            by_cases ht : (text.take ks.length).map asciiLower = ks <;> simp [ht, hc]
          · rw [if_neg (fun h => hc h.2), if_neg]
            intro h
            exact hc (List.cons.inj h).1

/-- A word is read in any letter case, as it is spelled. -/
theorem reads_caseless {ks : List Char} (hks : ks.all isSmall = true)
    (hw : w.map asciiLower = ks) : Reads (caseless ks) w v w := by
  intro c hc
  have hlen : ks.length = w.length := by rw [← hw, List.length_map]
  have htake : (w ++ v).take ks.length = w := by rw [hlen, List.take_left]
  rw [run, caselessPrefix_eq hks, hc, htake, if_pos hw, Outcome.ofOption, hlen]

theorem rejects_caseless {ks : List Char} (hks : ks.all isSmall = true)
    (hv : (v.take ks.length).map asciiLower ≠ ks) : Rejects (caseless ks) v := by
  intro c hc
  exact ⟨c, by rw [run, caselessPrefix_eq hks, hc, if_neg hv, Outcome.ofOption]⟩

/-- A word ends where no word character follows. -/
theorem reads_wordEnd (hv : HeadNot isWord v) : Reads wordEnd [] v () := by
  intro c hc
  have hany : v.head?.any isWord = false := by
    cases h : v.head? with
    | none => rfl
    | some x => exact hv x h
  rw [List.nil_append] at hc
  rw [wordEnd, run, hc, hany]
  simp

theorem rejects_wordEnd (hv : ¬HeadNot isWord v) : Rejects wordEnd v := by
  intro c hc
  refine ⟨c, ?_⟩
  have hany : v.head?.any isWord = true := by
    by_contra hno
    refine hv fun x hx => ?_
    rw [Option.mem_def.1 hx] at hno
    simpa using hno
  rw [wordEnd, run, hc, hany]
  rfl

/-- However a keyword is written, it consists of word characters. -/
theorem isWord_of_mem_keyword {ks : List Char} (hks : ks.all isSmall = true)
    (hw : w.map asciiLower = ks) : ∀ x ∈ w, isWord x = true := by
  intro x hx
  have hm : asciiLower x ∈ ks := hw ▸ List.mem_map_of_mem hx
  exact (isWord_of_isSmall_asciiLower (List.all_eq_true.1 hks _ hm)).1

/-- All ways to write a keyword are words. -/
theorem isWord_of_isKeyword (hk : isKeyword k = true) (hw : w.map asciiLower = k.toList) :
    ∀ x ∈ w, isWord x = true :=
  isWord_of_mem_keyword (Bool.and_eq_true_iff.1 hk).2 hw

/-- The spelling of a keyword, and the end of the word behind it. -/
theorem keyword_eq (hk : isKeyword k = true) :
    keyword k =
      Grammar.map String.ofList (Grammar.map Prod.fst (seq (caseless k.toList) wordEnd)) := by
  rw [isKeyword, Bool.and_eq_true] at hk
  obtain ⟨hne, hall⟩ := hk
  have hlast : k.toList.getLast?.any isWord = true := by
    cases hl : k.toList.getLast? with
    | none => simp [List.getLast?_eq_none_iff.1 hl] at hne
    | some x =>
        have hs := List.all_eq_true.1 hall x (List.mem_of_getLast? hl)
        exact (isWord_of_isSmall_asciiLower (by rwa [asciiLower_eq_self hs])).1
  rw [keyword, lower, lowerAfter_eq_self hall, caselessWord, if_pos hlast]

/-- A way to write a keyword: its letters in any case. -/
theorem reads_keyword (hk : isKeyword k = true) (hw : w.map asciiLower = k.toList)
    (hv : HeadNot isWord v) : Reads (keyword k) w v (String.ofList w) := by
  have hall := (Bool.and_eq_true_iff.1 hk).2
  have hread := (reads_caseless (v := [] ++ v) hall hw).seq (reads_wordEnd hv)
  rw [List.append_nil] at hread
  rw [keyword_eq hk]
  exact (hread.map Prod.fst).map String.ofList

/-- Where the first word is another, the keyword does not stand. -/
theorem rejects_keyword (hk : isKeyword k = true) (hv : firstWord v ≠ k.toList) :
    Rejects (keyword k) v := by
  have hall := (Bool.and_eq_true_iff.1 hk).2
  rw [keyword_eq hk]
  refine Rejects.map (Rejects.map ?_ _) _
  by_cases ht : (v.take k.toList.length).map asciiLower = k.toList
  · -- The keyword stands there, and the word goes on behind it.
    have hend : ¬HeadNot isWord (v.drop k.toList.length) := by
      intro hhead
      refine hv ?_
      rw [← List.take_append_drop k.toList.length v,
        firstWord_append (isWord_of_mem_keyword hall ht) hhead, ht]
    have hrej := (reads_caseless hall ht).rejects_seq (rejects_wordEnd hend)
    rwa [List.take_append_drop] at hrej
  · exact (rejects_caseless hall ht).seq wordEnd

/-- **Keywords**: a keyword matches where it is the first word, in any case, and takes that word. -/
theorem run_keyword (hk : isKeyword k = true) (c : Cursor) :
    (keyword k).run c =
      if firstWord c.rest = k.toList then
        .matched (c.advance k.toList.length) (String.ofList (c.rest.takeWhile isWord))
      else .mismatch c := by
  split
  · next hw =>
    have happ := (List.takeWhile_append_dropWhile (p := isWord) (l := c.rest)).symm
    rw [reads_keyword hk hw (headNot_dropWhile isWord c.rest) c happ, ← hw, firstWord,
      List.length_map]
  · next hw =>
    obtain ⟨place, hp⟩ := rejects_keyword hk hw c rfl
    rw [keyword_eq hk, run_map, run_map, seq, run_attempt] at hp ⊢
    revert hp
    cases (pair (caseless k.toList) wordEnd).run c <;>
      simp [Outcome.recover, Outcome.map]

/-- A keyword matches just the first word that is left, and takes all of it. -/
theorem run_keyword_eq_matched {c next : Cursor} {a : String} (hk : isKeyword k = true)
    (hm : (keyword k).run c = .matched next a) :
    firstWord c.rest = k.toList ∧ next = c.advance (c.rest.takeWhile isWord).length := by
  rw [run_keyword hk] at hm
  split at hm
  · next hfirst =>
    obtain ⟨rfl, -⟩ := Outcome.matched.inj hm
    rw [← hfirst, firstWord, List.length_map]
    exact ⟨rfl, rfl⟩
  · simp at hm

/-! ## Blanks -/

/-- A run is read as far as the test holds. -/
theorem reads_span {p : Char → Bool} (hw : ∀ c ∈ w, p c = true) (hv : HeadNot p v) :
    Reads (span p) w v w := by
  intro c hc
  rw [run, hc, takeWhile_append_of_headNot hw hv]

theorem reads_whitespace0 (hw : ∀ c ∈ w, isBlank c = true) (hv : HeadNot isBlank v) :
    Reads whitespace0 w v (String.ofList w) :=
  (reads_span hw hv).map String.ofList

/-- A run that is not empty is read up to where it ends. -/
theorem reads_nonempty_span {p : Char → Bool} (hne : w ≠ []) (hw : ∀ c ∈ w, p c = true)
    (hv : HeadNot p v) : Reads (refine nonempty? (span p)) w v w :=
  (reads_span hw hv).refine (by rw [nonempty?, if_neg (by simpa using hne)])

/-- A run that may not be empty fails where its first character does. -/
theorem rejects_nonempty_span {p : Char → Bool} (hv : HeadNot p v) :
    Rejects (refine nonempty? (span p)) v := by
  have hread : Reads (span p) [] v [] := reads_span (by simp) hv
  exact hread.rejects_refine (f := nonempty?) rfl

/-- Blanks that must be there are read as those that may. -/
theorem reads_whitespace1 (hne : w ≠ []) (hw : ∀ c ∈ w, isBlank c = true)
    (hv : HeadNot isBlank v) : Reads whitespace1 w v (String.ofList w) :=
  (reads_nonempty_span hne hw hv).map String.ofList

theorem rejects_whitespace1 (hv : HeadNot isBlank v) : Rejects whitespace1 v :=
  (rejects_nonempty_span hv).map String.ofList

/-- Blanks that may be missing are read over, however many there are. -/
theorem run_whitespace0 (c : Cursor) :
    ∃ next w, whitespace0.run c = .matched next w ∧ next.rest = trimStart c.rest :=
  ⟨_, _, rfl, rest_advance_takeWhile c isBlank⟩

theorem run_whitespace1 {c : Cursor} (hc : ¬HeadNot isBlank c.rest) :
    ∃ next w, whitespace1.run c = .matched next w ∧ next.rest = trimStart c.rest := by
  have hne : c.rest.takeWhile isBlank ≠ [] := by
    intro hnil
    refine hc ?_
    have happ := takeWhile_append_trimStart c.rest
    rw [hnil, List.nil_append] at happ
    rw [← happ]
    exact headNot_trimStart _
  exact ⟨_, _, reads_whitespace1 hne all_of_mem_takeWhile (headNot_trimStart c.rest) c
    (takeWhile_append_trimStart c.rest).symm, rest_advance_takeWhile c isBlank⟩

theorem run_whitespace0_eq_matched {c next : Cursor} {a : String}
    (hm : whitespace0.run c = .matched next a) : next.rest = trimStart c.rest := by
  obtain ⟨_, _, hw, hrest⟩ := run_whitespace0 c
  rw [hm] at hw
  exact (Outcome.matched.inj hw).1 ▸ hrest

/-- Blanks that must not be missing are there, and all of them are taken. -/
theorem run_whitespace1_eq_matched {c next : Cursor} {a : String}
    (hm : whitespace1.run c = .matched next a) :
    ¬HeadNot isBlank c.rest ∧ next.rest = trimStart c.rest := by
  have hblank : ¬HeadNot isBlank c.rest := by
    intro hhead
    obtain ⟨place, hp⟩ := rejects_whitespace1 hhead c rfl
    rw [hp] at hm
    simp at hm
  obtain ⟨_, _, hw, hrest⟩ := run_whitespace1 hblank
  rw [hm] at hw
  exact ⟨hblank, (Outcome.matched.inj hw).1 ▸ hrest⟩

/-- What is rejected behind the blanks is rejected together with them. -/
theorem rejects_seq_whitespace0 {g : Grammar α} (hg : Rejects g (trimStart v)) :
    Rejects (seq whitespace0 g) v := by
  have hb := isBlank_of_mem_takeWhile v
  have hrej := (reads_whitespace0 hb (headNot_trimStart v)).rejects_seq hg
  rwa [trimStart, List.takeWhile_append_dropWhile] at hrej

/-- Blanks in front do not keep a grammar from being rejected behind them. -/
theorem rejects_seq_whitespace1 {g : Grammar α} (hg : Rejects g (trimStart v)) :
    Rejects (seq whitespace1 g) v := by
  have hb := isBlank_of_mem_takeWhile v
  by_cases hne : v.takeWhile isBlank = []
  · refine (rejects_whitespace1 ?_).seq g
    intro c hc
    cases v with
    | nil => simp at hc
    | cons x v =>
        obtain rfl : x = c := by simpa using hc
        by_contra hx
        simp [List.takeWhile_cons, hx] at hne
  · have hrej := (reads_whitespace1 hne hb (headNot_trimStart v)).rejects_seq hg
    rwa [trimStart, List.takeWhile_append_dropWhile] at hrej

/-- Blanks in front do not help what is rejected behind them. -/
theorem rejects_behind_whitespace0 {g : Grammar α} (hg : Rejects g (trimStart v)) :
    Rejects (preceded whitespace0 g) v :=
  (rejects_seq_whitespace0 hg).map Prod.snd

theorem rejects_behind_whitespace1 {g : Grammar α} (hg : Rejects g (trimStart v)) :
    Rejects (preceded whitespace1 g) v :=
  (rejects_seq_whitespace1 hg).map Prod.snd

/-! ## Marks -/

/-- A mark is read as itself. -/
theorem reads_exactly {s : String} (hs : s.toList ≠ []) : Reads (exactly s) s.toList v s := by
  have hread : Reads (literal s.toList) s.toList v s.toList := by
    intro c hc
    have hpre : c.startsWith s.toList = true := by
      rw [Cursor.startsWith, hc, Bool.and_eq_true]
      refine ⟨List.isPrefixOf_iff_prefix.2 (List.prefix_append _ _), ?_⟩
      simp [hs]
    rw [run, hpre]
    simp
  have hmap := hread.map String.ofList
  rwa [String.ofList_toList] at hmap

theorem rejects_exactly {s : String} (hv : ¬s.toList <+: v) : Rejects (exactly s) v := by
  refine Rejects.map ?_ String.ofList
  intro c hc
  have hpre : c.startsWith s.toList = false := by
    rw [Cursor.startsWith, hc, Bool.and_eq_false_iff]
    exact .inl (Bool.eq_false_iff.2 fun h => hv (List.isPrefixOf_iff_prefix.1 h))
  exact ⟨c, by rw [run, hpre]; rfl⟩

/-- A mark of one character is told by that character. -/
theorem rejects_exactly_singleton {s : String} {x : Char} (hs : s.toList = [x])
    (hv : v.head? ≠ some x) : Rejects (exactly s) v := by
  refine rejects_exactly ?_
  rw [hs]
  rintro ⟨rest, rfl⟩
  exact hv rfl

/-! ## Names -/

/-- A name is written as it is, with or without a backtick on either side. -/
theorem reads_identifier {o e : List Char} (hne : w ≠ []) (hw : ∀ c ∈ w, isWord c = true)
    (ho : o = [] ∨ o = ['`']) (he : e = [] ∨ e = ['`']) (hv : HeadNot isWord v)
    (hb : v.head? ≠ some '`') : Reads identifier (o ++ (w ++ e)) v (String.ofList w) := by
  have hopen : ∃ found, Reads (optional (exactly "`")) o (w ++ e ++ v) found := by
    rcases ho with rfl | rfl
    · refine ⟨none, (rejects_exactly_singleton (x := '`') rfl ?_).optional⟩
      cases w with
      | nil => exact absurd rfl hne
      | cons x w =>
          intro hx
          obtain rfl : x = '`' := by simpa using hx
          exact absurd (hw '`' (by simp)) (by decide)
    · exact ⟨some "`", (reads_exactly (s := "`") (by decide)).optional⟩
  have hclose : ∃ found, Reads (optional (exactly "`")) e v found := by
    rcases he with rfl | rfl
    · exact ⟨none, (rejects_exactly_singleton (x := '`') rfl hb).optional⟩
    · exact ⟨some "`", (reads_exactly (s := "`") (by decide)).optional⟩
  have hend : HeadNot isWord (e ++ v) := by
    rcases he with rfl | rfl
    · exact hv
    · rw [headNot_append (by simp), headNot_cons]
      decide
  obtain ⟨_, hopen⟩ := hopen
  obtain ⟨_, hclose⟩ := hclose
  exact (hopen.seq ((reads_nonempty_span hne hw hend).seq hclose)).map _

/-- A name begins with a word character or a tick. -/
theorem rejects_identifier (hv : HeadNot isWord v) (hb : v.head? ≠ some '`') :
    Rejects identifier v := by
  have hopen : Reads (optional (exactly "`")) [] v none :=
    (rejects_exactly_singleton (x := '`') rfl hb).optional
  exact (hopen.rejects_seq ((rejects_nonempty_span hv).seq _)).map _

/-- A backtick alone is no name. -/
theorem rejects_identifier_of_tick (hv : HeadNot isWord v) : Rejects identifier ('`' :: v) := by
  have hopen : Reads (optional (exactly "`")) ['`'] v (some "`") :=
    (reads_exactly (s := "`") (by decide)).optional
  exact (hopen.rejects_seq ((rejects_nonempty_span hv).seq _)).map _

/-! ## Numbers and strings -/

/-- Up to as many digits as are allowed are read as their number. -/
theorem reads_unsignedInteger (hne : w ≠ []) (hw : ∀ c ∈ w, isDigit c = true)
    (hlen : w.length ≤ maxDigits) (hv : HeadNot isDigit v) :
    Reads unsignedInteger w v (Nat.ofDigitChars 10 w 0) := by
  intro c hc
  have hpos : w.length ≠ 0 := fun h => hne (List.length_eq_zero_iff.1 h)
  rw [unsignedInteger, run, runNumber, hc, takeWhile_append_of_headNot hw hv, if_neg hpos,
    if_neg (by omega)]

theorem rejects_unsignedInteger (hv : HeadNot isDigit v) : Rejects unsignedInteger v := by
  intro c hc
  have htake : v.takeWhile isDigit = [] := by
    have := takeWhile_append_of_headNot (u := []) (by simp) hv
    rwa [List.nil_append] at this
  refine ⟨c, ?_⟩
  rw [unsignedInteger, run, runNumber, hc, htake]
  rfl

/-- A string is read as what its body spells. -/
theorem reads_quotedString {q : Char} {content body : List Char} (hq : Quoted.isQuote q = true)
    (hs : Quoted.Spells content body) :
    Reads quotedString (q :: body ++ [q]) v (String.ofList content) := by
  refine Reads.map ?_ String.ofList
  intro c hc
  have hd : Quoted.decode c.rest = some (content, body.length + 2) :=
    Quoted.decode_eq_some_iff.2 ⟨q, body, v, hq, by simpa using hc, hs, rfl⟩
  have hlen : (q :: body ++ [q]).length = body.length + 2 := by simp
  rw [run, hd, hlen]

theorem rejects_quotedString (hv : HeadNot Quoted.isQuote v) : Rejects quotedString v := by
  refine Rejects.map ?_ String.ofList
  intro c hc
  exact ⟨c, by rw [run, hc, Quoted.decode_eq_none hv]⟩

end TableDdl.Grammar
