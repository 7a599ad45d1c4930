import TableDdl.Proofs.Grammar.Choice
import TableDdl.Proofs.Sql.Written

/-!
# Written tokens are accepted

Each token of the grammar accepts the language that it is written in.  What a clause promises of
the text in front of it is that certain words or marks come next, blanks apart (`Next`); from this
the optional clauses that could stand before it know that they are not there.
-/

namespace TableDdl.Written

open Grammar Text

variable {α β : Type} {g : Grammar α} {h : Grammar β} {L M : Language Char} {P : α → Prop}
  {Q : β → Prop} {E F : List Char → Prop} {v : List Char} {ks ls : List String} {ms : List Char}

/-! ## What comes next -/

/-- The text may stand behind a word or a name. -/
def Clear (v : List Char) : Prop := HeadNot isWord v ∧ v.head? ≠ some '`'

/-- One of the keywords is the first word. -/
def Begins (ks : List String) (v : List Char) : Prop := firstWord v ∈ ks.map String.toList

/-- One of the keywords or one of the marks comes next, blanks apart. -/
def Next (ks : List String) (ms : List Char) (v : List Char) : Prop :=
  Clear v ∧ (Begins ks (trimStart v) ∨ ∃ m ∈ ms, (trimStart v).head? = some m)

/-- The text begins with a blank, and behind the blanks `F` holds. -/
def Spaced (F : List Char → Prop) (v : List Char) : Prop :=
  (∃ b ∈ v.head?, isBlank b = true) ∧ F (trimStart v)

/-- A name comes next. -/
def Named (v : List Char) : Prop := ∃ x ∈ v.head?, isWord x = true ∨ x = '`'

/-- This mark comes next. -/
def Marked (m : Char) (v : List Char) : Prop := v.head? = some m

/-- A digit comes next. -/
def Digit (v : List Char) : Prop := ∃ x ∈ v.head?, isDigit x = true

/-- A quote comes next. -/
def Quote (v : List Char) : Prop := ∃ q ∈ v.head?, Quoted.isQuote q = true

/-- A blank ends a word, and it is no backtick. -/
theorem clear_of_isBlank_head? (hv : ∃ b ∈ v.head?, isBlank b = true) : Clear v := by
  obtain ⟨b, hb, hblank⟩ := hv
  have hb := Option.mem_def.1 hb
  refine ⟨headNot_of_head? hb (not_isWord_of_isBlank hblank), ?_⟩
  rw [hb]
  rintro ⟨⟩
  exact absurd hblank (by decide)

theorem Spaced.clear (hv : Spaced F v) : Clear v := clear_of_isBlank_head? hv.1

/-- The blanks in front, and what stands behind them. -/
theorem Spaced.exists_blanks (hv : Spaced F v) : ∃ b ∈ blanks1, v = b ++ trimStart v := by
  refine ⟨v.takeWhile isBlank, ⟨?_, all_of_mem_takeWhile⟩, (takeWhile_append_trimStart v).symm⟩
  obtain ⟨x, hx, hblank⟩ := hv.1
  obtain ⟨rest, rfl⟩ := List.head?_eq_some_iff.1 hx
  rw [List.takeWhile_cons_of_pos hblank]
  exact List.cons_ne_nil _ _

/-- A mark ends a word. -/
theorem Marked.clear {m : Char} (hv : Marked m v) (hm : isWord m = false) (ht : m ≠ '`') :
    Clear v := by
  refine ⟨headNot_of_head? hv hm, ?_⟩
  rw [hv]
  exact fun h => ht (Option.some.inj h)

/-- A keyword that comes next begins with a word character. -/
theorem Begins.exists_isWord (hv : Begins ks v) (hks : "" ∉ ks) :
    ∃ x ∈ v.head?, isWord x = true := by
  by_contra hnone
  have hnil : firstWord v = [] := by
    refine firstWord_eq_nil fun x hx => ?_
    by_contra hword
    exact hnone ⟨x, hx, Bool.of_not_eq_false hword⟩
  rw [Begins, hnil] at hv
  exact nil_not_mem_map_toList hks hv

/-- A keyword begins with no blank. -/
theorem Begins.headNot_isBlank (hv : Begins ks v) (hks : "" ∉ ks) : HeadNot isBlank v := by
  obtain ⟨x, hx, hword⟩ := hv.exists_isWord hks
  exact headNot_of_head? hx (not_isBlank_of_isWord hword)

/-- More keywords may come next. -/
theorem Begins.mono (hv : Begins ks v) (hs : ks ⊆ ls) : Begins ls v :=
  List.map_subset _ hs hv

theorem Begins.of_mem {k : String} (hv : Begins [k] v) (hk : k ∈ ks) : Begins ks v :=
  hv.mono (List.cons_subset.2 ⟨hk, List.nil_subset _⟩)

/-- A text that begins with one of these words begins with none of the others. -/
theorem Begins.not_begins (hv : Begins ks v) (hd : ∀ k ∈ ks, k ∉ ls) : ¬Begins ls v :=
  not_mem_map_toList hv hd

/-- Neither a word nor a backtick begins with a blank. -/
theorem Named.headNot_isBlank (hv : Named v) : HeadNot isBlank v := by
  obtain ⟨x, hx, hword | rfl⟩ := hv
  · exact headNot_of_head? hx (not_isBlank_of_isWord hword)
  · exact headNot_of_head? hx (by decide)

theorem Digit.headNot_isBlank (hv : Digit v) : HeadNot isBlank v := by
  obtain ⟨x, hx, hd⟩ := hv
  exact headNot_of_head? hx (not_isBlank_of_isWord (isWord_of_isDigit hd))

/-- A string goes on no word. -/
theorem Quote.headNot_isWord (hv : Quote v) : HeadNot isWord v := by
  obtain ⟨q, hq, hquote⟩ := hv
  rcases Quoted.isQuote_iff.1 hquote with rfl | rfl
  · exact headNot_of_head? hq (by decide)
  · exact headNot_of_head? hq (by decide)

theorem Quote.headNot_isBlank (hv : Quote v) : HeadNot isBlank v := by
  obtain ⟨q, hq, hquote⟩ := hv
  rcases Quoted.isQuote_iff.1 hquote with rfl | rfl
  · exact headNot_of_head? hq (by decide)
  · exact headNot_of_head? hq (by decide)

theorem Next.mono {ns : List Char} (hv : Next ks ms v) (hs : ks ⊆ ls) (hm : ms ⊆ ns) :
    Next ls ns v :=
  ⟨hv.1, hv.2.imp (fun hw => hw.mono hs) fun ⟨m, hmem, hhead⟩ => ⟨m, hm hmem, hhead⟩⟩

/-- The next mark is none that is neither listed nor part of a word. -/
theorem Next.head?_ne (hv : Next ks ms v) (hks : "" ∉ ks) {x : Char} (hx : isWord x = false)
    (hm : x ∉ ms) : (trimStart v).head? ≠ some x := by
  intro hhead
  rcases hv.2 with hw | ⟨m, hmem, hm'⟩
  · obtain ⟨y, hy, hword⟩ := hw.exists_isWord hks
    rw [hhead] at hy
    obtain rfl := Option.some.inj hy
    rw [hx] at hword
    exact Bool.false_ne_true hword
  · rw [hhead] at hm'
    obtain rfl := Option.some.inj hm'
    exact hm hmem

/-- In front of a mark stands no word. -/
theorem Next.firstWord_eq_nil (hv : Next [] ms v) (hms : ∀ m ∈ ms, isWord m = false) :
    firstWord (trimStart v) = [] := by
  rcases hv.2 with hw | ⟨m, hmem, hm⟩
  · exact absurd hw List.not_mem_nil
  · exact Text.firstWord_eq_nil (headNot_of_head? hm (hms m hmem))

/-- A clause that opens with other words does not come next. -/
theorem Next.rejects (hv : Next ks ms v) (hg : OpensBehind g ls) (hd : ∀ k ∈ ks, k ∉ ls)
    (hms : ∀ m ∈ ms, isWord m = false) (hls : "" ∉ ls) : Rejects g v := by
  refine hg v ?_
  rcases hv.2 with hw | ⟨m, hmem, hm⟩
  · exact hw.not_begins hd
  · rw [Text.firstWord_eq_nil (headNot_of_head? hm (hms m hmem))]
    exact nil_not_mem_map_toList hls

/-- A grammar that opens with other words is not there. -/
theorem Begins.rejects (hv : Begins ks v) (hg : Opens g ls) (hd : ∀ k ∈ ks, k ∉ ls) :
    Rejects g v :=
  hg v (hv.not_begins hd)

/-! ## Keywords -/

/-- A keyword is accepted wherever the text behind it does not go on the word. -/
theorem accepts_word {k : String} (hk : isKeyword k = true) :
    Accepts (keyword k) (word k) (fun _ => True) (Begins [k]) (HeadNot isWord) := by
  intro w hw v hv
  have hword : ∀ c ∈ w, isWord c = true :=
    isWord_of_isKeyword hk hw
  refine ⟨?_, _, trivial, reads_keyword hk hw hv⟩
  rw [Begins, firstWord_append hword hv]
  exact List.mem_singleton.2 hw

/-- What stands behind a keyword does not go on the word. -/
theorem accepts_behind_word {k : String} (hk : isKeyword k = true) (hh : Accepts h M Q F E)
    (hF : ∀ v, F v → HeadNot isWord v) :
    Accepts (preceded (keyword k) h) (word k * M) Q (Begins [k]) E :=
  ((accepts_word hk).behind hF).preceded hh

/-- A choice between grammars that open with different words. -/
theorem accepts_choice {ι : Type} {k : ι → String} {f : ι → Grammar α} {items : List ι} {i : ι}
    (hi : i ∈ items) (hnodup : (items.map k).Nodup) (hf : ∀ j ∈ items, Opens (f j) [k j])
    (hg : Accepts (f i) L P (Begins [k i]) E) :
    Accepts (alternatives (items.map f)) L P (Begins [k i]) E := by
  have hpair : (items.map f).Pairwise Apart := by
    rw [List.pairwise_map]
    refine (List.pairwise_map.1 hnodup).imp_of_mem fun hj hl hne => (hf _ hj).apart (hf _ hl) ?_
    simpa using hne
  exact hg.alternatives_of_pairwise hpair (List.mem_map_of_mem hi)

/-- A choice between keywords. -/
theorem accepts_keyword_of_mem {k : String} (hk : k ∈ ks) (hks : ∀ l ∈ ks, isKeyword l = true)
    (hnodup : ks.Nodup) :
    Accepts (alternatives (ks.map keyword)) (word k) (fun _ => True) (Begins [k])
      (HeadNot isWord) :=
  accepts_choice (f := keyword) (k := id) hk (by rwa [List.map_id])
    (fun l hl => opens_keyword (hks l hl)) (accepts_word (hks k hk))

/-- A choice between keywords, each with its value. -/
theorem accepts_wordChoice {κ : Type} {entries : List (String × κ)} {entry : String × κ}
    (he : entry ∈ entries) (hk : ∀ e ∈ entries, isKeyword e.1 = true)
    (hnodup : (entries.map Prod.fst).Nodup) :
    Accepts (alternatives (entries.map fun e => map (fun _ => e.2) (keyword e.1))) (word entry.1)
      (· = entry.2) (Begins [entry.1]) (HeadNot isWord) :=
  accepts_choice (k := Prod.fst) (f := fun e => map (fun _ => e.2) (keyword e.1)) he hnodup
    (fun e he => (opens_keyword (hk e he)).map _)
    ((accepts_word (hk entry he)).map _ fun _ _ => rfl)

/-! ## Blanks -/

/-- Blanks may be missing, if what comes behind them does not begin with one. -/
theorem accepts_blanks0 (hF : ∀ v, F v → HeadNot isBlank v) :
    Accepts whitespace0 blanks0 (fun _ => True)
      (fun v => F (trimStart v) ∧ (F v ∨ ∃ b ∈ v.head?, isBlank b = true)) F := by
  intro w hw v hv
  have htrim : trimStart (w ++ v) = v := by rw [trimStart_append hw, trimStart_eq_self (hF v hv)]
  refine ⟨⟨by rwa [htrim], ?_⟩, _, trivial, reads_whitespace0 hw (hF v hv)⟩
  cases w with
  | nil => exact .inl hv
  | cons b w => exact .inr ⟨b, rfl, hw b List.mem_cons_self⟩

/-- No blanks. -/
theorem accepts_no_blanks (hF : ∀ v, F v → HeadNot isBlank v) :
    Accepts whitespace0 1 (fun _ => True) F F := by
  rintro _ rfl v hv
  exact ⟨hv, _, trivial, reads_whitespace0 (w := []) (by simp) (hF v hv)⟩

/-- Blanks that must be there are followed by what begins with none. -/
theorem accepts_blanks1 (hF : ∀ v, F v → HeadNot isBlank v) :
    Accepts whitespace1 blanks1 (fun _ => True) (Spaced F) F := by
  rintro w ⟨hne, hw⟩ v hv
  have htrim : trimStart (w ++ v) = v := by rw [trimStart_append hw, trimStart_eq_self (hF v hv)]
  refine ⟨⟨?_, by rwa [htrim]⟩, _, trivial, reads_whitespace1 hne hw (hF v hv)⟩
  cases w with
  | nil => exact absurd rfl hne
  | cons b w => exact ⟨b, rfl, hw b List.mem_cons_self⟩

/-- A clause behind blanks that cannot be left out. -/
theorem accepts_behind_blanks1 (hg : Accepts g L P (Begins ks) E) (hks : "" ∉ ks) :
    Accepts (preceded whitespace1 g) (blanks1 * L) P (Next ks []) E :=
  ((accepts_blanks1 fun _ hv => hv.headNot_isBlank hks).preceded hg).front
    fun _ hv => ⟨hv.clear, .inl hv.2⟩

/-- Blanks in front of a mark. -/
theorem accepts_blanks0_mark {m : Char} (hm : isWord m = false ∧ isBlank m = false ∧ m ≠ '`') :
    Accepts whitespace0 blanks0 (fun _ => True) (Next [] [m]) (Marked m) := by
  refine (accepts_blanks0 fun v hv => headNot_of_head? hv hm.2.1).front fun v hv => ?_
  refine ⟨?_, .inr ⟨m, List.mem_singleton_self m, hv.1⟩⟩
  rcases hv.2 with hmark | hblank
  · exact Marked.clear hmark hm.1 hm.2.2
  · exact clear_of_isBlank_head? hblank

/-- Keywords with blanks between them. -/
theorem accepts_words (k : String) (rest : List String) (hk : isKeyword k = true)
    (hrest : ∀ l ∈ rest, isKeyword l = true) :
    Accepts (keywords (k :: rest)) (words (k :: rest)) (fun _ => True) (Begins [k])
      (HeadNot isWord) := by
  suffices h : Accepts (keywordParts (k :: rest)) (words (k :: rest)) (fun _ => True) (Begins [k])
      (HeadNot isWord) from h.map _ fun _ _ => trivial
  induction rest generalizing k with
  | nil => exact (accepts_word hk).map _ fun _ _ => trivial
  | cons l rest ih =>
      have hl := hrest l List.mem_cons_self
      have hparts := ih l hl fun j hj => hrest j (List.mem_cons_of_mem l hj)
      have hne : "" ∉ [l] := by
        intro hmem
        obtain rfl := List.mem_singleton.1 hmem
        exact absurd hl (by decide)
      have hbehind := accepts_behind_blanks1 hparts hne
      exact (((accepts_word hk).behind fun v (hv : Next [l] [] v) => hv.1.1).seq hbehind).map _
        fun _ _ => trivial

/-- A clause that is not there. -/
theorem accepts_none (hopens : OpensBehind g ls) (hd : ∀ k ∈ ks, k ∉ ls) (hls : "" ∉ ls)
    (hms : ∀ m ∈ ms, isWord m = false) :
    Accepts (optional g) 1 (fun _ => True) (Next ks ms) (Next ks ms) :=
  accepts_optional_none fun _ hv => hv.rejects hopens hd hms hls

/-- What comes next behind an optional clause may come next in front of it, too, and the clause
adds the words that it begins with. -/
theorem accepts_clause? {ι : Type} {L : ι → Language Char} {P : ι → α → Prop} {new : List String}
    (ks : List String) (hopens : OpensBehind g ls) (hd : ∀ k ∈ ks, k ∉ ls) (hls : "" ∉ ls)
    (hms : ∀ m ∈ ms, isWord m = false)
    (hsome : ∀ i, Accepts g (L i) (P i) (Next new []) (Next ks ms)) (o : Option ι) :
    Accepts (optional g) (clause o L) (Option.Rel P o) (Next (new ++ ks) ms) (Next ks ms) := by
  refine accepts_optional (fun i => ?_) (fun v hv => ⟨?_, ?_⟩) o
  · exact (hsome i).front fun v hv => hv.mono (List.subset_append_left _ _) (List.nil_subset _)
  · exact hv.mono (List.subset_append_right _ _) (List.Subset.refl _)
  · exact hv.rejects hopens hd hms hls

/-! ## Marks, names, numbers and strings -/

/-- A mark is accepted in front of anything. -/
theorem accepts_mark {s : String} {m : Char} (hs : s.toList = [m]) :
    Accepts (exactly s) (mark m) (fun _ => True) (Marked m) E := by
  rintro _ rfl v -
  refine ⟨rfl, s, trivial, ?_⟩
  have hread := reads_exactly (s := s) (v := v) (by simp [hs])
  rwa [hs] at hread

theorem mem_tick {w : List Char} (hw : w ∈ (1 + mark '`' : Language Char)) :
    w = [] ∨ w = ['`'] := hw

/-- A name is accepted with its ticks and without them. -/
theorem accepts_name (n : Name) : Accepts identifier n.written (· = n.value) Named Clear := by
  rintro _ ⟨o, ho, _, ⟨_, rfl, e, he, rfl⟩, rfl⟩ v hv
  have hread := reads_identifier n.ne_nil n.isWord_of_mem (mem_tick ho) (mem_tick he) hv.1 hv.2
  refine ⟨?_, _, rfl, hread⟩
  rcases mem_tick ho with rfl | rfl
  · obtain ⟨x, w, hw⟩ := List.exists_cons_of_ne_nil n.ne_nil
    exact ⟨x, by simp [hw], .inl (n.isWord_of_mem x (by simp [hw]))⟩
  · exact ⟨'`', by simp, .inr rfl⟩

/-- With a backtick on one side at least, a name is still written as a name may be. -/
theorem ticked_subset (n : Name) : ∀ w ∈ n.ticked, w ∈ n.written := by
  rintro _ (⟨_, rfl, _, ⟨_, rfl, e, he, rfl⟩, rfl⟩ | ⟨_, rfl, _, rfl, rfl⟩)
  · exact ⟨['`'], .inr rfl, _, ⟨n.text, rfl, e, he, rfl⟩, rfl⟩
  · exact ⟨[], .inl rfl, _, ⟨n.text, rfl, ['`'], .inr rfl, rfl⟩, rfl⟩

/-- A number is accepted in front of anything but a further digit. -/
theorem accepts_numeral (n : Nat) :
    Accepts unsignedInteger (numeral n) (· = n) Digit (HeadNot isDigit) := by
  rintro w ⟨hne, hw, hlen, rfl⟩ v hv
  refine ⟨?_, _, rfl, reads_unsignedInteger hne hw hlen hv⟩
  obtain ⟨x, w, rfl⟩ := List.exists_cons_of_ne_nil hne
  exact ⟨x, rfl, hw x List.mem_cons_self⟩

/-- A string ends with its own quote, so anything may follow. -/
theorem accepts_quotedText (content : List Char) :
    Accepts quotedString (quotedText content) (· = String.ofList content)
      Quote E := by
  rintro _ ⟨q, body, hq, hs, rfl⟩ v -
  exact ⟨⟨q, rfl, hq⟩, _, rfl, reads_quotedString hq hs⟩

end TableDdl.Written
