import TableDdl.Proofs.Script.Pieces

/-!
# Quotes and cuts, said without a scan

`Outside text` says that a text ends outside of quotes: it is a row of characters that are no
quotes and of quoted stretches, each from a quote to the next one of its kind.  Between `'` or `"`
a backslash hides the character behind it, between backticks it does not (`Enclosed`).  The scan of
a script says the same (`scan_eq_plain_iff`).

There is one way to cut a script at semicolons such that no piece has a further semicolon outside
of quotes and each semicolon cut at stands outside of them (`Cutting`).  A script is read by this
way, and since the blanks around a piece change nothing about its quotes, the statements of a
script are cut in the same way again when they are joined.
-/

namespace TableDdl.Script

open Text Mode

/-! ## Outside of quotes -/

/-- A text that may stand between two quotes of the kind `q`. -/
inductive Enclosed (q : Char) : List Char → Prop where
  | nil : Enclosed q []
  | char {c : Char} {body : List Char} (hq : c ≠ q) (hslash : c = '\\' → q = '`')
      (h : Enclosed q body) : Enclosed q (c :: body)
  | hidden {c : Char} {body : List Char} (hq : q ≠ '`') (h : Enclosed q body) :
      Enclosed q ('\\' :: c :: body)

/-- Each quote in the text has its partner. -/
inductive Outside : List Char → Prop where
  | nil : Outside []
  | char {c : Char} {text : List Char} (hc : c ∉ ['\'', '"', '`']) (h : Outside text) :
      Outside (c :: text)
  | quoted {q : Char} {body text : List Char} (hq : q ∈ ['\'', '"', '`']) (hbody : Enclosed q body)
      (h : Outside text) : Outside (q :: body ++ q :: text)

theorem isOpening_iff {c : Char} : isOpening c = true ↔ c ∈ ['\'', '"', '`'] := by
  simp [isOpening, or_assoc]

theorem backslash_ne_of_isOpening {q : Char} (hq : isOpening q = true) : '\\' ≠ q := by
  rintro rfl
  exact absurd hq (by decide)

/-- Inside of quotes, only the same quote and a backslash do anything, and between ticks only the
tick. -/
theorem step_enclosed {q c : Char} (hq : c ≠ q) (hslash : c = '\\' → q = '`') :
    (Mode.quoted q).step c = .quoted q := by
  rw [step, if_neg hq, if_neg fun h => h.2 (hslash h.1)]

theorem step_backslash {q : Char} (hq : isOpening q = true) (htick : q ≠ '`') :
    (Mode.quoted q).step '\\' = .escaped q := by
  rw [step, if_neg (backslash_ne_of_isOpening hq), if_pos ⟨rfl, htick⟩]

/-- Between quotes the scan comes back to the quotes. -/
theorem Enclosed.scan {q : Char} {body : List Char} (hq : isOpening q = true)
    (h : Enclosed q body) : (Mode.quoted q).scan body = .quoted q := by
  induction h with
  | nil => rfl
  | char hc hslash _ ih => rw [scan_cons, step_enclosed hc hslash, ih]
  | hidden htick _ ih =>
      rw [scan_cons, scan_cons, step_backslash hq htick]
      exact ih

/-- Nothing is cut between quotes. -/
theorem Enclosed.uncut {q : Char} {body : List Char} (hq : isOpening q = true)
    (h : Enclosed q body) : Uncut (.quoted q) body := by
  induction h with
  | nil => exact uncut_nil _
  | char hc hslash _ ih =>
      refine uncut_cons rfl ?_
      rwa [step_enclosed hc hslash]
  | hidden htick _ ih =>
      refine uncut_cons rfl ?_
      rw [step_backslash hq htick]
      exact uncut_cons rfl ih

/-- A stretch in quotes leads back out of them. -/
theorem scan_quoted_stretch {q : Char} {body : List Char} (hq : isOpening q = true)
    (h : Enclosed q body) : plain.scan (q :: body ++ [q]) = .plain := by
  rw [List.cons_append, scan_cons, step, if_pos hq, scan_append, h.scan hq, scan_cons, step,
    if_pos rfl, scan_nil]

theorem uncut_quoted_stretch {q : Char} {body : List Char} (hq : isOpening q = true)
    (h : Enclosed q body) : Uncut .plain (q :: body ++ [q]) := by
  have hopen : isCut .plain q = false := by
    by_contra hcut
    obtain ⟨-, rfl⟩ := isCut_eq_true_iff.1 (Bool.of_not_eq_false hcut)
    exact absurd hq (by decide)
  refine uncut_cons hopen ?_
  rw [step, if_pos hq]
  refine uncut_append (h.uncut hq) ?_
  rw [h.scan hq]
  exact uncut_cons rfl (uncut_nil _)

/-- A text whose quotes are all closed leads to no open quote. -/
theorem Outside.scan {text : List Char} (h : Outside text) : plain.scan text = .plain := by
  induction h with
  | nil => rfl
  | char hc _ ih =>
      rw [scan_cons, step, if_neg fun h => hc (isOpening_iff.1 h), ih]
  | @quoted q body text hq hbody _ ih =>
      have hsplit : q :: body ++ q :: text = q :: body ++ [q] ++ text := by simp
      rw [hsplit, scan_append, scan_quoted_stretch (isOpening_iff.2 hq) hbody, ih]

/-- Quotes that a scan leaves are closed by a quote of their kind.  The second half is the first
behind a backslash, where the next character is hidden whatever it is. -/
theorem exists_enclosed (q : Char) (text : List Char) :
    ((Mode.quoted q).scan text = .plain →
      ∃ body rest, text = body ++ q :: rest ∧ Enclosed q body ∧ plain.scan rest = .plain) ∧
    ((Mode.escaped q).scan text = .plain →
      ∃ c body rest, text = c :: body ++ q :: rest ∧ Enclosed q body ∧
        plain.scan rest = .plain) := by
  induction text with
  | nil => exact ⟨fun h => by simp at h, fun h => by simp at h⟩
  | cons c text ih =>
      refine ⟨fun h => ?_, fun h => ?_⟩
      · rw [scan_cons, step] at h
        split at h
        · next hc => exact ⟨[], text, by rw [hc]; rfl, .nil, h⟩
        split at h
        · next hslash =>
          obtain ⟨rfl, htick⟩ := hslash
          obtain ⟨d, body, rest, rfl, hbody, hrest⟩ := ih.2 h
          exact ⟨'\\' :: d :: body, rest, rfl, .hidden htick hbody, hrest⟩
        · next hc hslash =>
          obtain ⟨body, rest, rfl, hbody, hrest⟩ := ih.1 h
          exact ⟨c :: body, rest, rfl,
            .char hc (fun h => not_not.1 fun htick => hslash ⟨h, htick⟩) hbody, hrest⟩
      · obtain ⟨body, rest, rfl, hbody, hrest⟩ := ih.1 h
        exact ⟨c, body, rest, rfl, hbody, hrest⟩

/-- **Quotes**: the scan of a text ends outside of quotes just if each quote in it has its
partner. -/
theorem scan_eq_plain_iff {text : List Char} : plain.scan text = .plain ↔ Outside text := by
  refine ⟨fun h => ?_, Outside.scan⟩
  induction hn : text.length using Nat.strongRecOn generalizing text with
  | _ n ih =>
  subst hn
  cases text with
  | nil => exact .nil
  | cons c text =>
      rw [scan_cons, step] at h
      split at h
      · next hc =>
        obtain ⟨body, rest, rfl, hbody, hrest⟩ := (exists_enclosed c text).1 h
        have hlen : rest.length < (c :: (body ++ c :: rest)).length := by
          simp only [List.length_cons, List.length_append]
          omega
        exact .quoted (isOpening_iff.1 hc) hbody (ih _ hlen hrest rfl)
      · next hc => exact .char (fun hm => hc (isOpening_iff.2 hm)) (ih _ (by simp) h rfl)

/-! ## Cutting -/

/-- The raw pieces of a script: they make up the script with semicolons between them, no piece has
a semicolon outside of quotes, and all but the last end outside of quotes. -/
structure Cutting (script : List Char) (raw : List (List Char)) : Prop where
  ne_nil : raw ≠ []
  joined : List.intercalate [';'] raw = script
  uncut : ∀ r ∈ raw, ∀ u v, r = u ++ ';' :: v → ¬Outside u
  closed : ∀ r ∈ raw.dropLast, Outside r

/-- A text is not cut just if none of its semicolons stands outside of quotes. -/
theorem uncut_plain_iff {text : List Char} :
    Uncut .plain text ↔ ∀ u v, text = u ++ ';' :: v → ¬Outside u := by
  simp only [Uncut, ne_eq, scan_eq_plain_iff]

theorem cutting_singleton {text : List Char} (h : Uncut .plain text) : Cutting text [text] where
  ne_nil := by simp
  joined := by simp [List.intercalate]
  uncut := by simpa using uncut_plain_iff.1 h
  closed := by simp

/-- One more statement in front, with the semicolon that ends it. -/
theorem Cutting.cons {r script : List Char} {raw : List (List Char)} (hr : Uncut .plain r)
    (hclosed : Outside r) (h : Cutting script raw) : Cutting (r ++ ';' :: script) (r :: raw) where
  ne_nil := by simp
  joined := by
    obtain ⟨s, raw', rfl⟩ := List.exists_cons_of_ne_nil h.ne_nil
    rw [← h.joined]
    simp [List.intercalate]
  uncut := List.forall_mem_cons.2 ⟨uncut_plain_iff.1 hr, h.uncut⟩
  closed := by
    rw [List.dropLast_cons_of_ne_nil h.ne_nil]
    exact List.forall_mem_cons.2 ⟨hclosed, h.closed⟩

/-- The pieces of a script are what it is cut into. -/
theorem cutting_pieces (script : List Char) : Cutting script (pieces script) := by
  induction hn : script.length using Nat.strongRecOn generalizing script with
  | _ n ih =>
  subst hn
  rcases exists_firstCut .plain script with h | ⟨u, v, rfl, hu, hm⟩
  · rw [pieces_of_uncut h]
    exact cutting_singleton h
  · rw [pieces_append_cut hm, pieces_of_uncut hu]
    refine .cons hu (scan_eq_plain_iff.1 hm) (ih v.length ?_ v rfl)
    simp only [List.length_append, List.length_cons]
    omega

/-- There is no other way to cut a script. -/
theorem Cutting.eq_pieces {script : List Char} {raw : List (List Char)} (h : Cutting script raw) :
    raw = pieces script := by
  induction raw generalizing script with
  | nil => exact absurd rfl h.ne_nil
  | cons r raw ih =>
      have hr : Uncut .plain r := uncut_plain_iff.2 (h.uncut r List.mem_cons_self)
      cases raw with
      | nil =>
          have hjoined : r = script := by simpa [List.intercalate] using h.joined
          rw [← hjoined, pieces_of_uncut hr]
      | cons s raw =>
          have hclosed := h.closed
          rw [List.dropLast_cons_of_ne_nil (by simp)] at hclosed
          have hrest : Cutting (List.intercalate [';'] (s :: raw)) (s :: raw) :=
            ⟨by simp, rfl, (List.forall_mem_cons.1 h.uncut).2, (List.forall_mem_cons.1 hclosed).2⟩
          have hscript : script = r ++ ';' :: List.intercalate [';'] (s :: raw) := by
            rw [← h.joined]
            simp [List.intercalate]
          rw [hscript, pieces_append_cut (hclosed r List.mem_cons_self).scan, pieces_of_uncut hr,
            ← ih hrest]
          rfl

/-! ## Blanks around a piece -/

theorem trim_trim (text : List Char) : trim (trim text) = trim text := by
  obtain ⟨b, b', hb, hb', htext⟩ := exists_trim text
  conv_rhs => rw [htext, List.append_assoc, trim_blanks_append hb, trim_append_blanks hb']

theorem uncut_trim {r : List Char} (h : Uncut .plain r) : Uncut .plain (trim r) := by
  obtain ⟨b, b', hb, hb', hr⟩ := exists_trim r
  intro u v huv hu
  refine h (b ++ u) (v ++ b') ?_ ?_
  · rw [hr, huv]
    simp
  · rw [scan_append, scan_plain_of_isBlank hb, hu]

/-- Blanks behind a text are between quotes if the text leaves any open. -/
theorem outside_trim {r : List Char} (h : Outside r) : Outside (trim r) := by
  obtain ⟨b, b', hb, hb', hr⟩ := exists_trim r
  have hscan := h.scan
  rw [hr, scan_append, scan_append, scan_plain_of_isBlank hb] at hscan
  have hquote : (plain.scan (trim r)).HasQuote := HasQuote.scan (m := .plain) trivial _
  cases b' with
  | nil => exact scan_eq_plain_iff.1 hscan
  | cons c b' =>
      rw [scan_of_isBlank hquote (by simp) hb', afterBlank_eq_plain] at hscan
      exact scan_eq_plain_iff.1 hscan

/-! ## Statements -/

theorem statements_eq_filter (script : List Char) :
    statements script = ((pieces script).map trim).filter (· ≠ []) := by
  rw [statements, List.filter_map]
  congr 1
  refine List.filter_congr fun r _ => ?_
  have hblank : isAllBlank r = decide (trim r = []) := by
    rw [Bool.eq_iff_iff, isAllBlank_iff, decide_eq_true_iff, trim_eq_nil_iff]
  rw [hblank, Function.comp_apply, decide_not]

/-- What stands before the last of a filtered list stands before the last of the list. -/
theorem mem_dropLast_of_filter {α : Type} {p : α → Bool} {l : List α} {x : α}
    (h : x ∈ (l.filter p).dropLast) : x ∈ l.dropLast := by
  rcases List.eq_nil_or_concat' l with rfl | ⟨front, last, rfl⟩
  · exact h
  · rw [List.dropLast_concat]
    rw [List.filter_append] at h
    by_cases hp : p last = true
    · rw [List.filter_cons_of_pos hp, List.filter_nil, List.dropLast_concat] at h
      exact List.mem_of_mem_filter h
    · rw [List.filter_cons_of_neg hp, List.filter_nil, List.append_nil] at h
      exact List.mem_of_mem_filter (List.mem_of_mem_dropLast h)

/-- The statements of a script are the raw pieces of the script that they are joined to. -/
theorem cutting_statements {script : List Char} (hne : statements script ≠ []) :
    Cutting (List.intercalate [';'] (statements script)) (statements script) where
  ne_nil := hne
  joined := rfl
  uncut := by
    intro s hs
    rw [statements_eq_filter] at hs
    obtain ⟨r, hr, rfl⟩ := List.mem_map.1 (List.mem_of_mem_filter hs)
    have huncut := uncut_plain_iff.2 ((cutting_pieces script).uncut r hr)
    exact uncut_plain_iff.1 (uncut_trim huncut)
  closed := by
    intro s hs
    rw [statements_eq_filter] at hs
    have hlast := mem_dropLast_of_filter hs
    rw [← List.map_dropLast] at hlast
    obtain ⟨r, hr, rfl⟩ := List.mem_map.1 hlast
    exact outside_trim ((cutting_pieces script).closed r hr)

/-- A statement of a script is trimmed, and it is not empty. -/
theorem trim_of_mem_statements {script s : List Char} (hs : s ∈ statements script) :
    trim s = s ∧ s ≠ [] := by
  rw [statements_eq_filter] at hs
  obtain ⟨hs, hne⟩ := List.mem_filter.1 hs
  obtain ⟨r, -, rfl⟩ := List.mem_map.1 hs
  exact ⟨trim_trim r, by simpa using hne⟩

/-- What is cut into trimmed statements has these statements. -/
theorem Cutting.statements_eq_self {script : List Char} {raw : List (List Char)}
    (h : Cutting script raw) (htrim : ∀ s ∈ raw, trim s = s ∧ s ≠ []) :
    statements script = raw := by
  have hmap : raw.map trim = raw := by
    conv_rhs => rw [← List.map_id' raw]
    exact List.map_congr_left fun s hs => (htrim s hs).1
  rw [statements_eq_filter, ← h.eq_pieces, hmap, List.filter_eq_self]
  simpa using fun s hs => (htrim s hs).2

/-- **Cutting**: there is one way to cut a script at semicolons outside of quotes, and its pieces
that are not blank, without the blanks around them, are the statements of the script.  Joined again
they are the statements of what they are joined to, and each of them is its own only statement. -/
theorem statements_of_cutting (script : List Char) :
    (∃ raw, Cutting script raw ∧ (∀ raw', Cutting script raw' → raw' = raw) ∧
      statements script = (raw.map trim).filter (· ≠ [])) ∧
    statements (List.intercalate [';'] (statements script)) = statements script ∧
    ∀ s ∈ statements script, statements s = [s] := by
  refine ⟨⟨pieces script, cutting_pieces script, fun raw' h => h.eq_pieces,
    statements_eq_filter script⟩, ?_, fun s hs => ?_⟩
  · by_cases hne : statements script = []
    · rw [hne]
      rfl
    · exact (cutting_statements hne).statements_eq_self fun s hs => trim_of_mem_statements hs
  · have huncut := (cutting_statements (List.ne_nil_of_mem hs)).uncut s hs
    refine (cutting_singleton (uncut_plain_iff.2 huncut)).statements_eq_self fun r hr => ?_
    rw [List.mem_singleton] at hr
    exact hr ▸ trim_of_mem_statements hs

end TableDdl.Script
