import TableDdl.Proofs.Sql.Written.Tables

/-!
# Relaxed options

Relaxed options are a list of settings in any order (`OptionDecl`), with blanks between them.  Of
each kind the last one counts, and a kind that is not there leaves its field empty (`lastOptions`);
what counts rows or formats them is read and dropped.  A setting's value may be a word that begins a
setting, as in `ROW_FORMAT=DEFAULT CHARSET=utf8`.
-/

namespace TableDdl.Written

open Grammar Text Sql Language

/-! ## Settings -/

/-- The kinds of settings. -/
inductive OptionKind where
  | engine
  | charset
  | collate
  | comment
  | autoIncrement
  | rowFormat
  deriving DecidableEq

/-- A setting of a table. -/
inductive OptionDecl where
  | engine (n : Name)
  | charset (n : Name)
  | collate (n : Name)
  | comment (content : List Char)
  | autoIncrement (n : Nat)
  | rowFormat (n : Name)

namespace OptionDecl

/-- The kind of a setting. -/
def kind : OptionDecl → OptionKind
  | engine _ => .engine
  | charset _ => .charset
  | collate _ => .collate
  | comment _ => .comment
  | autoIncrement _ => .autoIncrement
  | rowFormat _ => .rowFormat

/-- What a setting sets its kind to. -/
def value : OptionDecl → String
  | engine n => n.value
  | charset n => n.value
  | collate n => n.value
  | comment content => String.ofList content
  | autoIncrement n => toString n
  | rowFormat n => n.value

/-- The table keeps the setting. -/
def counts (o : OptionDecl) : Bool := o.kind ≠ .autoIncrement && o.kind ≠ .rowFormat

/-- What is read of a setting. -/
def setting : OptionDecl → OptionSetting
  | engine n => .engine n.value
  | charset n => .charset n.value
  | collate n => .collate n.value
  | comment content => .comment (String.ofList content)
  | autoIncrement _ => .dropped
  | rowFormat _ => .dropped

/-- How a setting is written. -/
def written : OptionDecl → Language Char
  | engine n => word "engine" * given n.written
  | charset n => (defaultWord * charsetWord) * given n.written
  | collate n => (defaultWord * word "collate") * given n.written
  | comment content => word "comment" * given (quotedText content)
  | autoIncrement n => word "auto_increment" * given (numeral n)
  | rowFormat n => word "row_format" * given n.written

end OptionDecl

/-- How settings are written, one behind the other. -/
def optionTexts : List OptionDecl → Language Char
  | [] => 1
  | o :: os => blanks0 * joined blanks1 OptionDecl.written (o :: os)

/-- The value of the last setting of a kind, empty if there is none. -/
def lastValue (k : OptionKind) (os : List OptionDecl) : String :=
  ((os.filter fun o => o.kind == k).getLast?.map OptionDecl.value).getD ""

/-- The options of a table with these settings: of each kind the last one counts. -/
def lastOptions (os : List OptionDecl) : TableOptions :=
  ⟨lastValue .engine os, lastValue .charset os, lastValue .collate os, lastValue .comment os⟩

/-- Nothing, or a semicolon. -/
def Ending (v : List Char) : Prop := ∀ c ∈ v.head?, c = ';'

variable {u v w : List Char} {o : OptionDecl} {os os' : List OptionDecl}

/-! ## One setting -/

theorem Digit.ne_equals (hv : Digit v) : v.head? ≠ some '=' := by
  obtain ⟨x, hx, hdigit⟩ := hv
  rw [Option.mem_def.1 hx]
  rintro ⟨⟩
  exact absurd hdigit (by decide)

/-- What one of the grammars for a setting takes is taken as a setting. -/
theorem accepts_setting {α : Type} {g : Grammar α} {L : Language Char} {P : α → Prop}
    {ks : List String} {f : α → OptionSetting} {s : OptionSetting}
    (hg : Accepts g L P (Begins ks) Clear) (hks : "" ∉ ks)
    (hrun : ∀ {c next a}, g.run c = .matched next a → optionSetting.run c = .matched next (f a))
    (hs : ∀ a, P a → f a = s) : Accepts optionSetting L (· = s) (HeadNot isBlank) Clear := by
  intro u hu v hv
  obtain ⟨hbegins, a, ha, hread⟩ := hg u hu v hv
  exact ⟨hbegins.headNot_isBlank hks, f a, hs a ha, fun c hc => hrun (hread c hc)⟩

/-- A setting is read as what it sets. -/
theorem accepts_optionSetting (o : OptionDecl) :
    Accepts optionSetting o.written (· = o.setting) (HeadNot isBlank) Clear := by
  cases o with
  | engine n =>
      have h := accepts_behind_word (k := "engine") (by decide) (accepts_givenName n)
        fun _ hv => hv
      exact accepts_setting h (by decide) run_optionSetting_of_engine fun _ ha => congrArg _ ha
  | charset n =>
      have hword := accepts_defaultPrefix (accepts_charsetWord fun _ hv => hv) (by decide)
        (by decide)
      have h := hword.preceded (accepts_givenName n)
      exact accepts_setting h (by decide) run_optionSetting_of_charset fun _ ha => congrArg _ ha
  | collate n =>
      have hword := accepts_defaultPrefix (accepts_word (k := "collate") (by decide)) (by decide)
        (by decide)
      have h := hword.preceded (accepts_givenName n)
      exact accepts_setting h (by decide) run_optionSetting_of_collate fun _ ha => congrArg _ ha
  | comment content =>
      have hvalue := accepts_given (accepts_quotedText content (E := Clear))
        (fun _ hv => ⟨hv.headNot_isBlank, hv.ne_equals⟩) moves_quotedString
      have h := accepts_behind_word (k := "comment") (by decide) hvalue fun _ hv => hv
      exact accepts_setting h (by decide) run_optionSetting_of_comment fun _ ha => congrArg _ ha
  | autoIncrement n =>
      have hnumeral := (accepts_numeral n).behind fun v (hv : Clear v) =>
        headNot_isDigit_of_isWord hv.1
      have hvalue := accepts_given hnumeral (fun _ hv => ⟨hv.headNot_isBlank, hv.ne_equals⟩)
        moves_unsignedInteger
      have h := accepts_behind_word (k := "auto_increment") (by decide) hvalue fun _ hv => hv
      exact accepts_setting h (by decide) run_optionSetting_of_autoIncrement fun _ _ => rfl
  | rowFormat n =>
      have h := accepts_behind_word (k := "row_format") (by decide) (accepts_givenName n)
        fun _ hv => hv
      exact accepts_setting h (by decide) run_optionSetting_of_rowFormat fun _ _ => rfl

/-! ## All settings -/

theorem Ending.headNot {p : Char → Bool} (hv : Ending v) (hp : p ';' = false) : HeadNot p v :=
  fun c hc => by rw [hv c hc, hp]

/-- No option goes on where a statement ends. -/
theorem Ending.clear (hv : Ending v) : Clear v := by
  refine ⟨hv.headNot (by decide), fun h => ?_⟩
  exact absurd (hv '`' h) (by decide)

/-- Where the settings end, no setting comes next. -/
theorem Ending.reads (hv : Ending v) :
    Reads (many (preceded whitespace0 optionSetting)) [] v [] := by
  refine (opens_optionSetting.behind_whitespace0 v ?_).many
  rw [trimStart_eq_self (hv.headNot (by decide)), firstWord_eq_nil (hv.headNot (by decide))]
  decide

/-- One round: blanks, and a setting behind them. -/
theorem reads_round {b : List Char} {ss : List OptionSetting} (hb : b ∈ blanks0)
    (hw : w ∈ o.written) (hu : Clear (u ++ v))
    (hm : Reads (many (preceded whitespace0 optionSetting)) u v ss) :
    Reads (many (preceded whitespace0 optionSetting)) (b ++ w ++ u) v (o.setting :: ss) := by
  obtain ⟨hhead, _, rfl, hread⟩ := accepts_optionSetting o w hw _ hu
  have hround := (reads_whitespace0 hb hhead).preceded hread
  exact hround.many (hround.ne_nil (moves_optionSetting.preceded_right _)) hm

/-- The options are read one by one, by induction on how they are joined. -/
theorem reads_settings {b : List Char} (hb : b ∈ blanks0)
    (hw : w ∈ joined blanks1 OptionDecl.written (o :: os)) (hv : Ending v) :
    Reads (many (preceded whitespace0 optionSetting)) (b ++ w) v ((o :: os).map (·.setting)) := by
  induction os generalizing o b w with
  | nil =>
      have h := reads_round hb hw (u := []) hv.clear hv.reads
      rwa [List.append_nil] at h
  | cons p os ih =>
      obtain ⟨_, ⟨x, hx, s, hs, rfl⟩, y, hy, rfl⟩ := hw
      have hclear : Clear (s ++ y ++ v) := by
        obtain ⟨c, s, rfl⟩ := List.exists_cons_of_ne_nil hs.1
        exact clear_of_isBlank_head? ⟨c, rfl, hs.2 c List.mem_cons_self⟩
      have h := reads_round hb hx hclear (ih hs.2 hy)
      simpa using h

theorem reads_optionTexts (hu : u ∈ optionTexts os) (hv : Ending v) :
    Reads (many (preceded whitespace0 optionSetting)) u v (os.map (·.setting)) := by
  cases os with
  | nil =>
      obtain rfl : u = [] := hu
      exact hv.reads
  | cons o os =>
      obtain ⟨b, hb, w, hw, rfl⟩ := hu
      exact reads_settings hb hw hv

/-! ## The last one counts -/

/-- The last option decides about its own kind only. -/
theorem lastValue_concat (k : OptionKind) (os : List OptionDecl) (o : OptionDecl) :
    lastValue k (os ++ [o]) = if o.kind = k then o.value else lastValue k os := by
  by_cases h : o.kind = k <;> simp [lastValue, h]

/-- One more option behind the others is one more setting to apply. -/
theorem lastOptions_concat (os : List OptionDecl) (o : OptionDecl) :
    lastOptions (os ++ [o]) = OptionSetting.apply (lastOptions os) o.setting := by
  cases o <;> simp [lastOptions, lastValue_concat, OptionDecl.kind, OptionDecl.value,
    OptionDecl.setting, OptionSetting.apply]

/-- Settings applied one after the other leave the last ones. -/
theorem foldl_apply_settings (os : List OptionDecl) :
    (os.map (·.setting)).foldl OptionSetting.apply {} = lastOptions os := by
  induction os using List.reverseRecOn with
  | nil => rfl
  | append_singleton os o ih =>
      rw [List.map_append, List.foldl_append, ih, lastOptions_concat]
      rfl

theorem reads_lastOptions (hu : u ∈ optionTexts os) (hv : Ending v) :
    Reads relaxedOptions u v (lastOptions os) := by
  rw [← foldl_apply_settings]
  exact (reads_optionTexts hu hv).map _

/-- Without repetitions there is at most one setting of each kind, so the order does not matter. -/
theorem filter_kind_eq_of_perm (hperm : os.Perm os') (hnodup : (os.map (·.kind)).Nodup)
    (k : OptionKind) :
    (os.filter fun o => o.kind == k) = os'.filter fun o => o.kind == k := by
  have hfilter := hperm.filter fun o => o.kind == k
  have hle : (os.filter fun o => o.kind == k).length ≤ 1 := by
    have hcount := List.nodup_iff_count_le_one.1 hnodup k
    rw [List.count, List.countP_map, List.countP_eq_length_filter] at hcount
    simpa [Function.comp_def] using hcount
  cases hos : os.filter fun o => o.kind == k with
  | nil =>
      rw [hos] at hfilter
      exact (List.nil_perm.1 hfilter).symm
  | cons o rest =>
      rw [hos, List.length_cons] at hle
      obtain rfl := List.eq_nil_of_length_eq_zero (Nat.le_zero.1 (Nat.le_of_succ_le_succ hle))
      rw [hos] at hfilter
      exact List.singleton_perm.1 hfilter

/-- Options of different kinds may stand in any order. -/
theorem lastOptions_of_perm (hperm : os.Perm os') (hnodup : (os.map (·.kind)).Nodup) :
    lastOptions os' = lastOptions os := by
  simp only [lastOptions, lastValue, filter_kind_eq_of_perm hperm hnodup]

/-- Of a kind that counts, no setting is dropped. -/
theorem filter_kind_filter_counts {k : OptionKind} (hk : k ≠ .autoIncrement ∧ k ≠ .rowFormat)
    (os : List OptionDecl) :
    ((os.filter (·.counts)).filter fun o => o.kind == k) = os.filter fun o => o.kind == k := by
  rw [List.filter_filter]
  refine List.filter_congr fun o _ => ?_
  by_cases h : o.kind = k
  · simp [h, OptionDecl.counts, hk]
  · simp [h]

/-- Settings that are dropped do not matter. -/
theorem lastOptions_filter_counts (os : List OptionDecl) :
    lastOptions (os.filter (·.counts)) = lastOptions os := by
  simp only [lastOptions, lastValue, filter_kind_filter_counts, ne_eq, reduceCtorEq,
    not_false_eq_true, and_self]

/-- **Relaxed options.**  In front of a semicolon or nothing, settings in any order and number are
read to their end, and the last of each kind counts.  So the order does not matter where no kind is
repeated, and it does not matter which settings are there that are dropped. -/
theorem reads_relaxedOptions (hu : u ∈ optionTexts os) (hv : Ending v) :
    Reads relaxedOptions u v (lastOptions os) ∧
      ∀ os', ∀ u' ∈ optionTexts os', ∀ v', Ending v' →
        (os.Perm os' → (os.map (·.kind)).Nodup → Reads relaxedOptions u' v' (lastOptions os)) ∧
        (os.filter (·.counts) = os'.filter (·.counts) →
          Reads relaxedOptions u' v' (lastOptions os)) := by
  refine ⟨reads_lastOptions hu hv, fun os' u' hu' v' hv' => ⟨fun hperm hnodup => ?_, fun h => ?_⟩⟩
  · rw [← lastOptions_of_perm hperm hnodup]
    exact reads_lastOptions hu' hv'
  · rw [← lastOptions_filter_counts os, h, lastOptions_filter_counts]
    exact reads_lastOptions hu' hv'

theorem append_mem_joined {x y : List Char} {o p : OptionDecl} (hx : x ∈ o.written)
    (hy : y ∈ joined blanks1 OptionDecl.written (p :: os)) :
    x ++ [' '] ++ y ∈ joined blanks1 OptionDecl.written (o :: p :: os) :=
  append_mem_mul (append_mem_mul hx space_mem_blanks1) hy

/-- A character set, and two engines, of which the second counts. -/
def twoEngines : List OptionDecl :=
  [.charset (letter 'x' (by decide)), .engine (letter 'y' (by decide)),
    .engine (letter 'z' (by decide))]

/-- In front of them a format that is called like the word in front of a character set. -/
def formatFirst : List OptionDecl :=
  .rowFormat ⟨"DEFAULT".toList, by decide, List.all_eq_true.1 (by decide)⟩ :: twoEngines

theorem reads_relaxedOptions_formatFirst :
    "ROW_FORMAT=DEFAULT CHARSET=x engine=y ENGINE=z".toList ∈ optionTexts formatFirst ∧
      "CHARSET=x engine=y ENGINE=z".toList ∈ optionTexts twoEngines ∧ Ending [';'] ∧
      Reads relaxedOptions "ROW_FORMAT=DEFAULT CHARSET=x engine=y ENGINE=z".toList [';']
        ⟨"z", "x", "", ""⟩ ∧
      Reads relaxedOptions "CHARSET=x engine=y ENGINE=z".toList [';'] ⟨"z", "x", "", ""⟩ := by
  have hgiven (n : Name) : '=' :: n.text ∈ given n.written := equals_mem_given n.text_mem_written
  have hengine (n : Name) : "engine".toList ++ '=' :: n.text ∈ (OptionDecl.engine n).written :=
    append_mem_mul (mem_word (by decide)) (hgiven n)
  have hlast (n : Name) : "ENGINE".toList ++ '=' :: n.text ∈ (OptionDecl.engine n).written :=
    append_mem_mul (mem_word (by decide)) (hgiven n)
  have hcharsetWord : [] ++ "CHARSET".toList ∈ defaultWord * charsetWord :=
    append_mem_mul (.inl rfl) (.inr (mem_word (by decide)))
  have hcharset (n : Name) :
      [] ++ "CHARSET".toList ++ '=' :: n.text ∈ (OptionDecl.charset n).written :=
    append_mem_mul hcharsetWord (hgiven n)
  have hformat (n : Name) :
      "ROW_FORMAT".toList ++ '=' :: n.text ∈ (OptionDecl.rowFormat n).written :=
    append_mem_mul (mem_word (by decide)) (hgiven n)
  have htwo : [] ++ "CHARSET".toList ++ ['=', 'x'] ++ [' '] ++ ("engine".toList ++ ['=', 'y'] ++
      [' '] ++ ("ENGINE".toList ++ ['=', 'z'])) ∈ joined blanks1 OptionDecl.written twoEngines :=
    append_mem_joined (hcharset _) (append_mem_joined (hengine _) (hlast _))
  have hall : "ROW_FORMAT".toList ++ '=' :: "DEFAULT".toList ++ [' '] ++ _ ∈
      joined blanks1 OptionDecl.written formatFirst :=
    append_mem_joined (hformat _) htwo
  have hfirst : "ROW_FORMAT=DEFAULT CHARSET=x engine=y ENGINE=z".toList ∈ optionTexts formatFirst :=
    ⟨[], nil_mem_blanks0, _, hall, by decide⟩
  have hrest : "CHARSET=x engine=y ENGINE=z".toList ∈ optionTexts twoEngines :=
    ⟨[], nil_mem_blanks0, _, htwo, by decide⟩
  have hend : Ending [';'] := by simp [Ending]
  have hvalue : lastOptions formatFirst = ⟨"z", "x", "", ""⟩ := by decide
  obtain ⟨hread, hsame⟩ := reads_relaxedOptions hfirst hend
  rw [hvalue] at hread hsame
  have hkept : formatFirst.filter (·.counts) = twoEngines.filter (·.counts) := rfl
  exact ⟨hfirst, hrest, hend, hread, (hsame twoEngines _ hrest _ hend).2 hkept⟩

end TableDdl.Written
