import TableDdl.Proofs.Grammar.Choice
import TableDdl.Proofs.Sql.Words

/-!
# The choices of the statement grammar

The types of a column, its defaults and the options of a table can be tried in any order: of each
list at most one alternative matches, or stops at an integer that is too long, at any place
(`runs_in_any_order`).

* The types, the words of the integer types, and most options begin with different keywords.
* Four defaults begin with `DEFAULT`; behind it come a digit, a quote, `NULL` or
  `CURRENT_TIMESTAMP`.
* The options for the character set and the collation may both begin with `DEFAULT`; other words
  follow.
-/

namespace TableDdl.Sql

open Grammar Text

variable {c : Cursor}

/-- Of grammars that are apart in pairs, at most one matches. -/
theorem atMostOne_of_pairwise {α : Type} {gs : List (Grammar α)} (hgs : gs.Pairwise Apart) :
    AtMostOne gs c :=
  hgs.imp fun hgh => hgh c

/-! ## Types -/

/-- The word of an integer type. -/
def intWord (entry : String × TypeKind) : Grammar TypeKind :=
  map (fun _ => entry.2) (keyword entry.1)

/-- An integer type whose words are tried in the order of `entries`. -/
def someIntBy (entries : List (String × TypeKind)) : Grammar DataType :=
  map (fun parts => ⟨parts.1, 0⟩)
    (seq (alternatives (entries.map intWord))
      (seq (optional typeSize) (seq (optional typeModifier) (optional typeModifier))))

/-- The integer types in their own order. -/
theorem someIntBy_intKeywords : someIntBy intKeywords = someInt := rfl

/-- The words of the integer types are different, so no two of them stand at the same place. -/
theorem pairwise_intWord : (intKeywords.map intWord).Pairwise Apart := by
  have hword (entry : String × TypeKind) (hkeyword : isKeyword entry.1 = true) :
      Opens (intWord entry) [entry.1] := (opens_keyword hkeyword).map _
  have hbigint := hword ("bigint", .bigInt) (by decide)
  have hsmallint := hword ("smallint", .smallInt) (by decide)
  have htinyint := hword ("tinyint", .tinyInt) (by decide)
  have hint := hword ("int", .int) (by decide)
  have hopens : List.Forall₂ Opens (intKeywords.map intWord)
      [["bigint"], ["smallint"], ["tinyint"], ["int"]] :=
    .cons hbigint (.cons hsmallint (.cons htinyint (.cons hint .nil)))
  exact pairwise_apart hopens (by decide)

/-- The types begin with different words, those that a dialect adds included. -/
theorem pairwise_dataTypes (extended : Bool) : (dataTypes extended).Pairwise Apart := by
  have hplain : List.Forall₂ Opens [someInt, varchar, datetime, decimal]
      [["bigint", "smallint", "tinyint", "int"], ["varchar"], ["datetime"], ["decimal"]] :=
    .cons opens_someInt (.cons opens_varchar (.cons opens_datetime (.cons opens_decimal .nil)))
  cases extended with
  | false => exact pairwise_apart hplain (by decide)
  | true =>
      have htext : List.Forall₂ Opens [textType] [["text", "bigtext"]] :=
        .cons opens_textType .nil
      exact pairwise_apart (List.rel_append hplain htext) (by decide)

/-! ## Defaults -/

/-- A default with the literals tried in the order of `gs`. -/
def defaultLiteralBy (gs : List (Grammar DefaultValue)) : Grammar DefaultValue :=
  preceded whitespace1 (alternatives gs)

section Defaults

variable {α β : Type} {g : Grammar α} {h : Grammar β}

/-- Behind `DEFAULT` and blanks, the values tell defaults apart. -/
theorem apart_defaulted (hgh : Apart g h) : Apart (defaulted g) (defaulted h) :=
  (hgh.preceded_behind decides_whitespace1).preceded_behind (decides_keyword (by decide))

/-- `DEFAULT NULL` is written as two keywords, but is no different for that. -/
theorem apart_defaulted_null (hg : Apart g (keyword "null")) : Apart (defaulted g) defaultNull := by
  have hrest := (hg.map_right fun word => [word]).preceded_behind decides_whitespace1
  have hall := hrest.behind (decides_keyword (k := "default") (by decide))
  exact ((hall.map Prod.snd fun parts => parts.1 :: parts.2).map_right capitals).map_right _

end Defaults

/-- No digit is a quote. -/
theorem apart_unsignedInteger_quotedString : Apart unsignedInteger quotedString :=
  headIn_unsignedInteger.apart headIn_quotedString fun _ hx =>
    Quoted.not_isQuote_of_isWord (isWord_of_isDigit hx)

/-- Ten pairs of defaults, told apart by what stands behind `DEFAULT` or by not having it. -/
theorem pairwise_defaultLiterals : defaultLiterals.Pairwise Apart := by
  have hnull : Opens (keyword "null") ["null"] := opens_keyword (by decide)
  have htime : Opens currentTimestamp ["current_timestamp"] := (opens_keyword (by decide)).seq _
  have hnumber {α : Type} {k : Grammar α} {ks : List String} (hk : Opens k ks)
      (hks : ∀ w ∈ ks, isKeyword w = true) : Apart unsignedInteger k :=
    headIn_unsignedInteger.apart (hk.headIn hks) fun _ hx => not_isSmall_of_isDigit hx
  have hstring {α : Type} {k : Grammar α} {ks : List String} (hk : Opens k ks)
      (hks : ∀ w ∈ ks, isKeyword w = true) : Apart quotedString k :=
    headIn_quotedString.apart (hk.headIn hks) fun _ hx => Quoted.not_isSmall_of_isQuote hx
  have hnow {α : Type} {g : Grammar α} (hg : Apart g (defaulted currentTimestamp)) :
      Apart g defaultCurrentTimestamp := (hg.seq_right _).map_right _
  have hcount {g : Grammar DefaultValue} (hg : Opens g ["default"]) : Apart g autoIncrement :=
    hg.apart opens_autoIncrement (by decide)
  simp only [defaultLiterals, List.pairwise_cons, List.forall_mem_cons, List.not_mem_nil,
    false_imp_iff, implies_true, and_true, List.Pairwise.nil]
  -- each default against those behind it in the list
  refine ⟨⟨?_, ?_, ?_, ?_⟩, ⟨?_, ?_, ?_⟩, ⟨?_, ?_⟩, ?_⟩
  · exact (apart_defaulted apart_unsignedInteger_quotedString).map _ _
  · have hapart := apart_defaulted_null (hnumber hnull (by decide))
    exact hapart.map_left _
  · have hapart := apart_defaulted (hnumber htime (by decide))
    exact hnow (hapart.map_left _)
  · exact hcount opens_defaultInt
  · have hapart := apart_defaulted_null (hstring hnull (by decide))
    exact hapart.map_left _
  · have hapart := apart_defaulted (hstring htime (by decide))
    exact hnow (hapart.map_left _)
  · exact hcount opens_defaultStr
  · have hapart := apart_defaulted_null (htime.apart hnull (by decide))
    exact hnow hapart.symm
  · exact hcount opens_defaultNull
  · exact hcount opens_defaultCurrentTimestamp

/-! ## Options -/

/-- Any options in any order, each of them tried in the order of `gs`. -/
def relaxedOptionsBy (gs : List (Grammar OptionSetting)) : Grammar TableOptions :=
  map (fun settings => settings.foldl OptionSetting.apply {})
    (many (preceded whitespace0 (alternatives gs)))

/-- Behind `DEFAULT`, if it is there, the character set and the collation are told apart. -/
theorem apart_charsetOption_collateOption : Apart charsetOption collateOption := by
  have hcollate : Opens (keyword "collate") ["collate"] := opens_keyword (by decide)
  have hdefault : Decides defaultPrefix :=
    ((decides_keyword (by decide)).seq decides_whitespace1).optional
  have hnames := opens_charsetWords.apart hcollate (by decide)
  exact (hnames.preceded_behind hdefault).preceded _ _

/-- Only the character set and the collation may begin with the same word. -/
theorem pairwise_optionSettings : optionSettings.Pairwise Apart := by
  have hrest : List.Forall₂ Opens
      [map OptionSetting.comment commentOption,
        map (fun _ => OptionSetting.dropped) autoIncrementOption,
        map (fun _ => OptionSetting.dropped) rowFormatOption]
      [["comment"], ["auto_increment"], ["row_format"]] :=
    .cons (opens_commentOption.map _) (.cons (opens_autoIncrementOption.map _)
      (.cons (opens_rowFormatOption.map _) .nil))
  have hcollate := hrest.cons (opens_collateOption.map OptionSetting.collate)
  have hcharset := hcollate.cons (opens_charsetOption.map OptionSetting.charset)
  have hengine := (opens_engineOption.map OptionSetting.engine).apart_of_mem hcharset (by decide)
  have hbehind := (opens_charsetOption.map OptionSetting.charset).apart_of_mem hrest (by decide)
  refine List.pairwise_cons.2 ⟨hengine, List.pairwise_cons.2 ⟨?_, ?_⟩⟩
  · exact List.forall_mem_cons.2 ⟨apart_charsetOption_collateOption.map _ _, hbehind⟩
  · exact pairwise_apart hcollate (by decide)

/-! ## All choices -/

/-- **Order**: of the words of the integer types, of the types, of the defaults and of the options,
at most one matches, or stops at an integer that is too long, at any place.  So whatever order they
are tried in, what is read comes to the same. -/
theorem runs_in_any_order (c : Cursor) :
    (AtMostOne (intKeywords.map intWord) c ∧
      ∀ entries, entries.Perm intKeywords → (someIntBy entries).run c = someInt.run c) ∧
    (∀ extended, AtMostOne (dataTypes extended) c ∧
      ∀ gs, gs.Perm (dataTypes extended) →
        (alternatives gs).run c = (dataType extended).run c) ∧
    (AtMostOne defaultLiterals c ∧
      ∀ gs, gs.Perm defaultLiterals → (defaultLiteralBy gs).run c = defaultLiteral.run c) ∧
    (AtMostOne optionSettings c ∧
      ∀ gs, gs.Perm optionSettings → (relaxedOptionsBy gs).run c = relaxedOptions.run c) := by
  have hrun {α : Type} {gs hs : List (Grammar α)} (hhs : hs.Pairwise Apart) (hperm : gs.Perm hs) :
      (alternatives gs).run = (alternatives hs).run :=
    funext fun _ => run_alternatives_of_perm hperm (atMostOne_of_pairwise hhs)
  refine ⟨⟨atMostOne_of_pairwise pairwise_intWord, fun entries hperm => ?_⟩,
    fun extended => ⟨atMostOne_of_pairwise (pairwise_dataTypes extended), fun gs hperm => ?_⟩,
    ⟨atMostOne_of_pairwise pairwise_defaultLiterals, fun gs hperm => ?_⟩,
    ⟨atMostOne_of_pairwise pairwise_optionSettings, fun gs hperm => ?_⟩⟩
  · rw [← someIntBy_intKeywords]
    simp only [someIntBy, Grammar.seq, run_map, run_attempt, run_pair,
      hrun pairwise_intWord (hperm.map intWord)]
  · rw [dataType, hrun (pairwise_dataTypes extended) hperm]
  · simp only [defaultLiteralBy, defaultLiteral, preceded, Grammar.seq, run_map, run_attempt,
      run_pair, hrun pairwise_defaultLiterals hperm]
  · have hround : (preceded whitespace0 (alternatives gs)).run =
        (preceded whitespace0 optionSetting).run := by
      funext e
      simp only [optionSetting, preceded, Grammar.seq, run_map, run_attempt, run_pair,
        hrun pairwise_optionSettings hperm]
    rw [relaxedOptionsBy, relaxedOptions, run_map, run_map, run_many, run_many, hround]

/-- Two options, the second of which begins like another kind of option. -/
def twoOptions : List Char := "COMMENT 'c' DEFAULT COLLATE l".toList

theorem runs_in_any_order_twoOptions :
    optionSettings.reverse.Perm optionSettings ∧
      (relaxedOptionsBy optionSettings.reverse).run (.start twoOptions) =
        .matched (.atPosition twoOptions 29) ⟨"", "", "l", "c"⟩ := by
  have hperm := optionSettings.reverse_perm
  refine ⟨hperm, ?_⟩
  rw [(runs_in_any_order (.start twoOptions)).2.2.2.2 _ hperm]
  decide +kernel

end TableDdl.Sql
