import Mathlib.Data.List.Induction
import Mathlib.Data.List.Nodup
import TableDdl.Settings

/-!
# Settings printed and joined

Settings are seen through their keys, in order, and the value of each key: two settings that agree
in both are equal where no key comes twice (`ext_of_nodup`), and no key comes twice in what is read
from a text (`nodup_ofText`).

* The entries of a text are runs of key characters (`isEntry_of_mem_scan`), so settings that were
  read are read again from the text that they print (`ofText_text`).
* A semicolon ends an entry and begins none, so two texts with one between them have the entries of
  both, in order (`scan_append_semicolon`).  Entries that are put into settings override them
  (`putAll_eq_override`).
-/

namespace TableDdl.Settings

/-! ## The entries of a text -/

/-- A text that can be a key or a value. -/
structure IsRun (w : List Char) : Prop where
  ne_nil : w ≠ []
  keyChar : ∀ c ∈ w, isKeyChar c = true

/-- A key and its value as they are found in a text. -/
structure IsEntry (entry : String × String) : Prop where
  key : IsRun entry.1.toList
  value : IsRun entry.2.toList

theorem IsRun.reverse {w : List Char} (h : IsRun w) : IsRun w.reverse where
  ne_nil := by simpa using h.ne_nil
  keyChar := by simpa using h.keyChar

/-- The runs that reading has begun hold nothing but key characters, and no key is empty. -/
def Reading.Sound : Reading → Prop
  | key run => ∀ c ∈ run, isKeyChar c = true
  | value k run => IsRun k ∧ ∀ c ∈ run, isKeyChar c = true

theorem Reading.Sound.push {reading : Reading} (h : reading.Sound) {c : Char}
    (hc : isKeyChar c = true) : (reading.push c).Sound := by
  cases reading with
  | key run => exact List.forall_mem_cons.2 ⟨hc, h⟩
  | value k run => exact ⟨h.1, List.forall_mem_cons.2 ⟨hc, h.2⟩⟩

theorem Reading.Sound.stop {reading : Reading} (h : reading.Sound) (c : Char) :
    (reading.stop c).Sound := by
  have hnone : (key []).Sound := fun _ hc => absurd hc List.not_mem_nil
  cases reading with
  | key run =>
      rw [Reading.stop]
      split
      · next hrun => exact ⟨⟨by simpa using hrun.2, h⟩, fun _ hc => absurd hc List.not_mem_nil⟩
      · exact hnone
  | value k run => exact hnone

/-- What reading has found is an entry. -/
theorem Reading.Sound.isEntry {reading : Reading} (h : reading.Sound) {entry : String × String}
    (hentry : entry ∈ reading.entry) : IsEntry entry := by
  cases reading with
  | key run => exact absurd hentry List.not_mem_nil
  | value k run =>
      rw [Reading.entry] at hentry
      split at hentry
      · exact absurd hentry List.not_mem_nil
      · next hrun =>
        obtain rfl := List.mem_singleton.1 hentry
        have hvalue : IsRun run := ⟨by simpa using hrun, h.2⟩
        exact ⟨by simpa using h.1.reverse, by simpa using hvalue.reverse⟩

/-- All that is found is made of key characters, and nothing of it is empty. -/
theorem isEntry_of_mem_scan {reading : Reading} (h : reading.Sound) {text : List Char}
    {entry : String × String} (hentry : entry ∈ scan reading text) : IsEntry entry := by
  induction text generalizing reading with
  | nil => exact h.isEntry hentry
  | cons c rest ih =>
      rw [scan] at hentry
      split at hentry
      · next hc => exact ih (h.push hc) hentry
      · rcases List.mem_append.1 hentry with hentry | hentry
        · exact h.isEntry hentry
        · exact ih (h.stop c) hentry

/-- A character of a key is taken up. -/
theorem scan_cons_of_isKeyChar {c : Char} (hc : isKeyChar c = true) (reading : Reading)
    (rest : List Char) : scan reading (c :: rest) = scan (reading.push c) rest := by
  rw [scan, if_pos hc]

/-- Any other character may end an entry. -/
theorem scan_cons_of_not_isKeyChar {c : Char} (hc : isKeyChar c = false) (reading : Reading)
    (rest : List Char) :
    scan reading (c :: rest) = reading.entry ++ scan (reading.stop c) rest := by
  rw [scan, hc, if_neg Bool.false_ne_true]

/-- A semicolon ends an entry and begins none. -/
theorem scan_append_semicolon (reading : Reading) (u v : List Char) :
    scan reading (u ++ ';' :: v) = scan reading u ++ scan (.key []) v := by
  induction u generalizing reading with
  | nil =>
      have hstop : reading.stop ';' = .key [] := by
        cases reading with
        | key run => simp [Reading.stop]
        | value k run => rfl
      rw [List.nil_append, scan_cons_of_not_isKeyChar (by decide), hstop, scan]
  | cons c u ih =>
      rw [List.cons_append]
      by_cases hc : isKeyChar c = true
      · rw [scan_cons_of_isKeyChar hc, scan_cons_of_isKeyChar hc, ih]
      · have hc := Bool.of_not_eq_true hc
        rw [scan_cons_of_not_isKeyChar hc, scan_cons_of_not_isKeyChar hc, ih, List.append_assoc]

/-! ## Printing -/

/-- What has been begun, with a run of characters behind it. -/
def Reading.pushAll (w : List Char) : Reading → Reading
  | key run => key (w.reverse ++ run)
  | value k run => value k (w.reverse ++ run)

/-- Reading goes on in a run that may become a key or a value. -/
theorem scan_run_append {w : List Char} (hw : ∀ c ∈ w, isKeyChar c = true) (reading : Reading)
    (v : List Char) : scan reading (w ++ v) = scan (reading.pushAll w) v := by
  induction w generalizing reading with
  | nil => cases reading <;> rfl
  | cons c w ih =>
      obtain ⟨hc, hw⟩ := List.forall_mem_cons.1 hw
      have hpush : (reading.push c).pushAll w = reading.pushAll (c :: w) := by
        cases reading <;> simp [Reading.push, Reading.pushAll]
      rw [List.cons_append, scan_cons_of_isKeyChar hc, ih hw, hpush]

/-- An entry as it is printed. -/
def entryText (entry : String × String) : List Char := entry.1.toList ++ '=' :: entry.2.toList

/-- The text of settings is their entries with semicolons between them. -/
theorem toList_text (s : Settings) :
    s.text.toList = List.intercalate [';'] (s.entries.map entryText) := by
  have hentry : (String.toList ∘ fun entry : String × String => entry.1 ++ "=" ++ entry.2) =
      entryText := by
    funext entry
    rw [Function.comp_apply, String.toList_append, String.toList_append, List.append_assoc]
    rfl
  rw [text, String.toList_intercalate, List.map_map, hentry]
  rfl

/-- An entry is found where it stands alone. -/
theorem scan_entryText {entry : String × String} (h : IsEntry entry) :
    scan (.key []) (entryText entry) = [entry] := by
  have hkey := h.key.reverse.ne_nil
  have hvalue := h.value.reverse.ne_nil
  calc scan (.key []) (entryText entry)
      = scan (.key entry.1.toList.reverse) ('=' :: entry.2.toList) := by
        rw [entryText, scan_run_append h.key.keyChar, Reading.pushAll, List.append_nil]
    _ = scan (.value entry.1.toList.reverse []) (entry.2.toList ++ []) := by
        rw [scan_cons_of_not_isKeyChar (by decide), Reading.stop, if_pos ⟨rfl, by simpa using hkey⟩,
          List.append_nil]
        rfl
    _ = [entry] := by
        rw [scan_run_append h.value.keyChar, Reading.pushAll, List.append_nil, scan,
          Reading.entry, if_neg (by simpa using hvalue), List.reverse_reverse,
          List.reverse_reverse, String.ofList_toList, String.ofList_toList]

/-- Entries are found again in the text that they make. -/
theorem scan_intercalate {entries : List (String × String)} (h : ∀ entry ∈ entries, IsEntry entry) :
    scan (.key []) (List.intercalate [';'] (entries.map entryText)) = entries := by
  induction entries with
  | nil => rfl
  | cons entry rest ih =>
      obtain ⟨hentry, hrest⟩ := List.forall_mem_cons.1 h
      rw [List.map_cons]
      by_cases hnil : rest = []
      · rw [hnil, List.map_nil, List.intercalate_singleton, scan_entryText hentry]
      · rw [List.intercalate_cons_of_ne_nil (by simpa using hnil), List.append_assoc,
          List.singleton_append, scan_append_semicolon, scan_entryText hentry, ih hrest,
          List.singleton_append]

/-! ## Keys and values -/

/-- The keys in order. -/
def keys (s : Settings) : List String := s.entries.map Prod.fst

theorem get?_mk_cons (entry : String × String) (rest : List (String × String)) (k : String) :
    get? ⟨entry :: rest⟩ k = if k = entry.1 then some entry.2 else get? ⟨rest⟩ k := by
  rw [get?, List.lookup_cons]
  by_cases h : k = entry.1
  · simp [h]
  · rw [beq_false_of_ne h, if_neg h]
    rfl

/-- A setting has a value just if its key is among the keys. -/
theorem isSome_get?_iff {s : Settings} {k : String} : (s.get? k).isSome = true ↔ k ∈ s.keys := by
  obtain ⟨entries⟩ := s
  induction entries with
  | nil => simp [get?, keys]
  | cons entry rest ih =>
      rw [get?_mk_cons]
      split
      · next h => simp [keys, h]
      · next h => simpa [keys, h] using ih

/-- A key that is not there has no value. -/
theorem get?_eq_none_iff {s : Settings} {k : String} : s.get? k = none ↔ k ∉ s.keys := by
  rw [← isSome_get?_iff, Option.not_isSome_iff_eq_none]

/-- Settings without a key that comes twice are their keys and the value of each. -/
theorem ext_of_nodup {s t : Settings} (hs : s.keys.Nodup) (hkeys : s.keys = t.keys)
    (hvalues : ∀ k, s.get? k = t.get? k) : s = t := by
  obtain ⟨entries⟩ := s
  obtain ⟨entries'⟩ := t
  congr 1
  induction entries generalizing entries' with
  | nil => simpa [keys] using hkeys.symm
  | cons entry rest ih =>
      cases entries' with
      | nil => simp [keys] at hkeys
      | cons entry' rest' =>
          obtain ⟨hfirst, hrest⟩ := List.cons.inj hkeys
          obtain ⟨hnot, hnodup⟩ := List.nodup_cons.1 hs
          have hvalue := hvalues entry.1
          rw [get?_mk_cons, get?_mk_cons, if_pos rfl, if_pos hfirst, Option.some.injEq] at hvalue
          rw [Prod.ext hfirst hvalue, ih hnodup _ hrest fun k => ?_]
          by_cases hk : k = entry.1
          · -- a key that is gone has no value in either rest
            have hgone : get? ⟨rest⟩ k = none := get?_eq_none_iff.2 (hk ▸ hnot)
            have hgone' : get? ⟨rest'⟩ k = none := by
              refine get?_eq_none_iff.2 ?_
              rw [← show keys ⟨rest⟩ = keys ⟨rest'⟩ from hrest]
              exact hk ▸ hnot
            rw [hgone, hgone']
          · have hk' : ¬k = entry'.1 := hfirst ▸ hk
            have hall := hvalues k
            rwa [get?_mk_cons, get?_mk_cons, if_neg hk, if_neg hk'] at hall

/-- A new key comes behind those that are there, and a known one stays where it is. -/
theorem keys_put (s : Settings) (key value : String) :
    (s.put key value).keys = if key ∈ s.keys then s.keys else s.keys ++ [key] := by
  obtain ⟨entries⟩ := s
  induction entries with
  | nil => rfl
  | cons entry rest ih =>
      rw [put, putEntry]
      split
      · next h => simp [keys, h]
      · next h =>
        have hmem : key ∈ keys ⟨entry :: rest⟩ ↔ key ∈ keys ⟨rest⟩ := by
          simp [keys, Ne.symm h]
        rw [if_congr hmem rfl rfl]
        refine (congrArg (entry.1 :: ·) ih).trans ?_
        split <;> rfl

/-- A new key comes last. -/
theorem putEntry_of_not_mem {entries : List (String × String)} {key : String}
    (h : key ∉ keys ⟨entries⟩) (value : String) :
    putEntry key value entries = entries ++ [(key, value)] := by
  induction entries with
  | nil => rfl
  | cons entry rest ih =>
      rw [keys, List.map_cons, List.mem_cons, not_or] at h
      obtain ⟨hne, hrest⟩ := h
      rw [putEntry, if_neg (Ne.symm hne), ih hrest, List.cons_append]

theorem mem_putEntry {entries : List (String × String)} {key value : String}
    {entry : String × String} (h : entry ∈ putEntry key value entries) :
    entry = (key, value) ∨ entry ∈ entries := by
  induction entries with
  | nil => exact .inl (List.mem_singleton.1 h)
  | cons first rest ih =>
      rw [putEntry] at h
      split at h
      · exact (List.mem_cons.1 h).imp_right (List.mem_cons_of_mem first)
      · rcases List.mem_cons.1 h with rfl | h
        · exact .inr List.mem_cons_self
        · exact (ih h).imp_right (List.mem_cons_of_mem first)

/-- No key comes twice. -/
theorem nodup_put {s : Settings} (h : s.keys.Nodup) (key value : String) :
    (s.put key value).keys.Nodup := by
  rw [keys_put]
  split
  · exact h
  · next hkey =>
    rw [← List.concat_eq_append]
    exact h.concat hkey

/-- The settings with each entry put in, one after the other. -/
def putAll (s : Settings) (entries : List (String × String)) : Settings :=
  entries.foldl (fun s entry => s.put entry.1 entry.2) s

/-- Entries are put one after the other. -/
theorem putAll_append (s : Settings) (entries rest : List (String × String)) :
    s.putAll (entries ++ rest) = (s.putAll entries).putAll rest :=
  List.foldl_append

theorem nodup_putAll {s : Settings} (h : s.keys.Nodup) (entries : List (String × String)) :
    (s.putAll entries).keys.Nodup := by
  induction entries generalizing s with
  | nil => exact h
  | cons entry rest ih => exact ih (nodup_put h entry.1 entry.2)

/-- A later entry replaces an earlier one, so no key is there twice. -/
theorem nodup_ofText (text : String) : (ofText text).keys.Nodup :=
  nodup_putAll (s := {}) List.nodup_nil _

/-! ## Overriding -/

/-- The settings `s` overridden and extended by `t`: a key of both keeps its place from `s` and
takes its value from `t`. -/
def override (s t : Settings) : Settings where
  entries := s.entries.map (fun entry => (entry.1, (t.get? entry.1).getD entry.2)) ++
    t.entries.filter fun entry => entry.1 ∉ s.keys

/-- The keys of the first come in their order, and behind them those that only the second has. -/
theorem keys_override (s t : Settings) :
    (s.override t).keys = s.keys ++ t.keys.filter (· ∉ s.keys) := by
  rw [keys, override, List.map_append, List.map_map, keys, keys, List.filter_map]
  rfl

/-- Entries in front are found first. -/
theorem get?_mk_append (entries rest : List (String × String)) (k : String) :
    get? ⟨entries ++ rest⟩ k = (get? ⟨entries⟩ k).or (get? ⟨rest⟩ k) :=
  List.lookup_append

/-- Values that are changed by their keys are found under the same keys. -/
theorem get?_mk_map (f : String → String → String) (entries : List (String × String)) (k : String) :
    get? ⟨entries.map fun entry => (entry.1, f entry.1 entry.2)⟩ k =
      (get? ⟨entries⟩ k).map (f k) := by
  induction entries with
  | nil => rfl
  | cons entry rest ih =>
      rw [List.map_cons, get?_mk_cons, get?_mk_cons, ih]
      split
      · next h => rw [h, Option.map_some]
      · rfl

theorem get?_mk_filter (p : String → Bool) (entries : List (String × String)) (k : String) :
    get? ⟨entries.filter fun entry => p entry.1⟩ k = if p k then get? ⟨entries⟩ k else none := by
  induction entries with
  | nil => simp [get?]
  | cons entry rest ih =>
      rw [get?_mk_cons]
      by_cases hk : k = entry.1
      · by_cases hp : p entry.1 = true
        · rw [List.filter_cons, if_pos hp, get?_mk_cons, if_pos hk, hk, if_pos hp, if_pos rfl]
        · rw [List.filter_cons, if_neg hp, ih, hk, if_neg hp, if_neg hp]
      · rw [if_neg hk, ← ih, List.filter_cons]
        split
        · rw [get?_mk_cons, if_neg hk]
        · rfl

/-- The second wins. -/
theorem get?_override (s t : Settings) (k : String) :
    (s.override t).get? k = (t.get? k).or (s.get? k) := by
  have hfront := get?_mk_map (fun key value => (t.get? key).getD value) s.entries k
  have hback := get?_mk_filter (fun key => key ∉ s.keys) t.entries k
  rw [override, get?_mk_append, hfront, hback]
  cases hs : s.get? k with
  | none =>
      have hk := get?_eq_none_iff.1 hs
      rw [Option.map_none, Option.none_or, Option.or_none, if_pos (decide_eq_true hk)]
  | some value => cases t.get? k <;> rfl

/-- Of a key that both have, one entry is left. -/
theorem nodup_override {s t : Settings} (hs : s.keys.Nodup) (ht : t.keys.Nodup) :
    (s.override t).keys.Nodup := by
  rw [keys_override]
  refine List.nodup_append'.2 ⟨hs, ht.filter _, fun k hk hfilter => ?_⟩
  exact of_decide_eq_true (List.mem_filter.1 hfilter).2 hk

/-- One more entry of the overriding settings is put into the result. -/
theorem put_override {s t : Settings} (hs : s.keys.Nodup) (ht : t.keys.Nodup) (key value : String) :
    (s.override t).put key value = s.override (t.put key value) := by
  refine ext_of_nodup (nodup_put (nodup_override hs ht) key value) ?_ fun k => ?_
  · rw [keys_put, keys_override, keys_override, keys_put]
    by_cases hkt : key ∈ t.keys
    · have hmem : key ∈ s.keys ++ t.keys.filter (· ∉ s.keys) := by
        by_cases hks : key ∈ s.keys <;> simp [hks, hkt]
      rw [if_pos hmem, if_pos hkt]
    · rw [if_neg hkt, List.filter_append]
      by_cases hks : key ∈ s.keys <;> simp [hks, hkt]
  · rw [get?_put, get?_override, get?_override, get?_put]
    split
    · rw [Option.some_or]
    · rfl

/-- Entries that are put into settings override them. -/
theorem putAll_eq_override {s : Settings} (hs : s.keys.Nodup) (entries : List (String × String)) :
    s.putAll entries = s.override (putAll {} entries) := by
  induction entries using List.reverseRecOn with
  | nil =>
      obtain ⟨entries⟩ := s
      simp [override, get?, putAll]
  | append_singleton entries entry ih =>
      rw [putAll_append, putAll_append, ih]
      exact put_override hs (nodup_putAll (s := {}) List.nodup_nil entries) entry.1 entry.2

/-- Entries without a key that comes twice stay as they are. -/
theorem putAll_of_nodup {entries : List (String × String)} (h : (keys ⟨entries⟩).Nodup) :
    putAll {} entries = ⟨entries⟩ := by
  induction entries using List.reverseRecOn with
  | nil => rfl
  | append_singleton entries entry ih =>
      rw [keys, List.map_append] at h
      obtain ⟨hfront, -, hapart⟩ := List.nodup_append'.1 h
      have hnew : entry.1 ∉ keys ⟨entries⟩ := fun hmem => hapart hmem (List.mem_singleton.2 rfl)
      rw [putAll_append, ih hfront]
      exact congrArg mk (putEntry_of_not_mem hnew entry.2)

/-! ## Texts -/

/-- Putting entries adds none but these. -/
theorem mem_putAll {entries : List (String × String)} {s : Settings} {entry : String × String}
    (h : entry ∈ (s.putAll entries).entries) :
    entry ∈ entries ∨ entry ∈ s.entries := by
  induction entries generalizing s with
  | nil => exact .inr h
  | cons first rest ih =>
      rcases ih h with hmem | hmem
      · exact .inl (List.mem_cons_of_mem first hmem)
      · rcases mem_putEntry hmem with rfl | hmem
        · exact .inl List.mem_cons_self
        · exact .inr hmem

theorem isEntry_of_mem_ofText {text : String} {entry : String × String}
    (h : entry ∈ (ofText text).entries) : IsEntry entry := by
  have hstart : (Reading.key []).Sound := fun _ hc => absurd hc List.not_mem_nil
  rcases mem_putAll h with hmem | hmem
  · exact isEntry_of_mem_scan hstart hmem
  · exact absurd hmem List.not_mem_nil

/-- Settings that were read are read again from the text that they print. -/
theorem ofText_text (text : String) : ofText (ofText text).text = ofText text := by
  have hscan : scan (.key []) (ofText text).text.toList = (ofText text).entries := by
    rw [toList_text]
    exact scan_intercalate fun entry h => isEntry_of_mem_ofText h
  conv => lhs; rw [ofText, hscan]
  exact putAll_of_nodup (nodup_ofText text)

/-- A text with another behind it, a semicolon between the two. -/
theorem ofText_append (a b : String) :
    ofText (a ++ ";" ++ b) = (ofText a).override (ofText b) := by
  have hscan : scan (.key []) (a ++ ";" ++ b).toList =
      scan (.key []) a.toList ++ scan (.key []) b.toList := by
    rw [String.toList_append, String.toList_append, List.append_assoc]
    exact scan_append_semicolon (.key []) a.toList b.toList
  calc ofText (a ++ ";" ++ b) = (ofText a).putAll (scan (.key []) b.toList) := by
        rw [ofText, hscan]
        exact putAll_append {} _ _
    _ = (ofText a).override (ofText b) := putAll_eq_override (nodup_ofText a) _

/-- A flag that the second sets is the one of the second, on or off. -/
theorem flag_override (s t : Settings) (key : String) :
    (s.override t).flag key = if (t.get? key).isSome then t.flag key else s.flag key := by
  rw [flag, flag, flag, get?_override]
  cases t.get? key <;> rfl

/-- **Settings**: settings print a text from which they are read again.  Two texts with a semicolon
between them are read as the settings of the first overridden and extended by those of the second,
and a flag is that of the second if it has the key and that of the first otherwise. -/
theorem ofText_printed_and_joined (text a b : String) :
    ofText (ofText text).text = ofText text ∧
      ofText (a ++ ";" ++ b) = (ofText a).override (ofText b) ∧
      ∀ key, (ofText (a ++ ";" ++ b)).flag key =
        if ((ofText b).get? key).isSome then (ofText b).flag key else (ofText a).flag key := by
  refine ⟨ofText_text text, ofText_append a b, fun key => ?_⟩
  rw [ofText_append, flag_override]

/-- A key without a value and a second equals sign are passed over. -/
example : (ofText "a=1;b==2;c=3=d;a=4").text = "a=4;c=3" := by decide +kernel

end TableDdl.Settings
