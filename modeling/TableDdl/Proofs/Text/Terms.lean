import TableDdl.Proofs.Text.Display
import TableDdl.Proofs.Text.Numbers

/-!
# Terms

A term is a word, a displayed text, or items between brackets, with commas between them.  The
brackets are those of a tuple, of a list or of a record, whose name stands in front of them.

* A word ends where a delimiter stands, a displayed text with its quote and the rest with its
  bracket.  So in front of a delimiter a term tells where it ends and which term it is
  (`Term.told`).
* Two terms are written alike just if they are one term (`Term.chars_inj`).
-/

namespace TableDdl.Text

/-- Character that neither delimits a term nor quotes a text. -/
def isBare (c : Char) : Bool := !(['(', ')', '[', ']', ',', '\'', '"'].contains c)

namespace Term

/-- A name or a number. -/
structure Word where
  text : String
  ne_nil : text.toList ≠ []
  bare : text.toList.all isBare = true

/-- What stands around the items of a term. -/
inductive Brackets where
  | record (name : Word)
  | tuple
  | list

/-- The name in front of the brackets. -/
def Brackets.name : Brackets → List Char
  | record name => name.text.toList
  | tuple => []
  | list => []

/-- The opening bracket. -/
def Brackets.opening : Brackets → Char
  | record _ => '('
  | tuple => '('
  | list => '['

end Term

/-- A term. -/
inductive Term where
  | word (w : Term.Word)
  | text (content : List Char)
  | node (brackets : Term.Brackets) (items : List Term)

namespace Term

/-- What stands behind the items.  A single item of a tuple keeps a comma behind it. -/
def Brackets.closing : Brackets → List Term → List Char
  | record _, _ => [')']
  | tuple, [_] => [',', ')']
  | tuple, _ => [')']
  | list, _ => [']']

mutual

/-- A term as it is written. -/
def chars : Term → List Char
  | word w => w.text.toList
  | text content => display content
  | node brackets items =>
      brackets.name ++ brackets.opening ::
        (List.intercalate [',', ' '] (charsOf items) ++ brackets.closing items)

/-- Terms as they are written. -/
def charsOf : List Term → List (List Char)
  | [] => []
  | t :: ts => chars t :: charsOf ts

end

theorem charsOf_eq_map (ts : List Term) : charsOf ts = ts.map chars := by
  induction ts with
  | nil => rfl
  | cons t ts ih => rw [charsOf, ih, List.map_cons]

/-! ## Words -/

/-- A quote begins a string, and no word. -/
theorem not_isBare_of_isQuote {c : Char} (hc : c = '\'' ∨ c = '"') : isBare c = false := by
  rcases hc with rfl | rfl <;> decide

/-- Terms are enclosed by parentheses or square brackets. -/
theorem Brackets.opening_cases (b : Brackets) : b.opening = '(' ∨ b.opening = '[' := by
  cases b with
  | record => exact .inl rfl
  | tuple => exact .inl rfl
  | list => exact .inr rfl

theorem not_isBare_opening (b : Brackets) : isBare b.opening = false := by
  rcases b.opening_cases with h | h <;> rw [h] <;> decide

theorem isBare_of_isDigit {c : Char} (hc : c.isDigit = true) : isBare c = true := by
  rw [isBare, Bool.not_eq_true', ← Bool.not_eq_true, List.contains_iff_mem]
  intro hmem
  simp only [List.mem_cons, List.not_mem_nil, or_false] at hmem
  rcases hmem with rfl | rfl | rfl | rfl | rfl | rfl | rfl <;> exact absurd hc (by decide)

/-- A number is a word, its sign included. -/
theorem all_isBare_toString (n : Int) : (toString n).toList.all isBare = true := by
  refine List.all_eq_true.2 fun c hc => ?_
  rcases isDigit_or_eq_of_mem_toString c hc with hdigit | rfl
  · exact isBare_of_isDigit hdigit
  · decide

/-- A number as a word. -/
def Word.number (n : Int) : Word := ⟨toString n, toList_toString_ne_nil n, all_isBare_toString n⟩

@[simp]
theorem Word.number_inj {m n : Int} : Word.number m = Word.number n ↔ m = n := by
  rw [number, number, mk.injEq]
  exact ⟨toString_inj, congrArg toString⟩

/-- A word is its text. -/
theorem Word.ext {w w' : Word} (h : w.text.toList = w'.text.toList) : w = w' := by
  obtain ⟨text, _, _⟩ := w
  obtain ⟨text', _, _⟩ := w'
  obtain rfl : text = text' := String.toList_inj.1 h
  rfl

theorem Word.isBare (w : Word) : ∀ c ∈ w.text.toList, Text.isBare c = true :=
  List.all_eq_true.1 w.bare

/-! ## Where a term ends -/

/-- The text is empty or begins with a delimiter that can stand behind a term. -/
def Delimited (u : List Char) : Prop := ∀ c ∈ u.head?, c ∈ [',', ')', ']']

/-- The marks between terms and behind them belong to no word. -/
theorem not_isBare_of_mem {c : Char} (hc : c ∈ [',', ')', ']']) : Text.isBare c = false := by
  simp only [List.mem_cons, List.not_mem_nil, or_false] at hc
  rcases hc with rfl | rfl | rfl <;> decide

theorem Delimited.headNot {u : List Char} (hu : Delimited u) : HeadNot Text.isBare u :=
  fun c hc => not_isBare_of_mem (hu c hc)

/-- The name at the front of a term, or the whole of a word. -/
def front : Term → List Char
  | word w => w.text.toList
  | text _ => []
  | node brackets _ => brackets.name

/-- The rest of a term behind its front. -/
def back : Term → List Char
  | word _ => []
  | text content => display content
  | node brackets items => brackets.opening ::
      (List.intercalate [',', ' '] (charsOf items) ++ brackets.closing items)

/-- A term falls into the word or quote that it begins with, and the rest. -/
theorem front_append_back (t : Term) : t.front ++ t.back = t.chars := by
  cases t with
  | word w => rw [front, back, chars, List.append_nil]
  | text content => rw [front, back, chars, List.nil_append]
  | node brackets items => rw [front, back, chars]

/-- The front of a term has no delimiter. -/
theorem isBare_of_mem_front {t : Term} : ∀ c ∈ t.front, Text.isBare c = true := by
  cases t with
  | word w => exact w.isBare
  | text content => simp [front]
  | node brackets items =>
      cases brackets with
      | record name => exact name.isBare
      | tuple => simp [front, Brackets.name]
      | list => simp [front, Brackets.name]

/-- The front of a term ends where the rest of it begins, or what stands behind it. -/
theorem headNot_back_append {t : Term} {u : List Char} (hu : Delimited u) :
    HeadNot Text.isBare (t.back ++ u) := by
  cases t with
  | word w => exact hu.headNot
  | text content => exact headNot_cons.2 (not_isBare_of_isQuote (displayQuote_cases content))
  | node brackets items => exact headNot_cons.2 (not_isBare_opening brackets)

/-- The text that begins with the term tells where it ends and which term it is. -/
def Told (t : Term) : Prop :=
  ∀ (t' : Term) (u v : List Char), Delimited u → Delimited v →
    t.chars ++ u = t'.chars ++ v → t = t' ∧ u = v

/-- Terms that are written alike have the same front, since each front is the longest run of bare
characters. -/
theorem front_back_inj {t t' : Term} {u v : List Char} (hu : Delimited u) (hv : Delimited v)
    (h : t.chars ++ u = t'.chars ++ v) : t.front = t'.front ∧ t.back ++ u = t'.back ++ v := by
  rw [← front_append_back, ← front_append_back, List.append_assoc, List.append_assoc] at h
  exact append_inj_of_headNot isBare_of_mem_front isBare_of_mem_front (headNot_back_append hu)
    (headNot_back_append hv) h

/-- A string begins where no term has ended. -/
theorem not_delimited_display (s w : List Char) : ¬ Delimited (display s ++ w) := by
  intro h
  have hmem := h _ rfl
  rcases displayQuote_cases s with hq | hq <;> rw [hq] at hmem <;> exact absurd hmem (by decide)

theorem not_delimited_opening (b : Brackets) (w : List Char) : ¬ Delimited (b.opening :: w) := by
  intro h
  have hmem := h _ rfl
  rcases b.opening_cases with hb | hb <;> rw [hb] at hmem <;> exact absurd hmem (by decide)

theorem opening_ne_displayQuote (b : Brackets) (s : List Char) : b.opening ≠ displayQuote s := by
  rcases b.opening_cases with hb | hb <;> rcases displayQuote_cases s with hq | hq <;>
    rw [hb, hq] <;> decide

/-- Brackets are told by the name in front of them and the mark that opens them. -/
theorem Brackets.inj {b b' : Brackets} (hname : b.name = b'.name)
    (hopening : b.opening = b'.opening) : b = b' := by
  cases b <;> cases b'
  case record.record name name' => rw [Word.ext hname]
  case record.tuple name => exact absurd hname name.ne_nil
  case record.list name => exact absurd hname name.ne_nil
  case tuple.record name => exact absurd hname.symm name.ne_nil
  case list.record name => exact absurd hname.symm name.ne_nil
  case tuple.tuple => rfl
  case list.list => rfl
  case tuple.list => exact absurd hopening (by decide)
  case list.tuple => exact absurd hopening (by decide)

/-! ## Items -/

theorem intercalate_cons {α : Type} (sep w : List α) (ws : List (List α)) :
    List.intercalate sep (w :: ws) = w ++ ws.flatMap (sep ++ ·) := by
  induction ws generalizing w with
  | nil => rw [List.intercalate_singleton, List.flatMap_nil, List.append_nil]
  | cons x ws ih =>
      rw [List.intercalate_cons_cons, ih, List.flatMap_cons, List.append_assoc, List.append_assoc]

/-- The text ends the items of a term: a delimiter stands there, and not the comma between two
items. -/
structure Closes (x : List Char) : Prop where
  delimited : Delimited x
  ne_comma : ∀ w, x ≠ ',' :: ' ' :: w

/-- What closes a node is told apart from any further member. -/
theorem closes_closing (b : Brackets) (items : List Term) (u : List Char) :
    Closes (b.closing items ++ u) := by
  unfold Brackets.closing
  split <;> exact ⟨by simp [Delimited], by simp⟩

theorem not_delimited_word (w : Word) (x : List Char) : ¬ Delimited (w.text.toList ++ x) := by
  intro h
  obtain ⟨c, cs, hc⟩ := List.exists_cons_of_ne_nil w.ne_nil
  have hbare := w.isBare c (by rw [hc]; exact List.mem_cons_self)
  rw [hc] at h
  rw [not_isBare_of_mem (h c rfl)] at hbare
  cases hbare

/-- No term begins with a delimiter. -/
theorem not_delimited_chars (t : Term) (x : List Char) : ¬ Delimited (t.chars ++ x) := by
  cases t with
  | word w => exact not_delimited_word w x
  | text content => exact not_delimited_display content x
  | node b items =>
      rw [chars, List.append_assoc]
      cases b with
      | record name => exact not_delimited_word name _
      | tuple => exact not_delimited_opening .tuple _
      | list => exact not_delimited_opening .list _

/-- Behind an item comes a comma, or what stands behind all of them. -/
theorem delimited_flatMap {ts : List Term} {x : List Char} (hx : Delimited x) :
    Delimited (ts.flatMap (fun t => ',' :: ' ' :: t.chars) ++ x) := by
  cases ts with
  | nil => exact hx
  | cons t ts => simp [Delimited]

/-- The items behind the first one are told by the commas in front of them. -/
theorem told_flatMap {ts ts' : List Term} {x y : List Char} (ht : ∀ t ∈ ts, Told t)
    (hx : Closes x) (hy : Closes y)
    (h : ts.flatMap (fun t => ',' :: ' ' :: t.chars) ++ x =
      ts'.flatMap (fun t => ',' :: ' ' :: t.chars) ++ y) : ts = ts' ∧ x = y := by
  induction ts generalizing ts' with
  | nil =>
      cases ts' with
      | nil => exact ⟨rfl, h⟩
      | cons t' ts' => exact absurd h (hx.ne_comma _)
  | cons t ts ih =>
      cases ts' with
      | nil => exact absurd h.symm (hy.ne_comma _)
      | cons t' ts' =>
          obtain ⟨ht, hts⟩ := List.forall_mem_cons.1 ht
          rw [List.flatMap_cons, List.flatMap_cons, List.append_assoc, List.append_assoc] at h
          have htail := (List.cons.inj (List.cons.inj h).2).2
          obtain ⟨rfl, hrest⟩ := ht _ _ _ (delimited_flatMap hx.delimited)
            (delimited_flatMap hy.delimited) htail
          obtain ⟨rfl, hxy⟩ := ih hts hrest
          exact ⟨rfl, hxy⟩

/-- The first item, and each other one behind a comma. -/
theorem intercalate_charsOf_cons (t : Term) (ts : List Term) :
    List.intercalate [',', ' '] (charsOf (t :: ts)) =
      t.chars ++ ts.flatMap fun t => ',' :: ' ' :: t.chars := by
  rw [charsOf, intercalate_cons, charsOf_eq_map, List.flatMap_map]
  rfl

/-- Items that are told one by one are told as a list, up to the bracket that closes it. -/
theorem told_intercalate {ts ts' : List Term} {x y : List Char} (ht : ∀ t ∈ ts, Told t)
    (hx : Closes x) (hy : Closes y)
    (h : List.intercalate [',', ' '] (charsOf ts) ++ x =
      List.intercalate [',', ' '] (charsOf ts') ++ y) : ts = ts' ∧ x = y := by
  cases ts with
  | nil =>
      cases ts' with
      | nil => exact ⟨rfl, h⟩
      | cons t' ts' =>
          obtain rfl : x = _ := h
          rw [intercalate_charsOf_cons, List.append_assoc] at hx
          exact absurd hx.delimited (not_delimited_chars _ _)
  | cons t ts =>
      rw [intercalate_charsOf_cons, List.append_assoc] at h
      cases ts' with
      | nil =>
          obtain rfl : _ = y := h
          exact absurd hy.delimited (not_delimited_chars _ _)
      | cons t' ts' =>
          obtain ⟨ht, hts⟩ := List.forall_mem_cons.1 ht
          rw [intercalate_charsOf_cons, List.append_assoc] at h
          obtain ⟨rfl, hrest⟩ := ht _ _ _ (delimited_flatMap hx.delimited)
            (delimited_flatMap hy.delimited) h
          obtain ⟨rfl, hxy⟩ := told_flatMap hts hx hy hrest
          exact ⟨rfl, hxy⟩

/-! ## Terms -/

/-- A word is told by its characters, as it ends at a delimiter. -/
theorem told_word (w : Word) : Told (word w) := by
  intro t' u v hu hv h
  obtain ⟨hfront, hback⟩ := front_back_inj hu hv h
  cases t' with
  | word w' => exact ⟨by rw [Word.ext hfront], hback⟩
  | text content =>
      obtain rfl : u = display content ++ v := hback
      exact absurd hu (not_delimited_display content v)
  | node b items =>
      obtain rfl : u = b.opening :: _ := hback
      exact absurd hu (not_delimited_opening b _)

/-- A quoted text is told by its content, as it ends at its quote. -/
theorem told_text (content : List Char) : Told (text content) := by
  intro t' u v hu hv h
  obtain ⟨-, hback⟩ := front_back_inj hu hv h
  cases t' with
  | word w =>
      obtain rfl : display content ++ u = v := hback
      exact absurd hv (not_delimited_display content u)
  | text content' =>
      obtain ⟨rfl, huv⟩ := display_append_inj hback
      exact ⟨rfl, huv⟩
  | node b items =>
      exact absurd (List.cons.inj hback).1.symm (opening_ne_displayQuote b content)

/-- A node is told by its name, its bracket and its items. -/
theorem told_node (b : Brackets) {items : List Term} (hitems : ∀ t ∈ items, Told t) :
    Told (node b items) := by
  intro t' u v hu hv h
  obtain ⟨hfront, hback⟩ := front_back_inj hu hv h
  cases t' with
  | word w =>
      obtain rfl : b.opening :: _ = v := hback
      exact absurd hv (not_delimited_opening b _)
  | text content => exact absurd (List.cons.inj hback).1 (opening_ne_displayQuote b content)
  | node b' items' =>
      obtain ⟨hopening, htail⟩ := List.cons.inj hback
      obtain rfl := Brackets.inj hfront hopening
      rw [List.append_eq, List.append_eq, List.append_assoc, List.append_assoc] at htail
      obtain ⟨rfl, hrest⟩ := told_intercalate hitems (closes_closing b items u)
        (closes_closing b items' v) htail
      exact ⟨rfl, List.append_cancel_left hrest⟩

mutual

/-- Every term is told by how it begins and where it ends, by induction over its members. -/
theorem told : ∀ t : Term, Told t
  | word w => told_word w
  | text content => told_text content
  | node b items => told_node b (told_of_mem items)

theorem told_of_mem : ∀ (ts : List Term), ∀ t ∈ ts, Told t
  | [] => by simp
  | t :: ts => List.forall_mem_cons.2 ⟨told t, told_of_mem ts⟩

end

/-- **Terms**: a term can be read back from how it is written. -/
theorem chars_inj {t t' : Term} : t.chars = t'.chars ↔ t = t' := by
  refine ⟨fun h => ?_, congrArg chars⟩
  have hnil : Delimited [] := by simp [Delimited]
  exact (told t t' [] [] hnil hnil (by rw [h])).1

end Term

end TableDdl.Text
