import TableDdl.Marker
import TableDdl.Text.Quoted

/-!
# Strings read by places

A quoted string can be read character by character from a marker: the first character decides
whether there is a string, and from there on the length of what is left bounds the places that are
looked at.  A marker may refuse to tell a character or a length.  From a place in the text or beyond
its end it never does (`Marker.quoted_eq`): beyond the end there is no first character, so the
length, which would be negative there, is not asked for.
-/

namespace TableDdl.Marker

open Text Quoted

variable {text : List Char} {p : Nat}

/-! ## Characters and lengths -/

/-- Looking ahead never fails: behind the end of the text there is nothing to see. -/
theorem peek_eq (text : List Char) (p index : Nat) :
    (⟨text, p⟩ : Marker).peek index = .ok (text.drop (p + index)).head? := by
  simp only [peek]
  by_cases h : text.length ≤ p + index
  · rw [if_pos (by omega), List.drop_eq_nil_of_le h, List.head?_nil]
  · have hplace : ((p : Int) + index).toNat = p + index := by omega
    rw [if_neg (by omega), if_neg (by omega), if_neg (by omega), hplace, List.head?_drop]

/-- Within the text, the length is that of what is left. -/
theorem length_eq (h : p ≤ text.length) :
    (⟨text, p⟩ : Marker).length = .ok (text.drop p).length := by
  have hlen : ((text.length : Int) - p) = (text.drop p).length := by
    rw [List.length_drop]
    omega
  simp only [length]
  rw [if_neg (by omega), hlen]

theorem of_length_eq_ok {m : Marker} {left : Int} (h : m.length = .ok left) :
    left = m.text.length - m.pos := by
  simp only [length] at h
  split at h <;> simp only [Except.ok.injEq, reduceCtorEq] at h
  exact h.symm

theorem drop_add_of_cons {c : Char} {more : List Char} {place : Nat}
    (h : text.drop place = c :: more) : text.drop (place + 1) = more := by
  rw [← List.drop_drop, h, List.drop_one, List.tail_cons]

/-- A place in front of a character is a place in the text. -/
theorem lt_length_of_cons {c : Char} {more : List Char} {place : Nat}
    (h : text.drop place = c :: more) : place < text.length := by
  have := congrArg List.length h
  simp only [List.length_drop, List.length_cons] at this
  omega

/-! ## Strings -/

/-- Reads on behind `index` characters of a string opened by `quote`, whose content so far is
`done`, last character first. -/
def quotedFrom (m : Marker) (quote : Char) (done : List Char) (index : Nat) :
    Except Fault (Option (List Char × Nat)) :=
  match _ : m.length with
  | .error fault => .error fault
  | .ok left =>
      if _ : index < left then
        match m.peek index with
        | .error fault => .error fault
        | .ok none => .ok none
        | .ok (some c) =>
            if c = quote then .ok (some (done.reverse, index + 1))
            else if c = '\\' then
              match m.peek (index + 1 : Nat) with
              | .error fault => .error fault
              | .ok escaped =>
                  match escaped.bind unescape with
                  | some x => quotedFrom m quote (x :: done) (index + 2)
                  | none => .ok none
            else if isPlain c then quotedFrom m quote (c :: done) (index + 1)
            else .ok none
      else .ok none
termination_by (m.text.length - m.pos - index).toNat
decreasing_by
  all_goals
    have hleft := of_length_eq_ok ‹m.length = .ok left›
    omega

/-- The content of the quoted string that stands at the marker, and how many characters it takes up
with its quotes. -/
def quoted (m : Marker) : Except Fault (Option (List Char × Nat)) :=
  match m.peek 0 with
  | .error fault => .error fault
  | .ok none => .ok none
  | .ok (some quote) => if isQuote quote then quotedFrom m quote [] 1 else .ok none

/-- While there are characters left, the next one decides how reading goes on. -/
theorem quotedFrom_of_cons {quote : Char} {done : List Char} {index : Nat} {c : Char}
    {more : List Char} (hrest : text.drop (p + index) = c :: more) :
    (⟨text, p⟩ : Marker).quotedFrom quote done index =
      if c = quote then .ok (some (done.reverse, index + 1))
      else if c = '\\' then
        match more.head?.bind unescape with
        | some x => (⟨text, p⟩ : Marker).quotedFrom quote (x :: done) (index + 2)
        | none => .ok none
      else if isPlain c then (⟨text, p⟩ : Marker).quotedFrom quote (c :: done) (index + 1)
      else .ok none := by
  have hlen : p + index < text.length := lt_length_of_cons hrest
  have hnext : text.drop (p + (index + 1)) = more := drop_add_of_cons hrest
  have hleft : (index : Int) < (text.drop p).length := by
    rw [List.length_drop]
    omega
  rw [quotedFrom, length_eq (by omega)]
  simp only [dif_pos hleft, peek_eq, hrest, hnext, List.head?_cons]

/-- At the end there is no quote to close the string. -/
theorem quotedFrom_of_nil {quote : Char} {done : List Char} {index : Nat} (hp : p ≤ text.length)
    (hrest : text.drop (p + index) = []) :
    (⟨text, p⟩ : Marker).quotedFrom quote done index = .ok none := by
  have hleft : ¬(index : Int) < (text.drop p).length := by
    have := List.drop_eq_nil_iff.1 hrest
    rw [List.length_drop]
    omega
  rw [quotedFrom, length_eq hp]
  simp only [dif_neg hleft]

/-- The loop over places reads what the loop over the rest of the text reads. -/
theorem quotedFrom_eq {quote : Char} (hquote : isQuote quote = true) (hp : p ≤ text.length)
    (done : List Char) (index : Nat) :
    (⟨text, p⟩ : Marker).quotedFrom quote done index =
      .ok (decodeFrom quote done index (text.drop (p + index))) := by
  have hslash : '\\' ≠ quote := by
    rintro rfl
    exact absurd hquote (by decide)
  generalize hrest : text.drop (p + index) = rest
  fun_induction decodeFrom quote done index rest with
  | case1 done index => exact quotedFrom_of_nil hp hrest
  | case2 done index =>
      rw [quotedFrom_of_cons hrest, if_neg hslash, if_pos rfl]
      rfl
  | case3 done index e more x he ih =>
      rw [quotedFrom_of_cons hrest, if_neg hslash, if_pos rfl, List.head?_cons,
        Option.bind_some, he]
      exact ih (drop_add_of_cons (drop_add_of_cons hrest))
  | case4 done index e more he =>
      rw [quotedFrom_of_cons hrest, if_neg hslash, if_pos rfl, List.head?_cons,
        Option.bind_some, he]
  | case5 done index more =>
      rw [quotedFrom_of_cons hrest, if_pos rfl]
  | case6 done index c more hlone hpair hc hplain ih =>
      have hne : c ≠ '\\' := by
        rintro rfl
        exact absurd hplain (by decide)
      rw [quotedFrom_of_cons hrest, if_neg hc, if_neg hne, if_pos hplain]
      exact ih (drop_add_of_cons hrest)
  | case7 done index c more hlone hpair hc hplain =>
      have hne : c ≠ '\\' := by
        rintro rfl
        cases more with
        | nil => exact hlone rfl rfl
        | cons e more => exact hpair e more rfl rfl
      rw [quotedFrom_of_cons hrest, if_neg hc, if_neg hne, if_neg hplain]

/-- **Strings read by places**: from a place in the text, or beyond its end, the marker tells every
character and every length it is asked for, and the string is the one that stands there. -/
theorem quoted_eq (text : List Char) (p : Nat) :
    (⟨text, p⟩ : Marker).quoted = .ok (decode (text.drop p)) := by
  have hpeek : (⟨text, p⟩ : Marker).peek 0 = .ok (text.drop p).head? := peek_eq text p 0
  rw [quoted, hpeek]
  cases hrest : text.drop p with
  | nil => rfl
  | cons c more =>
      simp only [List.head?_cons, decode]
      split
      · next hquote =>
        rw [quotedFrom_eq hquote (Nat.le_of_lt (lt_length_of_cons hrest)), drop_add_of_cons hrest]
      · rfl

/-- Beyond the end the length is refused, and the string is not there all the same. -/
example : (⟨['x'], 2⟩ : Marker).length = .error .negativeLength ∧
    (⟨['x'], 2⟩ : Marker).quoted = .ok none :=
  ⟨rfl, quoted_eq ['x'] 2⟩

end TableDdl.Marker
