import TableDdl.Cursor
import TableDdl.Error
import TableDdl.Text.LowerCase
import TableDdl.Text.Quoted
import TableDdl.Text.Word

/-!
# Grammars

A grammar is a value: a tree of primitives and of ways to put grammars together.  `Grammar.run`
reads a grammar from a cursor, and what it finds is an `Outcome`:

* `matched next value` — the grammar's value, and the cursor behind what it took;
* `mismatch place` — no match, and where reading stopped;
* `overlong digits` — an integer of more digits than can be read.  This is no mismatch: no
  alternative is tried after it, and nothing optional is left out because of it.

Choice is ordered and committed: the first alternative that matches is taken for good.  A mismatch
is reported where the failing part stood, unless `attempt` moves the report back to its own start.
-/

namespace TableDdl

/-- What reading a grammar from a cursor comes to. -/
inductive Outcome (α : Type) where
  | matched (next : Cursor) (value : α)
  | mismatch (place : Cursor)
  | overlong (digits : Nat)
  deriving DecidableEq

/-- A grammar whose matches have values in `α`. -/
inductive Grammar : Type → Type 1 where
  /-- Matches everywhere and takes nothing. -/
  | pure {α : Type} (value : α) : Grammar α
  /-- Matches nowhere. -/
  | fail {α : Type} : Grammar α
  /-- Takes nothing, and looks whether the next character, `none` at the end, satisfies `p`. -/
  | ahead (p : Option Char → Bool) : Grammar Unit
  /-- The longest run, perhaps empty, of characters that satisfy `p`. -/
  | span (p : Char → Bool) : Grammar (List Char)
  /-- Exactly this text. -/
  | literal (s : List Char) : Grammar (List Char)
  /-- ASCII text whose lower-case form is `s`.  The value is the text as it stands. -/
  | caseless (s : List Char) : Grammar (List Char)
  /-- An unsigned decimal integer. -/
  | number : Grammar Nat
  /-- A quoted string.  The value is its content. -/
  | quoted : Grammar (List Char)
  /-- `g` with its value changed. -/
  | map {α β : Type} (f : α → β) (g : Grammar α) : Grammar β
  /-- `g` where its value is accepted; a value that is not is a mismatch at the start. -/
  | refine {α β : Type} (f : α → Option β) (g : Grammar α) : Grammar β
  /-- `g`, then `h` behind it. -/
  | pair {α β : Type} (g : Grammar α) (h : Grammar β) : Grammar (α × β)
  /-- `g` with every mismatch reported at the start. -/
  | attempt {α : Type} (g : Grammar α) : Grammar α
  /-- `g`, or else `h` from the same place. -/
  | orElse {α : Type} (g h : Grammar α) : Grammar α
  /-- `g` again and again, as long as it matches and takes something. -/
  | many {α : Type} (g : Grammar α) : Grammar (List α)

/-! ## Reading -/

/-- The beginning of a text that matches `s` up to ASCII case, as it stands in the text. -/
def caselessPrefix : List Char → List Char → Option (List Char)
  | [], _ => some []
  | _ :: _, [] => none
  | k :: ks, c :: cs =>
      if c.toNat < 0x80 ∧ Text.asciiLower c = k then (caselessPrefix ks cs).map (c :: ·) else none

namespace Outcome

/-- The outcome with its value changed. -/
def map {α β : Type} (f : α → β) : Outcome α → Outcome β
  | matched next value => matched next (f value)
  | mismatch place => mismatch place
  | overlong digits => overlong digits

/-- What comes after a match is decided by `k`. -/
def bind {α β : Type} (k : Cursor → α → Outcome β) : Outcome α → Outcome β
  | matched next value => k next value
  | mismatch place => mismatch place
  | overlong digits => overlong digits

/-- What comes after a mismatch is decided by `other`. -/
def recover {α : Type} (other : Cursor → Outcome α) : Outcome α → Outcome α
  | matched next value => matched next value
  | mismatch place => other place
  | overlong digits => overlong digits

/-- A match if there is a value, and otherwise a mismatch at `start`. -/
def ofOption {α : Type} (start next : Cursor) : Option α → Outcome α
  | some value => matched next value
  | none => mismatch start

end Outcome

/-- Reads `run` again and again from `c`, at most `fuel` times, as long as it matches and takes
something. -/
def repeatRun {α : Type} (run : Cursor → Outcome α) : Nat → Cursor → Outcome (List α)
  | 0, c => .matched c []
  | fuel + 1, c =>
      match run c with
      | .matched next value =>
          if next.pos = c.pos then .matched c []
          else (repeatRun run fuel next).map (value :: ·)
      | .mismatch _ => .matched c []
      | .overlong digits => .overlong digits

/-- Reads the digits in front of `c` as an integer. -/
def runNumber (c : Cursor) : Outcome Nat :=
  let digits := c.rest.takeWhile Text.isDigit
  let count := digits.length
  if count = 0 then .mismatch c
  else if maxDigits < count then .overlong count
  else .matched (c.advance count) (Nat.ofDigitChars 10 digits 0)

/-- Reads a grammar from a cursor.  A repetition that takes something each time cannot match more
often than there are characters left. -/
def Grammar.run {α : Type} : Grammar α → Cursor → Outcome α
  | .pure value, c => .matched c value
  | .fail, c => .mismatch c
  | .ahead p, c => if p c.rest.head? then .matched c () else .mismatch c
  | .span p, c =>
      let taken := c.rest.takeWhile p
      .matched (c.advance taken.length) taken
  | .literal s, c => if c.startsWith s then .matched (c.advance s.length) s else .mismatch c
  | .caseless s, c => .ofOption c (c.advance s.length) (caselessPrefix s c.rest)
  | .number, c => runNumber c
  | .quoted, c =>
      match Text.Quoted.decode c.rest with
      | some (content, count) => .matched (c.advance count) content
      | none => .mismatch c
  | .map f g, c => (g.run c).map f
  | .refine f g, c => (g.run c).bind fun next value => .ofOption c next (f value)
  | .pair g h, c => (g.run c).bind fun next value => (h.run next).map fun w => (value, w)
  | .attempt g, c => (g.run c).recover fun _ => .mismatch c
  | .orElse g h, c => (g.run c).recover fun _ => (h.run c).recover fun _ => .mismatch c
  | .many g, c => repeatRun g.run (c.rest.length + 1) c

namespace Grammar

variable {α β : Type}

/-! ## What each combination reads -/

@[simp]
theorem run_pure (value : α) (c : Cursor) : (pure value).run c = .matched c value := rfl

@[simp]
theorem run_fail (c : Cursor) : (fail : Grammar α).run c = .mismatch c := rfl

@[simp]
theorem run_map (f : α → β) (g : Grammar α) (c : Cursor) :
    (map f g).run c = (g.run c).map f := rfl

@[simp]
theorem run_refine (f : α → Option β) (g : Grammar α) (c : Cursor) :
    (refine f g).run c = (g.run c).bind fun next value => .ofOption c next (f value) := rfl

@[simp]
theorem run_pair (g : Grammar α) (h : Grammar β) (c : Cursor) :
    (pair g h).run c =
      (g.run c).bind fun next value => (h.run next).map fun w => (value, w) := rfl

@[simp]
theorem run_attempt (g : Grammar α) (c : Cursor) :
    (attempt g).run c = (g.run c).recover fun _ => .mismatch c := rfl

@[simp]
theorem run_orElse (g h : Grammar α) (c : Cursor) :
    (orElse g h).run c =
      (g.run c).recover fun _ => (h.run c).recover fun _ => .mismatch c := rfl

@[simp]
theorem run_many (g : Grammar α) (c : Cursor) :
    (many g).run c = repeatRun g.run (c.rest.length + 1) c := rfl

end Grammar

end TableDdl
