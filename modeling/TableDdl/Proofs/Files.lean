import TableDdl.Script.File

/-!
# Files and the paths that lead to them

A path is followed in its normal form, with a home folder in the place of a tilde in front.  Its
last name stays what it is, unless the path is a tilde and a name and nothing else
(`Path.eq_of_follow`, `Path.name_of_follow`).

A slash at the end of a path asks for a folder.  A path in normal form ends in a slash only where it
has no names and leads to the root (`Path.text_of_getLast?`), and the root is a folder.  So the
question whether there is a file is not spoilt by how its path is written: a file that can be read
where a path leads is there, and its script is its text, if its bytes are one
(`FileTree.script_of_readBytes`).
-/

namespace TableDdl

namespace Path

variable {homes : Homes} {p q : Path} {path : String} {cause : FileError}

/-! ## Names -/

/-- No slash is left in a part between slashes. -/
theorem not_mem_of_mem_splitFrom {current text part : List Char} (hcurrent : '/' ∉ current)
    (h : part ∈ splitFrom current text) : '/' ∉ part := by
  induction text generalizing current with
  | nil =>
      rw [splitFrom, List.mem_singleton] at h
      rw [h, List.mem_reverse]
      exact hcurrent
  | cons c rest ih =>
      rw [splitFrom] at h
      split at h
      · rcases List.mem_cons.1 h with rfl | h
        · rw [List.mem_reverse]
          exact hcurrent
        · exact ih List.not_mem_nil h
      · next hc =>
        refine ih ?_ h
        rw [List.mem_cons, not_or]
        exact ⟨fun hslash => hc hslash.symm, hcurrent⟩

/-- The names of a path are not empty and hold no slash. -/
theorem ne_nil_and_not_mem_of_mem_namesOf {text name : List Char} (h : name ∈ namesOf text) :
    name ≠ [] ∧ '/' ∉ name := by
  obtain ⟨hpart, hne⟩ := List.mem_filter.1 (List.mem_filter.1 h).1
  exact ⟨by simpa using hne, not_mem_of_mem_splitFrom List.not_mem_nil hpart⟩

/-- A path as it comes out of a text: no more than two slashes in front, and names without any. -/
structure Proper (p : Path) : Prop where
  root : p.root = [] ∨ p.root = ['/'] ∨ p.root = ['/', '/']
  names : ∀ name ∈ p.names, name ≠ [] ∧ '/' ∉ name

theorem rootOf_eq (text : List Char) :
    rootOf text = [] ∨ rootOf text = ['/'] ∨ rootOf text = ['/', '/'] := by
  unfold rootOf
  split <;> simp

theorem proper_ofText (text : String) : (ofText text).Proper where
  root := rootOf_eq text.toList
  names := fun _ => ne_nil_and_not_mem_of_mem_namesOf

/-! ## Home folders -/

theorem homeOf_eq_error {user : List Char} (h : homeOf homes user = .error cause) :
    cause = .nullInPath ∨ cause = .unknownHome := by
  unfold homeOf at h
  split at h
  · exact .inl (Except.error.inj h).symm
  · split at h
    · exact .inr (Except.error.inj h).symm
    · dsimp only at h
      split at h
      · exact .inr (Except.error.inj h).symm
      · cases h

/-- The names behind a tilde are names of the path. -/
theorem mem_of_tilde? {user : List Char} {rest : List (List Char)}
    (h : p.tilde? = some (user, rest)) : ∃ first, p.names = first :: rest := by
  unfold tilde? at h
  split at h
  · cases h
  · next first names hnames =>
    split at h
    · obtain ⟨-, rfl⟩ := Prod.mk.inj (Option.some.inj h)
      exact ⟨first, hnames⟩
    · cases h

/-- A path that is expanded begins with no tilde, or with one that a home folder stands for. -/
theorem expand_cases (h : p.expand homes = .ok q) :
    (p.tilde? = none ∧ q = p) ∨ ∃ user rest home, p.tilde? = some (user, rest) ∧
      homeOf homes user = .ok home ∧ q = ⟨rootOf home, namesOf home ++ rest⟩ := by
  unfold expand at h
  cases htilde : p.tilde? with
  | none =>
      rw [htilde] at h
      exact .inl ⟨rfl, (Except.ok.inj h).symm⟩
  | some found =>
      obtain ⟨user, rest⟩ := found
      rw [htilde] at h
      cases hhome : homeOf homes user with
      | error e =>
          simp only [hhome] at h
          cases h
      | ok home =>
          simp only [hhome] at h
          exact .inr ⟨user, rest, home, rfl, hhome, (Except.ok.inj h).symm⟩

/-- A home folder is put in front of names that are left as they are. -/
theorem Proper.expand (hp : p.Proper) (h : p.expand homes = .ok q) : q.Proper := by
  rcases expand_cases h with ⟨-, rfl⟩ | ⟨user, rest, home, htilde, -, rfl⟩
  · exact hp
  · obtain ⟨first, hnames⟩ := mem_of_tilde? htilde
    refine ⟨rootOf_eq home, fun name hname => ?_⟩
    rcases List.mem_append.1 hname with hname | hname
    · exact ne_nil_and_not_mem_of_mem_namesOf hname
    · refine hp.names name ?_
      rw [hnames]
      exact List.mem_cons_of_mem first hname

/-- A path is kept from being followed by a character U+0000, or by a tilde for which no home folder
is known. -/
theorem follow_eq_error (h : follow homes path = .error cause) :
    cause = .nullInPath ∨ cause = .unknownHome := by
  unfold follow expand at h
  split at h
  · exact .inl (Except.error.inj h).symm
  · split at h
    · cases h
    · next user rest htilde =>
      cases hhome : homeOf homes user with
      | error e =>
          rw [hhome] at h
          obtain rfl := Except.error.inj h
          exact homeOf_eq_error hhome
      | ok home =>
          rw [hhome] at h
          cases h

/-- A path without U+0000 is followed as it is expanded. -/
theorem expand_of_follow (h : follow homes path = .ok q) : (ofText path).expand homes = .ok q := by
  unfold follow at h
  split at h
  · cases h
  · exact h

theorem proper_of_follow (h : follow homes path = .ok q) : q.Proper :=
  (proper_ofText path).expand (expand_of_follow h)

/-- Without a tilde in front a path is followed as it stands. -/
theorem eq_of_follow (h : follow homes path = .ok q) (htilde : (ofText path).tilde? = none) :
    q = ofText path := by
  rcases expand_cases (expand_of_follow h) with ⟨-, rfl⟩ | ⟨user, rest, home, hsome, -, -⟩
  · rfl
  · rw [htilde] at hsome
    cases hsome

/-- With a name behind the one that has the tilde, the last name is that of the path. -/
theorem name_of_follow (h : follow homes path = .ok q) (hnames : 1 < (ofText path).names.length) :
    q.name = (ofText path).name := by
  rcases expand_cases (expand_of_follow h) with ⟨-, rfl⟩ | ⟨user, rest, home, htilde, -, rfl⟩
  · rfl
  · obtain ⟨first, hfirst⟩ := mem_of_tilde? htilde
    have hrest : rest ≠ [] := by
      rintro rfl
      rw [hfirst] at hnames
      exact absurd hnames (Nat.lt_irrefl 1)
    -- what stands in front of the rest has no part in the last name
    have hfront (front : List (List Char)) : (front ++ rest).getLast? = rest.getLast? := by
      rw [List.getLast?_append, List.getLast?_eq_some_getLast hrest, Option.some_or]
    unfold name
    rw [hfirst, hfront, ← List.singleton_append, hfront]

/-! ## The last character -/

/-- Names with slashes between them end like the last name. -/
theorem getLast?_intercalate {ls : List (List Char)} (hne : ls ≠ [])
    (hls : ∀ l ∈ ls, l ≠ [] ∧ '/' ∉ l) :
    ∃ c, (List.intercalate ['/'] ls).getLast? = some c ∧ c ≠ '/' := by
  induction ls with
  | nil => exact absurd rfl hne
  | cons l ls ih =>
      obtain ⟨hl, hrest⟩ := List.forall_mem_cons.1 hls
      by_cases hnil : ls = []
      · subst hnil
        rw [List.intercalate_singleton, List.getLast?_eq_some_getLast hl.1]
        refine ⟨_, rfl, fun hslash => hl.2 ?_⟩
        rw [← hslash]
        exact List.getLast_mem hl.1
      · obtain ⟨c, hlast, hc⟩ := ih hnil hrest
        refine ⟨c, ?_, hc⟩
        rw [List.intercalate_cons_of_ne_nil hnil, List.getLast?_append, hlast, Option.some_or]

/-- A path in normal form that ends in a slash is nothing but slashes. -/
theorem text_of_getLast? (hp : p.Proper) (h : p.text.toList.getLast? = some '/') :
    p.text = "/" ∨ p.text = "//" := by
  unfold text at h ⊢
  by_cases hnames : p.names = []
  -- without names nothing but the slashes in front is left
  · rw [hnames, List.intercalate_nil, List.append_nil] at h ⊢
    rcases hp.root with hroot | hroot | hroot
    · rw [hroot] at h
      exact absurd h (by decide)
    · rw [hroot]
      exact .inl rfl
    · rw [hroot]
      exact .inr rfl
  · obtain ⟨c, hlast, hc⟩ := getLast?_intercalate hnames hp.names
    have hne : (p.root ++ List.intercalate ['/'] p.names).isEmpty = false := by
      rw [List.isEmpty_eq_false_iff]
      intro hnil
      rw [(List.append_eq_nil_iff.1 hnil).2] at hlast
      cases hlast
    simp only [hne, Bool.false_eq_true, if_false, String.toList_ofList] at h
    rw [List.getLast?_append, hlast, Option.some_or] at h
    exact absurd (Option.some.inj h) hc

end Path

namespace FileTree

variable {t : FileTree} {path : String} {followed : Path} {bytes : ByteArray} {cause : FileError}

/-- Bytes are read of a file only. -/
theorem find_of_readBytes (h : t.readBytes path = .ok bytes) : t.find path = .ok (.file bytes) := by
  rw [readBytes] at h
  cases hfind : t.find path with
  | error e =>
      rw [hfind] at h
      cases h
  | ok entry =>
      rw [hfind] at h
      cases entry with
      | folder => cases h
      | file content =>
          obtain rfl := Except.ok.inj h
          rfl

/-- A file that can be read at a path in normal form is there. -/
theorem holds_of_readBytes (hp : followed.Proper) (h : t.readBytes followed.text = .ok bytes) :
    t.holds followed.text = true := by
  have hfind := find_of_readBytes h
  rw [holds, hfind]
  refine bne_iff_ne.2 fun hslash => ?_
  rcases Path.text_of_getLast? hp hslash with hroot | hroot
  · rw [hroot] at hfind
    cases hfind
  · rw [hroot] at hfind
    cases hfind

/-- The script that a path leads to is the text of the file, if its bytes are a text. -/
theorem script_of_readBytes (hfollow : Path.follow t.homes path = .ok followed)
    (h : t.readBytes followed.text = .ok bytes) :
    t.script path = .file followed.name (match Text.decodeFile bytes with
      | some text => .ok text
      | none => .error .notText) := by
  have hread : t.readText path = match Text.decodeFile bytes with
      | some text => .ok text
      | none => .error .notText := by
    rw [readText, hfollow]
    change (t.readBytes followed.text >>= _) = _
    rw [h]
    rfl
  have hholds := holds_of_readBytes (Path.proper_of_follow hfollow) h
  rw [script, hfollow]
  simp only [hholds, if_true, hread]

/-- A path that cannot be followed leads to no script. -/
theorem script_of_refused (h : Path.follow t.homes path = .error cause) :
    t.script path = .refused cause := by
  rw [script, h]

end FileTree

end TableDdl
