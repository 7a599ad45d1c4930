import TableDdl.Proofs.Files
import TableDdl.Proofs.Script.Joining
import TableDdl.Proofs.Text.Files

/-!
# Scripts read from files

A script in a file is read as its text is (`Script.readPath_of_encoded`), whether or not a byte
order mark stands in front of it in the file.  What reading the file does to the breaks of the text
is lost on it, since cleaning takes a script line by line (`Script.clean_unifyBreaks`).

The file is the one that the path leads to, which need not be the one that has its name: a tilde in
front stands for a home folder.
-/

namespace TableDdl.Script

open Text

/-- However its lines are broken, a script is cleaned to the same text. -/
theorem clean_unifyBreaks (script : List Char) : clean (unifyBreaks script) = clean script := by
  rw [clean, dropByteOrderMark_unifyBreaks, lines_unifyBreaks, clean]

theorem read_unifyBreaks (d : Dialect) (name : String) (script : List Char) :
    read d name (unifyBreaks script) = read d name script := by
  rw [read, clean_unifyBreaks, read]

/-- Behind the record of its path a script that was found is read as a text. -/
theorem result_readFound (d : Dialect) (path name : String) (text : List Char) :
    (readFound d path (.file name (.ok text))).result = (read d name text).result :=
  Logged.result_bind_of_ok rfl _

/-- A text without a mark in front is found in its file, its breaks unified. -/
theorem decodeFile_of_encoded {text : List Char} {bytes : ByteArray}
    (hbytes : bytes = encodeFile text ∨ bytes = markBytes ++ encodeFile text)
    (hmark : text.head? ≠ some byteOrderMark) :
    decodeFile bytes = some (unifyBreaks text) := by
  rcases hbytes with rfl | rfl
  · rw [decodeFile_encodeFile, dropByteOrderMark_eq_self hmark]
  · exact decodeFile_markBytes text

/-- **Files**: a file that holds a text, with a byte order mark in front or without, is read as the
text is, under the last name of the path that leads to it, and leaves the same records behind one
that names the path as it was given.  A path without a tilde in front leads along itself, and a home
folder in the place of a tilde is not the last name where more names follow. -/
theorem readPath_of_encoded (d : Dialect) {t : FileTree} {path : String} {followed : Path}
    {text : List Char} {bytes : ByteArray} (hfollow : Path.follow t.homes path = .ok followed)
    (hfile : t.readBytes followed.text = .ok bytes)
    (hbytes : bytes = encodeFile text ∨ bytes = markBytes ++ encodeFile text)
    (hmark : text.head? ≠ some byteOrderMark) :
    readPath d t path =
        ⟨⟨.info, "Parsing ddl file " ++ path⟩ :: (read d followed.name text).records,
          (read d followed.name text).result⟩ ∧
      ((Path.ofText path).tilde? = none → followed = Path.ofText path) ∧
      (1 < (Path.ofText path).names.length → followed.name = (Path.ofText path).name) := by
  have hscript : t.script path = .file followed.name (.ok (unifyBreaks text)) := by
    rw [FileTree.script_of_readBytes hfollow hfile, decodeFile_of_encoded hbytes hmark]
  refine ⟨?_, Path.eq_of_follow hfollow, Path.name_of_follow hfollow⟩
  rw [readPath, hscript, readFound, read_unifyBreaks]
  rfl

/-- A script with all three breaks of a file. -/
def brokenScript : List Char :=
  "-- tables\r\nCREATE TABLE t (\r  a INT\n)\r\n ENGINE=e CHARSET=c COLLATE=l COMMENT='x'\r".toList

/-- The script in a home folder, with a byte order mark in front. -/
def markedTree : FileTree where
  entries :=
    [(["sql"], .folder), (["sql", "t.sql"], .file (markBytes ++ encodeFile brokenScript))]
  homes := [("", "/sql/")]

theorem readPath_of_encoded_markedTree :
    (readPath {} markedTree "~//./t.sql/").records =
        [⟨.info, "Parsing ddl file ~//./t.sql/"⟩, ⟨.info, "Parsed 1 tables"⟩] ∧
      (readPath {} markedTree "~//./t.sql/").result =
        .ok ⟨"t.sql", [⟨"t", [{ name := "a", type := ⟨.int, 0⟩ }], ⟨"e", "c", "l", "x"⟩⟩]⟩ := by
  have hfollow : Path.follow markedTree.homes "~//./t.sql/" =
      .ok ⟨['/'], ["sql".toList, "t.sql".toList]⟩ := rfl
  have hfile : markedTree.readBytes (Path.text ⟨['/'], ["sql".toList, "t.sql".toList]⟩) =
      .ok (markBytes ++ encodeFile brokenScript) := rfl
  rw [(readPath_of_encoded {} hfollow hfile (.inr rfl) (by decide)).1]
  decide +kernel

/-- The script in a file whose name has a tilde in front, which is no one's name. -/
def tildeTree : FileTree where
  entries := [(["~a.sql"], .file (encodeFile brokenScript))]

/-- A file is not read where no home folder is known for the tilde in front of its name. -/
theorem not_forall_readPath :
    ¬∀ (d : Dialect) (t : FileTree) (path : String) (text : List Char) (bytes : ByteArray),
      t.readBytes path = .ok bytes →
      (bytes = encodeFile text ∨ bytes = markBytes ++ encodeFile text) →
      text.head? ≠ some byteOrderMark →
        readPath d t path =
          ⟨⟨.info, "Parsing ddl file " ++ path⟩ ::
              (read d (Path.ofText path).name text).records,
            (read d (Path.ofText path).name text).result⟩ := by
  intro h
  have hread := h {} tildeTree "~a.sql" brokenScript (encodeFile brokenScript) rfl (.inl rfl)
    (by decide)
  have hrefused : readPath {} tildeTree "~a.sql" = Logged.fail (.file .unknownHome) := rfl
  rw [hrefused] at hread
  exact List.cons_ne_nil _ _ (congrArg Logged.records hread).symm

end TableDdl.Script
