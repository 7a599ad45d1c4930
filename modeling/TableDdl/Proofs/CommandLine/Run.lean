import TableDdl.CommandLine.Run
import TableDdl.Proofs.Script.Failures
import TableDdl.Proofs.Script.File
import TableDdl.Proofs.Text.Display

/-!
# Exit codes

A run that asks for the tables of a script file ends in one of three ways:

* with code 0, and nothing is reported;
* with code 1, and one line is reported, which shows where the grammar stopped;
* with an error that is not reported, where the path of the file cannot be followed, the bytes of
  the file are no text, or the reading stops at an integer of more digits than can be read.

The settings choose the dialect and have no other part in it: every text is taken for settings
(`request_parseArguments`).
-/

namespace TableDdl.CommandLine

open Text

/-! ## Arguments -/

/-- An option and its value in one word.  So the value may begin with a hyphen. -/
def Flag.setting (f : Flag) (value : String) : String := f.name ++ "=" ++ value

theorem Flag.toList_setting (f : Flag) (value : String) :
    (f.setting value).toList = f.name.toList ++ '=' :: value.toList := by
  rw [setting, String.toList_append, String.toList_append, List.append_assoc]
  rfl

/-- An argument is split at its first equals sign. -/
theorem splitAtEquals_append {name : List Char} (h : '=' ∉ name) (value : List Char) :
    splitAtEquals (name ++ '=' :: value) = (name, some value) := by
  have hname : ∀ c ∈ name, (c != '=') = true := by
    intro c hc
    rw [bne_iff_ne]
    intro heq
    exact h (heq ▸ hc)
  have hstop : ('=' != '=') = false := by decide
  rw [splitAtEquals, List.dropWhile_append_of_pos hname, List.takeWhile_append_of_pos hname,
    List.dropWhile_cons, List.takeWhile_cons, hstop, if_neg Bool.false_ne_true,
    if_neg Bool.false_ne_true, List.append_nil]

/-- The setting of a flag is classified as that flag, whatever its value. -/
theorem classify_setting (f : Flag) (value : String) :
    classify (f.setting value) = .ok (.flag f (some value)) := by
  have hfind : longNames.find? (fun long => long.text.toList == f.name.toList) =
      some (.flag f) := by
    cases f <;> decide
  have hlong : longWord (f.setting value).toList = .ok (some (.flag f (some value))) := by
    have hname : '=' ∉ f.name.toList := by cases f <;> decide
    rw [longWord, f.toList_setting, splitAtEquals_append hname]
    simp only [hfind, Option.map_some, String.ofList_toList]
    rfl
  -- only a word that goes on with a second hyphen is looked up as a long name
  obtain ⟨rest, hrest⟩ : ∃ rest, (f.setting value).toList = '-' :: '-' :: rest := by
    rw [f.toList_setting]
    cases f <;> exact ⟨_, rfl⟩
  rw [hrest] at hlong
  rw [classify, hrest]
  exact congrArg (Except.map _) hlong

theorem classifyAll_setting (f : Flag) (value : String) (rest : List String) :
    classifyAll (f.setting value :: rest) =
      (classifyAll rest).map ((f.setting value, .flag f (some value)) :: ·) := by
  have hne : f.setting value ≠ "--" := by
    intro heq
    have hmem : '=' ∈ "--".toList := by
      rw [← heq, f.toList_setting]
      simp
    exact absurd hmem (by decide)
  rw [classifyAll, if_neg hne, classify_setting]
  cases classifyAll rest <;> rfl

/-- The arguments that ask for the tables of a script under some settings. -/
def parseArguments (path options : String) : List String :=
  [Flag.ddlFile.setting path, Flag.options.setting options, Flag.operation.setting "parse-ddl"]

/-- Whatever the settings are, they are accepted. -/
theorem request_parseArguments (path options : String) :
    request (parseArguments path options) =
      .ok ⟨path, none, Settings.ofText options, .parseDdl⟩ := by
  rw [request, parseArguments, classifyAll_setting, classifyAll_setting, classifyAll_setting]
  rfl

/-! ## Reports -/

theorem Run.toList_report (r : Run) :
    r.report.toList = r.events.flatMap fun e => e.reportText.toList := by
  rw [report, String.toList_join, List.flatMap_map]

/-- What is printed and logged is not reported. -/
theorem Run.report_append {front : List Event} (hfront : ∀ e ∈ front, e.reportText = "")
    (back : Run) : Run.report ⟨front ++ back.events, back.ending⟩ = back.report := by
  have hnil : (front.flatMap fun e => e.reportText.toList) = [] := by
    rw [List.flatMap_eq_nil_iff]
    intro e he
    rw [hfront e he]
    rfl
  rw [← String.toList_inj, toList_report, toList_report, List.flatMap_append, hnil,
    List.nil_append]

/-- What is done with the result of a reading. -/
def conclude (r : Request) : Except Error Database → Run
  | .ok d => perform r d
  | .error e => abandon e

/-- Only what is done with the result of the reading counts for how a run ends and what it reports.
The lines and records before it are not reported. -/
theorem run_of_result {r : Request} {found : Script.Found} {result : Except Error Database}
    (h : (Script.readFound r.settings.dialect r.ddlFile found).result = result) :
    (run r found).ending = (conclude r result).ending ∧
      (run r found).report = (conclude r result).report := by
  have hfront (records : List Log.Record) :
      ∀ e ∈ Event.output "Parsing ddl...." :: records.map .logged, e.reportText = "" := by
    rw [List.forall_mem_cons, List.forall_mem_map]
    exact ⟨rfl, fun _ _ => rfl⟩
  subst h
  exact ⟨rfl, Run.report_append (hfront _) _⟩

/-- The tables of a script are printed, and nothing is reported. -/
theorem report_perform {r : Request} (hop : r.operation = .parseDdl) (d : Database) :
    (perform r d).report = "" := by
  rw [perform, hop, ← String.toList_inj, Run.toList_report, String.toList_empty,
    List.flatMap_eq_nil_iff]
  intro e he
  obtain ⟨line, -, rfl⟩ := List.mem_map.1 he
  rfl

/-- One line is reported, and no more. -/
def Run.ReportsOneLine (r : Run) : Prop :=
  ∃ line, Unbroken line ∧ r.report.toList = line ++ ['\n']

/-- Where the grammar stops, one line tells so, whatever the text is that was left. -/
theorem reportsOneLine_abandon (remaining : String) :
    (abandon (.unparsed remaining)).ReportsOneLine := by
  have hwords : Unbroken "Error: Could not parse ddl near: ".toList := unbroken_of_all (by decide)
  refine ⟨_, unbroken_append.2 ⟨hwords, unbroken_quoteStart remaining⟩, ?_⟩
  simp [Run.toList_report, abandon, isReported, Error.message, Event.reportText]

/-! ## Endings -/

/-- What a text comes to as the script of a request, where its file has a name. -/
def Request.reading (r : Request) (name : String) (text : List Char) : Except Error Database :=
  (Script.read r.settings.dialect name text).result

/-- The file of a request is a text, and reading it stops at no integer of too many digits. -/
def Request.IsReadable (r : Request) (name : String) (bytes : ByteArray) : Prop :=
  ∃ text, decodeFile bytes = some text ∧ ∀ n, r.reading name text ≠ .error (.overlongInteger n)

/-- Only an overlong integer makes a decoded file unreadable. -/
theorem Request.isReadable_of_not_overlong (r : Request) {name : String} {bytes : ByteArray}
    {text : List Char} (hdecode : decodeFile bytes = some text) (hshort : ¬Overlong text) :
    r.IsReadable name bytes := by
  refine ⟨text, hdecode, fun n hread => ?_⟩
  obtain ⟨remaining, he⟩ := (Script.read_eq_error hread).resolve_right hshort
  cases he

section

variable {t : FileTree} {r : Request} {followed : Path} {bytes : ByteArray}

/-- A path that cannot be followed ends the run with an error that is not reported. -/
theorem ending_of_refused {cause : FileError}
    (h : Path.follow t.homes r.ddlFile = .error cause) :
    (run r (t.script r.ddlFile)).ending = .failed (.file cause) := by
  have hresult : (Script.readFound r.settings.dialect r.ddlFile (.refused cause)).result =
      .error (.file cause) := rfl
  have hreported : isReported (.file cause) = false := by
    rcases Path.follow_eq_error h with rfl | rfl <;> rfl
  rw [FileTree.script_of_refused h, (run_of_result hresult).1, conclude, abandon, hreported]
  rfl

/-- A file that is not readable ends the run with an error that is not reported. -/
theorem ending_of_not_isReadable (hfollow : Path.follow t.homes r.ddlFile = .ok followed)
    (hfile : t.readBytes followed.text = .ok bytes) (h : ¬r.IsReadable followed.name bytes) :
    ∃ e, (run r (t.script r.ddlFile)).ending = .failed e := by
  have hscript := FileTree.script_of_readBytes hfollow hfile
  cases hdecode : decodeFile bytes with
  | none =>
      rw [hdecode] at hscript
      rw [hscript]
      exact ⟨.file .notText, rfl⟩
  | some text =>
      rw [hdecode] at hscript
      obtain ⟨n, hread⟩ : ∃ n, r.reading followed.name text = .error (.overlongInteger n) := by
        by_contra hnone
        exact h ⟨text, hdecode, fun n hread => hnone ⟨n, hread⟩⟩
      rw [hscript]
      exact ⟨_, (run_of_result ((Script.result_readFound _ _ _ text).trans hread)).1⟩

/-- A readable file ends the run with its tables, or with one line about what was left of it. -/
theorem ending_of_isReadable (hop : r.operation = .parseDdl)
    (hfollow : Path.follow t.homes r.ddlFile = .ok followed)
    (hfile : t.readBytes followed.text = .ok bytes) (h : r.IsReadable followed.name bytes) :
    ((run r (t.script r.ddlFile)).ending = .exit 0 ∧ (run r (t.script r.ddlFile)).report = "") ∨
      ((run r (t.script r.ddlFile)).ending = .exit 1 ∧
        (run r (t.script r.ddlFile)).ReportsOneLine) := by
  obtain ⟨text, hdecode, hshort⟩ := h
  have hscript := FileTree.script_of_readBytes hfollow hfile
  rw [hdecode] at hscript
  have hreading : (Script.readFound r.settings.dialect r.ddlFile
      (.file followed.name (.ok text))).result = r.reading followed.name text :=
    Script.result_readFound _ _ _ text
  rw [hscript, Run.ReportsOneLine]
  cases hread : r.reading followed.name text with
  | ok d =>
      obtain ⟨hending, hreport⟩ := run_of_result (hreading.trans hread)
      rw [hending, hreport]
      refine .inl ⟨?_, report_perform hop d⟩
      rw [conclude, perform, hop]
  | error e =>
      obtain ⟨hending, hreport⟩ := run_of_result (hreading.trans hread)
      rw [hending, hreport]
      obtain ⟨remaining, rfl⟩ | ⟨n, rfl, -⟩ := Script.error_cases hread
      · exact .inr ⟨rfl, reportsOneLine_abandon remaining⟩
      · exact absurd hread (hshort n)

/-- **Exit codes**: every text is taken for settings.  Under any settings the run that asks for the
tables of a script file ends with an error where the path of the file cannot be followed.  Where the
path leads to a file, the run ends with a code just if the file is readable, as it is where its
bytes are a text without overlong integers.  The code is 0, and nothing is reported, or it is 1, and
one line is. -/
theorem exit_of_readBytes (hop : r.operation = .parseDdl) :
    (∀ options, request (parseArguments r.ddlFile options) =
      .ok ⟨r.ddlFile, none, Settings.ofText options, .parseDdl⟩) ∧
    (∀ cause, Path.follow t.homes r.ddlFile = .error cause →
      ((run r (t.script r.ddlFile)).ending.finish t).2 = .error (.file cause)) ∧
    ∀ followed bytes, Path.follow t.homes r.ddlFile = .ok followed →
      t.readBytes followed.text = .ok bytes →
      ((∃ code, ((run r (t.script r.ddlFile)).ending.finish t).2 = .ok code) ↔
        r.IsReadable followed.name bytes) ∧
      (∀ text, decodeFile bytes = some text → ¬Overlong text →
        r.IsReadable followed.name bytes) ∧
      ∀ code, ((run r (t.script r.ddlFile)).ending.finish t).2 = .ok code →
        (code = 0 ∧ (run r (t.script r.ddlFile)).report = "") ∨
          (code = 1 ∧ (run r (t.script r.ddlFile)).ReportsOneLine) := by
  refine ⟨request_parseArguments r.ddlFile, fun cause hcause => ?_,
    fun followed bytes hfollow hfile => ?_⟩
  · rw [ending_of_refused hcause]
    rfl
  · have hcode : ∀ code, ((run r (t.script r.ddlFile)).ending.finish t).2 = .ok code →
        r.IsReadable followed.name bytes := by
      intro code hcode
      by_contra h
      obtain ⟨e, he⟩ := ending_of_not_isReadable hfollow hfile h
      rw [he] at hcode
      cases hcode
    refine ⟨⟨fun ⟨code, h⟩ => hcode code h, fun h => ?_⟩,
      fun text => r.isReadable_of_not_overlong, fun code h => ?_⟩
    · obtain ⟨he, -⟩ | ⟨he, -⟩ := ending_of_isReadable hop hfollow hfile h
      · exact ⟨0, by rw [he]; rfl⟩
      · exact ⟨1, by rw [he]; rfl⟩
    · obtain ⟨he, hreport⟩ | ⟨he, hreport⟩ :=
        ending_of_isReadable hop hfollow hfile (hcode code h)
      · rw [he] at h
        exact .inl ⟨(Except.ok.inj h).symm, hreport⟩
      · rw [he] at h
        exact .inr ⟨(Except.ok.inj h).symm, hreport⟩

end

/-- A script that stops in a string, within which there is a line separator. -/
def tornTree : FileTree where
  entries := [(["t.sql"], .file (encodeFile "CREATE TABLE t ('x\u2028y".toList))]

/-- What is asked for where `-x` is given for the settings. -/
def tornRequest : Request := ⟨"t.sql", none, Settings.ofText "-x", .parseDdl⟩

theorem exit_of_readBytes_tornTree :
    request (parseArguments "t.sql" "-x") = .ok tornRequest ∧
      ((run tornRequest (tornTree.script "t.sql")).ending.finish tornTree).2 = .ok 1 ∧
      (run tornRequest (tornTree.script "t.sql")).ReportsOneLine := by
  have hfollow : Path.follow tornTree.homes "t.sql" = .ok ⟨[], ["t.sql".toList]⟩ := rfl
  have hfile : tornTree.readBytes (Path.text ⟨[], ["t.sql".toList]⟩) =
      .ok (encodeFile "CREATE TABLE t ('x\u2028y".toList) := rfl
  have hcode : ((run tornRequest (tornTree.script "t.sql")).ending.finish tornTree).2 = .ok 1 := by
    decide +kernel
  obtain ⟨haccepted, -, hends⟩ := exit_of_readBytes (t := tornTree) (r := tornRequest) rfl
  obtain ⟨-, -, hends⟩ := hends _ _ hfollow hfile
  obtain ⟨hzero, -⟩ | ⟨-, hline⟩ := hends 1 hcode
  · cases hzero
  · exact ⟨haccepted "-x", hcode, hline⟩

/-- The line shows the line feed that cleaning has put in the place of the separator. -/
example : (run tornRequest (tornTree.script "t.sql")).report =
    "Error: Could not parse ddl near: \"'x\\ny\"\n" := by decide +kernel

/-- A file that is no text. -/
def damagedTree : FileTree where
  entries := [(["t.sql"], .file ⟨#[0xFF]⟩)]

/-- Not every file is readable, so a run may end without a code. -/
theorem not_forall_exit :
    ¬∀ (t : FileTree) (path options : String) (bytes : ByteArray) (r : Request),
      t.readBytes path = .ok bytes →
      request (parseArguments path options) = .ok r →
        ∃ code, ((run r (t.script path)).ending.finish t).2 = .ok code ∧
          (code = 0 ∨ code = 1 ∧ (run r (t.script path)).ReportsOneLine) := by
  intro h
  obtain ⟨code, hcode, -⟩ :=
    h damagedTree "t.sql" "-x" ⟨#[0xFF]⟩ tornRequest rfl (request_parseArguments "t.sql" "-x")
  have hfailed : ((run tornRequest (damagedTree.script "t.sql")).ending.finish damagedTree).2 =
      .error (.file .notText) := by decide +kernel
  rw [hfailed] at hcode
  cases hcode

end TableDdl.CommandLine
