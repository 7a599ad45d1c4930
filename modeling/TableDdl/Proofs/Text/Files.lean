import TableDdl.Proofs.Text.Lines
import TableDdl.Text.Utf8

/-!
# Texts in files

A text that is written to a file and read again is the same text, but for a byte order mark in
front, which is dropped, and for the breaks `\r\n` and `\r`, which are read as `\n`
(`decodeFile_encodeFile`).  A mark that was put in front of the text in the file is dropped in its
place (`decodeFile_markBytes`).  Neither matters to the lines of a text (`lines_unifyBreaks`).
-/

namespace TableDdl.Text

/-! ## Breaks -/

/-- What has been read already only stands in front of what is read next. -/
theorem unifyFrom_append (done more text : List Char) :
    unifyFrom (done ++ more) text = more.reverse ++ unifyFrom done text := by
  fun_induction unifyFrom done text with
  | case1 done => simp [unifyFrom]
  | case2 done rest ih => rw [unifyFrom, ← List.cons_append, ih]
  | case3 done c rest hpair ih => rw [unifyFrom.eq_3 _ _ _ hpair, ← List.cons_append, ih]

/-- The accumulator of the loop stands in front of what it still unifies. -/
theorem unifyFrom_eq (done text : List Char) :
    unifyFrom done text = done.reverse ++ unifyBreaks text :=
  unifyFrom_append [] done text

/-- The two characters of `\r\n` are one line feed. -/
theorem unifyBreaks_pair (rest : List Char) :
    unifyBreaks ('\r' :: '\n' :: rest) = '\n' :: unifyBreaks rest := by
  rw [unifyBreaks, unifyFrom, unifyFrom_eq]
  rfl

/-- A character that is no half of a pair is unified alone. -/
theorem unifyBreaks_cons {c : Char} {rest : List Char} (h : c = '\r' → rest.head? ≠ some '\n') :
    unifyBreaks (c :: rest) = (if c = '\r' then '\n' else c) :: unifyBreaks rest := by
  have hpair : ∀ more, c = '\r' → rest = '\n' :: more → False := by
    rintro more hc rfl
    exact h hc rfl
  rw [unifyBreaks, unifyFrom.eq_3 _ _ _ hpair, unifyFrom_eq]
  rfl

theorem unifyBreaks_append_of_unbroken {l : List Char} (hl : Unbroken l) (rest : List Char) :
    unifyBreaks (l ++ rest) = l ++ unifyBreaks rest := by
  induction l with
  | nil => rfl
  | cons c l ih =>
      obtain ⟨hbreak, hrest⟩ := unbroken_cons.1 hl
      have hc : c ≠ '\r' := by
        intro hc
        rw [hc] at hbreak
        exact absurd hbreak (by decide)
      rw [List.cons_append, unifyBreaks_cons fun h => absurd h hc, if_neg hc, ih hrest,
        List.cons_append]

/-- A break stays one break. -/
theorem unifyBreaks_append_of_breaks {br rest : List Char} (h : Breaks br rest) :
    ∃ x, Breaks [x] (unifyBreaks rest) ∧ unifyBreaks (br ++ rest) = x :: unifyBreaks rest := by
  cases h with
  | pair => exact ⟨'\n', breaks_newline _, unifyBreaks_pair rest⟩
  | @single x rest hx hpair =>
      refine ⟨if x = '\r' then '\n' else x, ?_, unifyBreaks_cons hpair⟩
      split
      · exact breaks_newline _
      · next hne => exact .single hx fun h => absurd h hne

/-- **Breaks**: however the lines of a text are broken, they are the same lines. -/
theorem lines_unifyBreaks (text : List Char) : lines (unifyBreaks text) = lines text := by
  induction text using line_induction with
  | unbroken l hl =>
      have hsame := unifyBreaks_append_of_unbroken hl []
      rw [List.append_nil] at hsame
      rw [hsame]
      simp [unifyBreaks, unifyFrom]
  | line l br rest hl hbr ih =>
      obtain ⟨x, hx, hbreak⟩ := unifyBreaks_append_of_breaks hbr
      rw [unifyBreaks_append_of_unbroken hl, hbreak, ← List.singleton_append,
        lines_append_of_breaks hl hx, lines_append_of_breaks hl hbr, ih]

/-- A byte order mark is no break. -/
theorem dropByteOrderMark_unifyBreaks (text : List Char) :
    dropByteOrderMark (unifyBreaks text) = unifyBreaks (dropByteOrderMark text) := by
  have hfeed : '\n' ≠ byteOrderMark := by decide
  cases text with
  | nil => rfl
  | cons c rest =>
      by_cases hmark : c = byteOrderMark
      · have hreturn : c ≠ '\r' := by
          rw [hmark]
          decide
        rw [unifyBreaks_cons fun h => absurd h hreturn, if_neg hreturn, dropByteOrderMark,
          dropByteOrderMark, if_pos hmark, if_pos hmark]
      · rw [dropByteOrderMark, if_neg hmark]
        -- what stands in front then is a line feed, or the character itself
        by_cases hpair : c = '\r' ∧ rest.head? = some '\n'
        · obtain ⟨rfl, hhead⟩ := hpair
          obtain ⟨more, rfl⟩ := List.head?_eq_some_iff.1 hhead
          rw [unifyBreaks_pair, dropByteOrderMark, if_neg hfeed]
        · rw [unifyBreaks_cons fun h hn => hpair ⟨h, hn⟩, dropByteOrderMark, if_neg]
          split
          · exact hfeed
          · exact hmark

/-! ## Bytes -/

/-- The loop returns what it has gathered and the bytes from its index on. -/
theorem toList_loop (bytes : ByteArray) (i : Nat) (done : List UInt8) :
    ByteArray.toList.loop bytes i done = done.reverse ++ bytes.data.toList.drop i := by
  fun_induction ByteArray.toList.loop bytes i done with
  | case1 i done h ih =>
      have hi : i < bytes.data.toList.length := h
      have hbyte : bytes.get! i = bytes.data.toList[i] := getElem!_pos bytes.data i h
      rw [ih, List.drop_eq_getElem_cons hi, hbyte, List.reverse_cons, List.append_assoc,
        List.singleton_append]
  | case2 i done h =>
      have hi : bytes.data.toList.length ≤ i := Nat.le_of_not_lt h
      rw [List.drop_eq_nil_of_le hi, List.append_nil]

theorem toList_eq (bytes : ByteArray) : bytes.toList = bytes.data.toList := by
  rw [ByteArray.toList, toList_loop]
  rfl

/-- The bytes of a text are a text. -/
theorem fromUTF8?_toUTF8 (s : String) : String.fromUTF8? s.toUTF8 = some s :=
  dif_pos s.isValidUTF8

/-- Bytes that only begin a byte order mark are no text of their own. -/
theorem not_isPartialMark {bytes : ByteArray} {s : String} (h : String.fromUTF8? bytes = some s) :
    isPartialMark bytes = false := by
  rw [Bool.eq_false_iff]
  intro hpart
  rw [isPartialMark, toList_eq, Bool.or_eq_true, beq_iff_eq, beq_iff_eq] at hpart
  have hbytes (l : List UInt8) (hl : bytes.data.toList = l) : bytes = ⟨⟨l⟩⟩ := by
    rw [← hl]
  rcases hpart with hl | hl
  · rw [hbytes _ hl] at h
    have hnone : String.fromUTF8? ⟨⟨[0xEF]⟩⟩ = none := by decide +kernel
    rw [hnone] at h
    cases h
  · rw [hbytes _ hl] at h
    have hnone : String.fromUTF8? ⟨⟨[0xEF, 0xBB]⟩⟩ = none := by decide +kernel
    rw [hnone] at h
    cases h

/-- The bytes of a text are decoded to it, without its byte order mark and with its breaks unified.
-/
theorem decodeFile_toUTF8 (s : String) :
    decodeFile s.toUTF8 = some (unifyBreaks (dropByteOrderMark s.toList)) := by
  rw [decodeFile, not_isPartialMark (fromUTF8?_toUTF8 s), fromUTF8?_toUTF8]
  rfl

/-! ## Files -/

/-- The bytes of a byte order mark. -/
def markBytes : ByteArray := ⟨#[0xEF, 0xBB, 0xBF]⟩

/-- A text that is read from a file has no byte order mark in front. -/
theorem decodeFile_encodeFile (text : List Char) :
    decodeFile (encodeFile text) = some (unifyBreaks (dropByteOrderMark text)) := by
  rw [encodeFile, decodeFile_toUTF8, String.toList_ofList]

/-- The bytes of the mark in front are those of a text with the mark in front. -/
theorem markBytes_append_encodeFile (text : List Char) :
    markBytes ++ encodeFile text = encodeFile (byteOrderMark :: text) := by
  have hmark : (String.ofList [byteOrderMark]).toUTF8 = markBytes := by decide +kernel
  rw [encodeFile, encodeFile, ← List.singleton_append, String.ofList_append, ← hmark]
  exact (String.toByteArray_append ..).symm

/-- A mark in front of a text is dropped, and no further one. -/
theorem decodeFile_markBytes (text : List Char) :
    decodeFile (markBytes ++ encodeFile text) = some (unifyBreaks text) := by
  rw [markBytes_append_encodeFile, decodeFile_encodeFile]
  rfl

end TableDdl.Text
