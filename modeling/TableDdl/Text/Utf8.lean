import TableDdl.Text.Lines

/-!
# Text files

A text file holds strict UTF-8: surrogates, overlong forms and truncated sequences make it
unreadable.  One byte order mark in front is not part of the text, and the breaks `\r\n` and `\r`
are read as `\n`.
-/

namespace TableDdl.Text

/-- U+FEFF, the mark that may stand before a text. -/
def byteOrderMark : Char := '\uFEFF'

/-- `text` without one byte order mark in front. -/
def dropByteOrderMark : List Char → List Char
  | [] => []
  | c :: rest => if c = byteOrderMark then rest else c :: rest

/-- Bytes that only begin the encoded byte order mark.  A file of no other bytes is read as empty:
the mark is still awaited when the file ends. -/
def isPartialMark (bytes : ByteArray) : Bool :=
  bytes.toList == [0xEF] || bytes.toList == [0xEF, 0xBB]

/-- The text in the bytes of a file, unless they are no UTF-8. -/
def decodeFile (bytes : ByteArray) : Option (List Char) :=
  if isPartialMark bytes then some []
  else (String.fromUTF8? bytes).map fun text => unifyBreaks (dropByteOrderMark text.toList)

/-- The bytes of a file that holds `text`, breaks unchanged. -/
def encodeFile (text : List Char) : ByteArray :=
  (String.ofList text).toUTF8

end TableDdl.Text
