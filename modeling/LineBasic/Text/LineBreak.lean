/-
  LineBasic.Text.LineBreak

  Line breaks of every convention and the lines of a text between them; the lines of typed input,
  which only line feeds divide; and the reduction of carriage returns to line feeds that reading a
  file performs.
-/

namespace LineBasic.Text

/-- Line feed, vertical tab, form feed, carriage return, the three information separators, next
    line, line separator and paragraph separator. -/
def isLineBreak (c : Char) : Bool :=
  (0x0A ≤ c.toNat && c.toNat ≤ 0x0D) || (0x1C ≤ c.toNat && c.toNat ≤ 0x1E) ||
    c.toNat == 0x85 || c.toNat == 0x2028 || c.toNat == 0x2029

/-- The lines of `pending` (held backwards) followed by the text. -/
def splitLinesFrom (pending : List Char) : List Char → List (List Char)
  | [] => if pending.isEmpty then [] else [pending.reverse]
  | '\r' :: '\n' :: rest => pending.reverse :: splitLinesFrom [] rest
  | c :: rest =>
    if isLineBreak c then pending.reverse :: splitLinesFrom [] rest
    else splitLinesFrom (c :: pending) rest

/-- The lines of a text. A carriage return with a line feed is one break, and a break at the very
    end opens no further line. -/
def splitLines (s : List Char) : List (List Char) :=
  splitLinesFrom [] s

/-- The pieces of `pending` (held backwards) followed by the text, cut at line feeds. -/
def splitFeedsFrom (pending : List Char) : List Char → List (List Char)
  | [] => if pending.isEmpty then [] else [pending.reverse]
  | c :: rest =>
    if c = '\n' then pending.reverse :: splitFeedsFrom [] rest
    else splitFeedsFrom (c :: pending) rest

/-- The lines of typed input: only a line feed ends one, and one at the very end opens no further
    line. -/
def splitFeeds (s : List Char) : List (List Char) :=
  splitFeedsFrom [] s

/-- `done` (held backwards) followed by the text, with its carriage returns turned into line
    feeds. -/
def unifyNewlinesFrom (done : List Char) : List Char → List Char
  | [] => done.reverse
  | '\r' :: '\n' :: rest => unifyNewlinesFrom ('\n' :: done) rest
  | c :: rest => unifyNewlinesFrom ((if c = '\r' then '\n' else c) :: done) rest

/-- The text with each carriage return, alone or before a line feed, turned into one line feed. -/
def unifyNewlines (s : List Char) : List Char :=
  unifyNewlinesFrom [] s

end LineBasic.Text
