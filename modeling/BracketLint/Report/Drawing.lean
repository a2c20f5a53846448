import BracketLint.Report.Excerpt
import BracketLint.Report.Theme
import BracketLint.Text.ColumnWidth

/-! Reports drawn over several lines: messages with a mark in front, and excerpts of a source
with line numbers and a pointer at the place in question. -/

namespace BracketLint.Drawing

def blanks (n : Nat) : List Char := List.replicate n ' '

/-- The text without blanks at its end. -/
def trimEnd (line : List Char) : List Char := (line.reverse.dropWhile (· == ' ')).reverse

/-- The lines of a text, between its newlines. -/
def splitLines : List Char → List (List Char)
  | [] => [[]]
  | c :: rest =>
    if c = '\n' then [] :: splitLines rest
    else match splitLines rest with
      | [] => [[c]]
      | l :: ls => (c :: l) :: ls

def line (text : List Char) : List Char := text ++ ['\n']

/-- The lines of a text, the first one after `mark` and the others after `margin`. Lines are not
broken, however long they are. -/
def message (mark margin text : List Char) : List Char :=
  match splitLines text with
  | [] => []
  | l :: ls => line (mark ++ trimEnd l) ++ ls.flatMap fun l => line (margin ++ trimEnd l)

def headline (theme : Theme) (text : List Char) : List Char :=
  message [' ', ' ', theme.error, ' '] [' ', ' ', theme.vertical, ' '] text

def decimal (n : Nat) : List Char := (toString n).toList

/-- A number with blanks in front of it. -/
def paddedNumber (width n : Nat) : List Char :=
  let ds := decimal n
  blanks (width - ds.length) ++ ds

/-- The whole characters at the start of a text that take at most so many bytes. -/
def takeBytes (bytes : Nat) : List Char → List Char
  | [] => []
  | c :: rest =>
    if c.utf8Size ≤ bytes then c :: takeBytes (bytes - c.utf8Size) rest else []

/-- How far to the right of a line's start the byte `offset` of it is shown. The last byte of
an end of line is one column past the text. -/
def pointerColumn (text : List Char) (offset : Nat) : Nat :=
  let past := if Utf8.byteLength text < offset then 1 else 0
  ColumnWidth.ofLine (takeBytes offset text) + past

/-- A line of the source after its number, and a pointer below it if the position is on it. -/
def numbered (theme : Theme) (width position : Nat) (l : ExcerptLine) : List Char :=
  let shown := line ([' '] ++ paddedNumber width l.number ++ [' ', theme.vertical, ' '] ++
    ColumnWidth.shown l.text)
  if l.start ≤ position ∧ position < l.start + l.length then
    shown ++ line ([' '] ++ blanks width ++ [' ', theme.gap, ' '] ++
      blanks (pointerColumn l.text (position - l.start)) ++ [theme.pointer])
  else shown

/-- The place in the frame of an excerpt of more than one line. -/
def place (source : List UInt8) (position : Nat) : List Char :=
  match Excerpt.around? source position 0 with
  | none => []
  | some x => ['['] ++ decimal (x.line + 1) ++ [':'] ++ decimal (x.column + 1) ++ [']']

/-- A message and the excerpt of a source that it is about. -/
def excerpt (theme : Theme) (source : String) (text : List Char) (position : Nat) :
    List Char :=
  let bytes := Utf8.encode source.toList
  headline theme text ++
    match Excerpt.around? bytes position 1 with
    | none =>
      line ("  [Failed to read contents for label \x60<none>\x60 (offset: ".toList ++
        decimal position ++ ", length: 0): OutOfBounds]".toList)
    | some x =>
      let lines := ExcerptLine.split x.line x.start x.start [] (x.text bytes)
      let width := (decimal ((lines.getLast?.map (·.number)).getD 0)).length
      let corner := blanks (width + 2) ++ [theme.topLeft, theme.horizontal]
      let frame := if 1 < lines.length then place bytes position
        else List.replicate 3 theme.horizontal
      line (corner ++ frame) ++ lines.flatMap (numbered theme width position) ++
        line (blanks (width + 2) ++ [theme.bottomLeft] ++ List.replicate 4 theme.horizontal)

/-- An error that is not about a place: its code, its message, and the message below it. -/
def error (theme : Theme) (code cause : Option String) (text : List Char) : List Char :=
  let codeLines := match code with
    | none => []
    | some c => line c.toList ++ line []
  let causeLines := match cause with
    | none => []
    | some c =>
      message ([' ', ' ', theme.bottomLeft, theme.horizontal, theme.arrow, ' ']) (blanks 6)
        c.toList
  codeLines ++ headline theme text ++ causeLines

theorem splitLines_ne_nil (text : List Char) : splitLines text ≠ [] := by
  cases text with
  | nil => simp [splitLines]
  | cons c rest =>
    by_cases hc : c = '\n'
    · simp [splitLines, hc]
    · simp only [splitLines, if_neg hc]
      split <;> simp

theorem newline_mem_message (mark margin text : List Char) : '\n' ∈ message mark margin text := by
  obtain ⟨l, ls, hl⟩ := List.exists_cons_of_ne_nil (splitLines_ne_nil text)
  simp [message, hl, line]

theorem newline_mem_excerpt (theme : Theme) (source : String) (text : List Char) (position : Nat) :
    '\n' ∈ excerpt theme source text position :=
  List.mem_append_left _ (newline_mem_message ..)

theorem newline_mem_error (theme : Theme) (code cause : Option String) (text : List Char) :
    '\n' ∈ error theme code cause text := by
  have hm : '\n' ∈ headline theme text := newline_mem_message ..
  simp [error, hm]

end BracketLint.Drawing
