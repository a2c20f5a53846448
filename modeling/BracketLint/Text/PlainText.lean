import BracketLint.Text.Utf8

/-! Text for a reader that is no terminal: control sequences are left out whole, and so are
other control characters that are not white space. -/

namespace BracketLint.PlainText

/-- Where a terminal stands in a control sequence. -/
inductive State where
  /-- In none. -/
  | ground
  | escape
  /-- After an escape and signs that a letter still has to follow. -/
  | escapeIntermediate
  /-- In the parameters of a function that one letter names. -/
  | function
  /-- Before the letter of a device function, whose data is a string. -/
  | device
  | deviceParameter
  | deviceIntermediate
  /-- In a string that a terminator ends. -/
  | string
  /-- In a string that a bell ends. -/
  | command
  deriving DecidableEq

/-- A code point from `low` to `high`. -/
def isIn (low high : Nat) (c : Char) : Bool := low ≤ c.toNat && c.toNat ≤ high

/-- Controls that lay out text. -/
def isLayout (c : Char) : Bool := c == '\t' || c == '\n' || c == '\x0c' || c == '\r'

namespace State

/-- What follows an escape. -/
def afterEscape (c : Char) : State :=
  if c = '[' then function
  else if c = ']' then command
  else if c = 'P' then device
  else if c = 'X' ∨ c = '^' ∨ c = '_' then string
  else if isIn 0x20 0x2F c then escapeIntermediate
  else if isIn 0x30 0x7E c then ground
  else escape

def afterDevice (c : Char) : State :=
  if isIn 0x20 0x2F c then deviceIntermediate
  else if isIn 0x30 0x3F c then deviceParameter
  else if isIn 0x40 0x7E c then string
  else device

def afterDeviceParameter (c : Char) : State :=
  if isIn 0x20 0x2F c then deviceIntermediate
  else if isIn 0x3C 0x7E c then string
  else deviceParameter

/-- The state after an ASCII character. Two controls cancel any sequence, and an escape starts
another one. -/
def next (s : State) (c : Char) : State :=
  if c = '\x18' ∨ c = '\x1a' then ground
  else if c = '\x1b' then escape
  else match s with
    | ground => ground
    | escape => afterEscape c
    | escapeIntermediate => if isIn 0x30 0x7E c then ground else escapeIntermediate
    | function => if isIn 0x40 0x7E c then ground else function
    | device => afterDevice c
    | deviceParameter => afterDeviceParameter c
    | deviceIntermediate => if isIn 0x30 0x7E c then string else deviceIntermediate
    | string => string
    | command => if c = '\x07' then ground else command

/-- Whether layout controls show within a sequence. They do not within strings. -/
def showsLayout : State → Bool
  | ground | escape | escapeIntermediate | function => true
  | device | deviceParameter | deviceIntermediate | string | command => false

/-- The state after a character beyond ASCII. In its bytes a terminator can occur. -/
def afterWide (s : State) (c : Char) : State :=
  if s = string ∧ (Utf8.encode [c]).contains 0x9C then ground else s

end State

/-- Whether a character can show where there is no sequence. -/
def isVisible (c : Char) : Bool := isIn 0x20 0x7E c || isLayout c

/-- A text from a state on. A layout control that shows suspends a sequence: text is shown up to
the next control, and then the sequence goes on. -/
def stripFrom (s : State) (suspended : Bool) : List Char → List Char
  | [] => []
  | c :: rest =>
    if 0x80 ≤ c.toNat then
      if suspended ∨ s = .ground then c :: stripFrom .ground true rest
      else stripFrom (s.afterWide c) false rest
    else if suspended && isVisible c then c :: stripFrom s true rest
    else if s = .ground ∧ isVisible c ∨ s.showsLayout ∧ isLayout c then c :: stripFrom s true rest
    else stripFrom (s.next c) false rest

theorem stripFrom_ground (suspended : Bool) {text : List Char}
    (h : ∀ c ∈ text, 0x80 ≤ c.toNat ∨ isVisible c = true) :
    stripFrom .ground suspended text = text := by
  induction text generalizing suspended with
  | nil => rfl
  | cons c rest ih =>
    have hrest := ih true fun d hd => h d (List.mem_cons_of_mem c hd)
    rcases h c List.mem_cons_self with hc | hc <;> simp [stripFrom, hc, hrest]

def strip (text : String) : String := String.ofList (stripFrom .ground false text.toList)

/-- A text without control characters is shown whole. -/
theorem strip_of_visible {text : String}
    (h : ∀ c ∈ text.toList, 0x80 ≤ c.toNat ∨ isVisible c = true) : strip text = text := by
  rw [strip, stripFrom_ground false h, String.ofList_toList]

end BracketLint.PlainText
