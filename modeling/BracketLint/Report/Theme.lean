/-! The characters that reports are drawn with. -/

namespace BracketLint

structure Theme where
  horizontal : Char
  vertical : Char
  /-- Stands for the vertical line beside a line that is not of the source. -/
  gap : Char
  pointer : Char
  topLeft : Char
  bottomLeft : Char
  error : Char
  arrow : Char

namespace Theme

def unicode : Theme := ⟨'─', '│', '·', '▲', '╭', '╰', '×', '▶'⟩

def ascii : Theme := ⟨'-', '|', ':', '^', ',', '\x60', 'x', '>'⟩

end Theme

end BracketLint
