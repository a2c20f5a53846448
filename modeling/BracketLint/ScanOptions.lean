/-! What a scan looks at: whether string literals count, and what starts a comment. -/

namespace BracketLint

structure ScanOptions where
  strings : Bool := true
  lineComment : Option String := some "//"
  deriving DecidableEq

/-- The characters that start a comment. There are no comments when it is empty. -/
def ScanOptions.mark (o : ScanOptions) : List Char := (o.lineComment.getD "").toList

end BracketLint
