/-! What the command line asks for. -/

namespace BracketLint

structure Arguments where
  input : String
  config : Option String
  logLevel : String
  deriving DecidableEq

end BracketLint
