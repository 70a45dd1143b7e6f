/-! # Positions

Where a part of a program stands. Positions that come from a text are counted from one; those given
from outside may be any integers, even ones that no text has. -/

namespace Scriptlet

/-- A line and a column of a file. -/
structure Position where
  /-- The name of the file, if it is known. -/
  filename : Option String
  /-- The number of the line. -/
  line : Int
  /-- The number of the column. -/
  column : Int
  deriving Repr, DecidableEq

end Scriptlet
