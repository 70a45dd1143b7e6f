import Scriptlet.Program.Parse
import Scriptlet.Token.Scan

/-! # Programs

A program is a list of statements, read from a text. -/

namespace Scriptlet.Program

/-- How deeply a program may be nested, in its text and in its tree. -/
def nestingLimit : Nat := 2000

/-- Reads a program from a text. The string literals get handles from the given one on, and the
next free handle is `firstHandle + source.length`. -/
def ofSource (limit : Nat) (filename : Option String) (firstHandle : Nat) (source : String) :
    Except Rejection (List Stmt) :=
  let scanned := Token.scan source
  match ofLexemes ⟨filename, firstHandle⟩ limit scanned.1 with
  | .ok program => .ok program
  | .error fault => .error ⟨fault, filename, scanned.2⟩

end Scriptlet.Program
