/-! # Colour codes

A colour code is an escape character, an opening bracket, parameters and a final letter. Output
meant for a plain stream has such codes removed, in one pass over each text that is written. -/

namespace Scriptlet.Text

/-- The characters behind a code whose parameters start here, if there is one. -/
def codeEnd? (isParameter isFinal : Char → Bool) : List Char → Option (List Char)
  | [] => none
  | c :: rest =>
    if isFinal c then some rest
    else if isParameter c then codeEnd? isParameter isFinal rest
    else none

/-- What follows a code is shorter than the text of its parameters. -/
theorem length_lt_of_codeEnd? {isParameter isFinal : Char → Bool} {text rest : List Char}
    (h : codeEnd? isParameter isFinal text = some rest) : rest.length < text.length := by
  induction text with
  | nil => simp [codeEnd?] at h
  | cons c text ih =>
    simp only [codeEnd?] at h
    split at h
    · cases h; simp
    · split at h
      · have := ih h; simp; omega
      · cases h

/-- Removes every complete code, reading from left to right and never looking back. -/
def stripCodes (isParameter isFinal : Char → Bool) : List Char → List Char
  | [] => []
  | [c] => [c]
  | first :: second :: rest =>
    if first = '\x1b' && second = '[' then
      match h : codeEnd? isParameter isFinal rest with
      | some after =>
        have := length_lt_of_codeEnd? h
        stripCodes isParameter isFinal after
      | none => first :: stripCodes isParameter isFinal (second :: rest)
    else first :: stripCodes isParameter isFinal (second :: rest)
termination_by text => text.length

/-- The text without its colour codes: parameters are digits and semicolons, the letter is `m`. -/
def stripColour (text : String) : String :=
  String.ofList (stripCodes (fun c => c.isDigit || c == ';') (· == 'm') text.toList)

/-- The text without any terminal code: the letter may be any, and `?` is a parameter too. -/
def stripTerminalCodes (text : String) : String :=
  String.ofList
    (stripCodes (fun c => c.isDigit || c == ';' || c == '?') (·.isAlpha) text.toList)

/-- Ends every colour. -/
def reset : String := "\x1b[0m"

/-- Writes a text in white. -/
def white (text : String) : String := "\x1b[97m" ++ text ++ reset

/-- Writes a text in bold white. -/
def boldWhite (text : String) : String := "\x1b[1;97m" ++ text ++ reset

/-- Writes a text in grey. -/
def grey (text : String) : String := "\x1b[90m" ++ text ++ reset

/-- Writes a text in cyan. -/
def cyan (text : String) : String := "\x1b[36m" ++ text ++ reset

/-- Writes a text in yellow. -/
def yellow (text : String) : String := "\x1b[33m" ++ text ++ reset

/-- Writes a text in black on yellow. -/
def banner (text : String) : String := "\x1b[30;43m" ++ text ++ reset

/-- Writes a text in bold white on teal. -/
def marked (text : String) : String := "\x1b[48;5;30m\x1b[1;97m" ++ text ++ reset

/-- Writes a text in white on teal. -/
def heading (text : String) : String := "\x1b[97m\x1b[48;5;30m" ++ text ++ reset

end Scriptlet.Text
