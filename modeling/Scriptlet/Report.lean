import Scriptlet.Excerpt
import Scriptlet.Session

/-! # Reports

How problems are told to the user: a banner with the class of the problem, a sentence about it, the
name of the problem, and an excerpt of the source. -/

namespace Scriptlet

/-- A problem as it is told to the user. -/
inductive Problem where
  /-- The text is no program; if it is only incomplete, more text could follow. -/
  | unreadable (isIncomplete : Bool) (line column : Int) (token message : String)
  /-- An operator or statement was given a value of the wrong kind. -/
  | wrongKind (token : Option String) (place : Option Position) (message : String)
  /-- An assignment has no name on its left side. -/
  | wrongTarget (token : Option String) (place : Option Position) (message : String)
  /-- A form has no meaning. -/
  | unsupported (token : Option String) (place : Option Position) (message : String)
  /-- A text or tree is nested too deeply. -/
  | tooDeep (message : String)
  /-- Something else went wrong, known by its name only. -/
  | other (name : String) (token : Option String) (place : Option Position)
  deriving Repr, DecidableEq

namespace Problem

/-- The name of a problem. -/
def name : Problem → String
  | .unreadable true .. => "LumenIncompleteParse"
  | .unreadable false .. => "LumenParseError"
  | .wrongKind .. => "LumenTypeError"
  | .wrongTarget .. => "LumenAssignmentError"
  | .unsupported .. => "LumenUnsupportedFeature"
  | .tooDeep _ => "LumenRecursionError"
  | .other name .. => name

/-- Whether more text could solve the problem. -/
def isIncomplete : Problem → Bool
  | .unreadable isIncomplete .. => isIncomplete
  | _ => false

/-- The problem of a text that is no program. -/
def ofRejection (rejection : Rejection) : Problem :=
  let place := rejection.place
  match rejection.fault with
  | .unexpected .. => .unreadable false place.line place.column rejection.token rejection.message
  | .incomplete _ => .unreadable true place.line place.column rejection.token rejection.message
  | .unsupported _ => .unsupported (some rejection.token) (some place) rejection.message
  | .tooDeep => .tooDeep rejection.message

/-- The problem of a fault. -/
def ofFault (fault : Fault) : Problem :=
  match fault.cause.family with
  | .kinds => .wrongKind fault.cause.token? fault.place fault.cause.message
  | .assignment => .wrongTarget fault.cause.token? fault.place fault.cause.message
  | .unsupported => .unsupported fault.cause.token? fault.place fault.cause.message

/-- What is said when a tree is nested too deeply. -/
def tooDeepMessage : String := "Program is nested too deeply to evaluate."

/-- What is said when a tree with gaps was to be written. -/
def gapMessage : String := "Cannot format " ++ Expr.absent.form ++ "."

/-- What is said when a gap was to be evaluated, executed or assigned to. -/
def absentMessage : String := "'" ++ Expr.absent.form ++ "' object has no attribute 'meta'"

/-- What is said when a text is not a single expression. -/
def notOneExpressionMessage : String := "Expected exactly one expression."

/-- The name of a breakdown. -/
def breakdownName : Breakdown → String
  | .zeroDivisor => "ZeroDivisionError"
  | .domain | .notANumber => "ValueError"
  | .infinite => "OverflowError"
  | .unlisted _ => "KeyError"

/-- The problem of a failed request; a program that ended itself is none. -/
def ofFailure? : Failure → Option Problem
  | .rejected rejection => some (ofRejection rejection)
  | .notOneExpression source =>
    some (.unreadable false 1 1 (Text.trim source) notOneExpressionMessage)
  | .halted (.failed fault) => some (ofFault fault)
  | .halted (.ended ..) => none
  | .halted (.broken breakdown) => some (.other (breakdownName breakdown) none none)
  | .halted .tooDeep => some (.tooDeep tooDeepMessage)
  | .halted .gap => some (.other "NotImplementedError" none none)
  | .halted .absent => some (.other "AttributeError" none none)
  | .unbound (.unsupported ..) => some (.other "TypeError" none none)
  | .unbound .overflow => some (.other "OverflowError" none none)

/-- A sentence on one line: newlines and tabs become spaces. -/
def oneLine (message : String) : String :=
  String.ofList (message.toList.map fun c => if c = '\n' ∨ c = '\t' then ' ' else c)

/-- The name of a problem in parentheses. -/
def nameTag (name : String) : String :=
  " (Exception: " ++ Text.yellow name ++ ")"

/-- A banner, a sentence and the name of the problem, above an excerpt. -/
def framed (title sentence name context : String) : String :=
  Text.banner (" " ++ title ++ " ") ++ " " ++ sentence ++ nameTag name ++ "\n" ++ context ++ "\n"

/-- An operator that cannot be applied, in a sentence. -/
def operatorSentence (token : Option String) (filename message : String) : String :=
  "Operator `" ++ Text.boldWhite (Excerpt.orNone token) ++ "` from `" ++ Text.white filename
    ++ "` cannot be applied: " ++ message

/-- The texts that tell a problem of a source, one for each time something is written. -/
def report (problem : Problem) (filename source : String) : List String :=
  match problem with
  | .unreadable _ line column token message =>
    [framed "SYNTAX ERROR." ("Parsing `" ++ Text.white filename ++ "` caused a problem!")
      problem.name
      (Excerpt.ofToken (some filename) line column token (Text.printedLines source)
        ++ "\n" ++ Text.grey (oneLine message) ++ "\n")]
  | .wrongKind token place message | .wrongTarget token place message =>
    [framed "TYPE ERROR." (operatorSentence token filename message) problem.name
      ("\n" ++ Excerpt.ofPosition place token (some source))]
  | .unsupported token place message =>
    [framed "UNSUPPORTED FEATURE." message problem.name
      ("\n" ++ Excerpt.ofPosition place token (some source))]
  | .tooDeep message =>
    [framed "RECURSION ERROR."
      (message ++ " Reduce the nesting of `" ++ Text.white filename ++ "`.") problem.name ""]
  | .other name token place =>
    -- without a token the whole statement is named
    let culprit := match token with
      | none | some "" => "<statement>"
      | some token => token
    [Text.banner " RUNTIME ERROR. " ++ " Evaluating `" ++ Text.white filename
        ++ "` caused an error in interpret!" ++ nameTag name ++ "\n"]
      ++ (if place.isSome then
          [Excerpt.ofPosition place (some culprit) (some source) ++ "\n"] else [])
      ++ ["NoneType: None\n"]

end Problem

end Scriptlet
