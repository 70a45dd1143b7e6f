/-! # Fields of a fixed width

Texts are padded with spaces up to a width, and cut at an offset that counts from the end when it
is below zero; lists of texts are joined by a separator. All widths and offsets count characters. -/

namespace Scriptlet.Text

/-- Pads with spaces on the left up to a width. -/
def alignRight (width : Nat) (text : String) : String :=
  String.ofList (List.replicate (width - text.length) ' ') ++ text

/-- Pads with spaces on the right up to a width. -/
def alignLeft (width : Nat) (text : String) : String :=
  text ++ String.ofList (List.replicate (width - text.length) ' ')

/-- The place of an offset in a text of some length: below zero it counts from the end. -/
def place (length : Nat) (offset : Int) : Nat :=
  if offset < 0 then length - offset.natAbs else min offset.toNat length

/-- The text from an offset on. -/
def dropTo (offset : Int) (text : String) : String :=
  String.ofList (text.toList.drop (place text.length offset))

/-- The text up to an offset. -/
def takeTo (offset : Int) (text : String) : String :=
  String.ofList (text.toList.take (place text.length offset))

/-- Whether a text begins with another. -/
def begins (front text : String) : Bool :=
  front.toList.isPrefixOf text.toList

/-- Sets a text between the neighbours of a list of texts. -/
def join (separator : String) : List String → String
  | [] => ""
  | [last] => last
  | first :: rest => first ++ separator ++ join separator rest

/-- Sets a comma between every three digits, read from the right. -/
def groupDigits : List Char → List Char
  | [] => []
  | digit :: rest =>
    if rest.length % 3 = 0 && !rest.isEmpty then digit :: ',' :: groupDigits rest
    else digit :: groupDigits rest

/-- A count with its thousands set apart by commas. -/
def thousands (count : Nat) : String :=
  String.ofList (groupDigits (Nat.toDigits 10 count))

end Scriptlet.Text
