import WireSchema.Token.Basic

/-! Program text as words and brackets. -/

namespace WireSchema

inductive Code where
  | word (text : String)
  | group (bracket : Bracket) (body : List Code)

namespace Code

def words (text : String) : List Code :=
  (text.toList.splitOn ' ').map fun word => .word (.ofList word)

def round (body : List Code) : Code := .group .round body

def square (body : List Code) : Code := .group .square body

def curly (body : List Code) : Code := .group .curly body

def commaSeparated (pieces : List (List Code)) : List Code :=
  [word ","].intercalate pieces

end Code

mutual

def Code.text : Code → String
  | .word text => text
  | .group .round body => "(" ++ Code.listText body ++ ")"
  | .group .square body => "[" ++ Code.listText body ++ "]"
  | .group .curly [] => "\x7b \x7d"
  | .group .curly (piece :: rest) => "\x7b " ++ Code.listText (piece :: rest) ++ " \x7d"

def Code.listText : List Code → String
  | [] => ""
  | [piece] => piece.text
  | piece :: rest => piece.text ++ " " ++ Code.listText rest

end

end WireSchema
