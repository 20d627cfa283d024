import Closedness.Json.Token

/-!
# Reading JSON text

`Json.parse? : String → Option Json` accepts exactly one value, with blanks around it. The parser
is a machine over tokens with an explicit stack of the arrays and objects still open, so the
nesting of a text costs no recursion and no limit on it is built in; readers that have a limit
state it with `Json.fits`.
-/

namespace Closedness.Json

/-- An array or object that is still open; what it holds so far is in reverse. -/
inductive Open where
  | array (elements : List Json)
  /-- The members are `none` once a key was not decodable; `key` awaits its value. -/
  | object (members : Option (List (String × Json))) (key : Option String)

/-- What the parser waits for, inside the values that are open (innermost first). -/
inductive Parser where
  /-- A value. -/
  | awaitValue (stack : List Open)
  /-- The first element of an array, or its end. -/
  | awaitElement (stack : List Open)
  /-- The first key of an object, or its end. -/
  | awaitMember (stack : List Open)
  /-- A further key of an object. -/
  | awaitKey (members : Option (List (String × Json))) (stack : List Open)
  /-- The colon after a key. -/
  | awaitColon (members : Option (List (String × Json))) (key : Option String) (stack : List Open)
  /-- What follows a finished value. -/
  | done (value : Json) (stack : List Open)

namespace Parser

/-- The members of an object after one more, kept in reverse. -/
def addMember (members : Option (List (String × Json))) (key : Option String) (value : Json) :
    Option (List (String × Json)) :=
  match members, key with
  | some members, some key => some ((key, value) :: members)
  | _, _ => none

/-- The value of a finished object. -/
def objectValue : Option (List (String × Json)) → Json
  | some members => .object members.reverse
  | none => .undecodable

/-- The value of a string. -/
def textValue : Option String → Json
  | some s => .string s
  | none => .undecodable

/-- Takes the first token of a value. -/
def startValue (stack : List Open) : Token → Option Parser
  | .openBracket => some (.awaitElement stack)
  | .openBrace => some (.awaitMember stack)
  | .scalar value => some (.done value stack)
  | .text s => some (.done (textValue s) stack)
  | _ => none

def step : Parser → Token → Option Parser
  | .awaitValue stack, token => startValue stack token
  | .awaitElement stack, .closeBracket => some (.done (.array []) stack)
  | .awaitElement stack, token => startValue (.array [] :: stack) token
  | .awaitMember stack, .closeBrace => some (.done (.object []) stack)
  | .awaitMember stack, .text key => some (.awaitColon (some []) key stack)
  | .awaitKey members stack, .text key => some (.awaitColon members key stack)
  | .awaitColon members key stack, .colon => some (.awaitValue (.object members key :: stack))
  | .done value (.array elements :: stack), .comma =>
    some (.awaitValue (.array (value :: elements) :: stack))
  | .done value (.array elements :: stack), .closeBracket =>
    some (.done (.array (value :: elements).reverse) stack)
  | .done value (.object members key :: stack), .comma =>
    some (.awaitKey (addMember members key value) stack)
  | .done value (.object members key :: stack), .closeBrace =>
    some (.done (objectValue (addMember members key value)) stack)
  | _, _ => none

/-- Takes the tokens one after the other. -/
def run : Parser → List Token → Option Parser
  | p, [] => some p
  | p, token :: rest =>
    match p.step token with
    | some next => run next rest
    | none => none

/-- The value of a text that ends here. -/
def finish? : Parser → Option Json
  | .done value [] => some value
  | _ => none

end Parser

/-- The value of a list of tokens. -/
def ofTokens? (tokens : List Token) : Option Json :=
  (Parser.run (.awaitValue []) tokens).bind Parser.finish?

/-- The value of a JSON text. -/
def parse? (text : String) : Option Json :=
  (tokens? text.toList).bind ofTokens?

end Closedness.Json
