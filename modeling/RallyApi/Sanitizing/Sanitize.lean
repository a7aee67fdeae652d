import Mathlib.Data.List.DropRight
import RallyApi.Platform.Duration
import RallyApi.Platform.Json
import RallyApi.Regex.Removal

/-!
# Sanitising

`sanitizeString` and `sanitizeObject` of the platform (`utils/sanitize.util.ts`), which strip dangerous
markup from what a client sends, and the pipe that applies them to bodies and queries
(`pipes/sanitization.pipe.ts`).
-/

set_option autoImplicit false
set_option relaxedAutoImplicit false

namespace RallyApi.Sanitizing

open Platform Regex

/-! ### The patterns -/

/-- `\w`; ignoring case adds nothing to it. -/
def isWordChar (char : Char) : Bool := char.isAlphanum || char = '_'

/-- A character that is no letter. -/
def symbol (char : Char) : Pattern Char := .set fun other ↦ other = char

/-- A letter in either case, as the flag `i` has it. -/
def isLetter (lower char : Char) : Bool := char = lower || char = lower.toUpper

/-- A letter. -/
def letter (lower : Char) : Pattern Char := .set (isLetter lower)

/-- The letters of a name. -/
def letters (name : String) : List (Pattern Char) := name.toList.map letter

/-- `\s*`. -/
def spaces : Pattern Char := .many isWhitespace

/-- Patterns one after another. -/
def sequence : List (Pattern Char) → Pattern Char
  | [] => .empty
  | [pattern] => pattern
  | pattern :: rest => .seq pattern (sequence rest)

/-- `(first|second|…)`. -/
def choice : List (Pattern Char) → Pattern Char
  | [] => .set fun _ ↦ false
  | [pattern] => pattern
  | pattern :: rest => .alt pattern (choice rest)

/-- `[^>]`. -/
def insideTag (char : Char) : Bool := char ≠ '>'

/-- `["']`. -/
def isQuote (char : Char) : Bool := char = '"' || char = '\''

/-- `[^\s>]`. -/
def isUnquoted (char : Char) : Bool := !isWhitespace char && char ≠ '>'

/-- `/<\s*script[^>]*>.*?<\s*\/\s*script>/gis`. -/
def scriptElement : Pattern Char :=
  sequence ([symbol '<', spaces] ++ letters "script" ++ [.many insideTag, symbol '>',
    .manyLazy fun _ ↦ true, symbol '<', spaces, symbol '/', spaces] ++ letters "script" ++ [symbol '>'])

/-- `/<\s*\/?\s*(script|iframe|object|embed|form|input|textarea|style)\b[^>]*>/gis`. -/
def listedTag : Pattern Char :=
  sequence [symbol '<', spaces, .alt (symbol '/') .empty, spaces,
    choice (["script", "iframe", "object", "embed", "form", "input", "textarea", "style"].map
      fun name ↦ sequence (letters name)),
    .boundary, .many insideTag, symbol '>']

/-- `/\bon\w+\s*=\s*["'][^"']*["']/gis`. -/
def quotedHandler : Pattern Char :=
  sequence [.boundary, letter 'o', letter 'n', .set isWordChar, .many isWordChar, spaces, symbol '=',
    spaces, .set isQuote, .many fun char ↦ !isQuote char, .set isQuote]

/-- `/\bon\w+\s*=\s*[^\s>]+/gis`. -/
def unquotedHandler : Pattern Char :=
  sequence [.boundary, letter 'o', letter 'n', .set isWordChar, .many isWordChar, spaces, symbol '=',
    spaces, .set isUnquoted, .many isUnquoted]

/-- The patterns that are removed, in this order. -/
def dangerousPatterns : List (Pattern Char) :=
  [scriptElement, listedTag, quotedHandler, unquotedHandler]

/-! ### Strings -/

section Text

variable {β : Type} (view : β → Char)

/-- `text.trim()`, of items that carry characters. -/
def trimItems (text : List β) : List β :=
  (text.dropWhile fun item ↦ isWhitespace (view item)).rdropWhile fun item ↦ isWhitespace (view item)

/-- The matches of patterns are replaced by nothing, one pattern after the other. -/
def removeEach (patterns : List (Pattern Char)) (text : List β) : List β :=
  patterns.foldl (fun text pattern ↦ removeAll isWordChar view pattern text) text

/-- `sanitizeString` of items that carry characters. -/
def sanitizeItems (text : List β) : List β := trimItems view (removeEach view dangerousPatterns text)

end Text

/-- `sanitizeString`. -/
def sanitizeString (input : String) : String := String.ofList (sanitizeItems id input.toList)

/-! ### Values -/

/-- `value.constructor === Object`, of an object that inherits from `Object.prototype`: a property of
this name hides the inherited one, and no JSON value is a constructor. -/
def isPlain (fields : List (String × JsValue)) : Bool :=
  !fields.any fun field ↦ field.1 = "constructor"

mutual

/-- `sanitizeObject`. Assigning to `__proto__` makes no property. -/
def sanitizeObject : List (String × JsValue) → List (String × JsValue)
  | [] => []
  | (key, value) :: rest =>
    if key = "__proto__" then sanitizeObject rest
    else (key, sanitizeValue value) :: sanitizeObject rest

/-- The value of a property in `sanitizeObject`. -/
def sanitizeValue : JsValue → JsValue
  | .string text => .string (sanitizeString text)
  | .array items => .array (sanitizeArray items)
  | .object fields => if isPlain fields then .object (sanitizeObject fields) else .object fields
  | value => value

/-- The items of an array in `sanitizeObject`. -/
def sanitizeArray : List JsValue → List JsValue
  | [] => []
  | .string text :: rest => .string (sanitizeString text) :: sanitizeArray rest
  | .object fields :: rest =>
    (if isPlain fields then .object (sanitizeObject fields) else .object fields) ::
      sanitizeArray rest
  | item :: rest => item :: sanitizeArray rest

end

/-- `SanitizationPipe.transform`. What `JSON.parse` makes of a body inherits from `Object.prototype`; the
object a query is parsed into need not, and then it has no constructor. -/
def transform (inherits : Bool) : JsValue → JsValue
  | .string text => .string (sanitizeString text)
  | .object fields =>
    if inherits && isPlain fields then .object (sanitizeObject fields) else .object fields
  | value => value

end RallyApi.Sanitizing
