import CanonicalSql.Token.Error
import CanonicalSql.Token.Kind
import CanonicalSql.Unicode.Alphabetic
import CanonicalSql.Unicode.Blank
import CanonicalSql.Unicode.Casing
import CanonicalSql.Unicode.Numeric

/-!
# Scanning

What a token is can be told from the text that begins with it; where it stands does not
matter. Each scanner takes the text from its first character on and gives back what it
found there together with the rest of the text, which is always an end of the text
scanned.
-/
namespace CanonicalSql.Scan

/-- What stands at the beginning of a text, a token or the reason why there is none, and
the rest of the text after it. -/
structure Lexeme where
  found : Except LexCause Kind
  rest : List Char

/-! ## Blanks and comments -/

/-- Where skipping stands: between comments, in a line comment, or in a block comment
that began at the given text. -/
inductive Skipping
  | blanks
  | lineComment
  | blockComment (opening : List Char)

/-- Skips blanks and comments. The result is the text after them, or the text that begins
with a block comment that never ends. -/
def skipFrom : Skipping → List Char → Except (List Char) (List Char)
  | .blockComment opening, [] => .error opening
  | _, [] => .ok []
  | .lineComment, c :: rest =>
    if c = '\n' then skipFrom .blanks rest else skipFrom .lineComment rest
  | .blockComment _, '*' :: '/' :: rest => skipFrom .blanks rest
  | .blockComment opening, _ :: rest => skipFrom (.blockComment opening) rest
  | .blanks, '-' :: '-' :: rest => skipFrom .lineComment rest
  | .blanks, '/' :: '*' :: rest => skipFrom (.blockComment ('/' :: '*' :: rest)) rest
  | .blanks, c :: rest =>
    if Unicode.isBlank c then skipFrom .blanks rest else .ok (c :: rest)

/-- Skips the blanks and comments that a text begins with. -/
def skip (text : List Char) : Except (List Char) (List Char) :=
  skipFrom .blanks text

/-! ## Words -/

/-- Whether a bare word may begin with the character. -/
def isWordStart (c : Char) : Bool := Unicode.isAlphabetic c || c == '_'

/-- Whether a bare word goes on with the character. -/
def isWordRest (c : Char) : Bool :=
  Unicode.isAlphabetic c || Unicode.isNumeric c || c == '_' || c == '$'

/-- The token of a bare word: a keyword, or a name in small letters. -/
def wordKind (word : String) : Kind :=
  match Keyword.ofWord? word with
  | some keyword => .keyword keyword
  | none => .identifier (Unicode.lowerCase word)

/-- A keyword or a bare name. -/
def word (text : List Char) : Lexeme :=
  ⟨.ok (wordKind (String.ofList (text.takeWhile isWordRest))), text.dropWhile isWordRest⟩

/-- A name between double quotes, after the opening one. -/
def quotedName (text : List Char) : Lexeme :=
  match Quoted.read '"' text with
  | none => ⟨.error .unterminatedName, []⟩
  | some (name, rest) =>
    if name.isEmpty then ⟨.error .emptyName, rest⟩
    else ⟨.ok (.identifier (String.ofList name)), rest⟩

/-! ## Numbers -/

/-- The greatest integer a literal may write. -/
def maxInteger : Nat := 0x7fffffffffffffff

/-- The fraction that a text begins with: a point and at least one digit. -/
def fractionPart : List Char → List Char
  | '.' :: rest =>
    let digits := rest.takeWhile Char.isDigit
    if digits.isEmpty then [] else '.' :: digits
  | _ => []

/-- The exponent that a text begins with: a letter, a sign or none, and at least one
digit. -/
def exponentPart : List Char → List Char
  | [] => []
  | e :: rest =>
    if e = 'e' ∨ e = 'E' then
      let sign := rest.takeWhile (fun c => c == '+' || c == '-') |>.take 1
      let digits := (rest.drop sign.length).takeWhile Char.isDigit
      -- a letter without digits behind it begins the next token
      if digits.isEmpty then [] else e :: (sign ++ digits)
    else []

/-- The token of a numeral without point and exponent. -/
def integerKind (digits : List Char) : Except LexCause Kind :=
  let value := Binary64.digitsValue digits
  if value ≤ maxInteger then .ok (.integer value) else .error .integerOutOfRange

/-- The token of a numeral with a point or an exponent. -/
def floatKind (numeral : List Char) : Except LexCause Kind :=
  match Binary64.ofNumeral? false numeral with
  | none => .error (.floatOutOfRange (String.ofList numeral))
  | some value =>
    if value.isFinite then .ok (.float value)
    else .error (.floatOutOfRange (String.ofList numeral))

/-- An integer or a floating-point number. -/
def number (text : List Char) : Lexeme :=
  let whole := text.takeWhile Char.isDigit
  let afterWhole := text.drop whole.length
  let fraction := fractionPart afterWhole
  let afterFraction := afterWhole.drop fraction.length
  let exponent := exponentPart afterFraction
  let rest := afterFraction.drop exponent.length
  if fraction.isEmpty && exponent.isEmpty then ⟨integerKind whole, rest⟩
  else ⟨floatKind (whole ++ fraction ++ exponent), rest⟩

/-! ## Strings -/

/-- The character that a letter stands for after a backslash. -/
def escaped? : Char → Option Char
  | 'n' => some '\n'
  | 't' => some '\t'
  | 'r' => some '\r'
  | 'b' => some '\x08'
  | 'f' => some '\x0c'
  | '\\' => some '\\'
  | '\'' => some '\''
  | _ => none

/-- Reads on in a string with escapes, after the opening quote: the text and what follows
the closing quote, or what is wrong and where reading stopped. -/
def readEscaped : List Char → Except (LexCause × List Char) (List Char × List Char)
  | [] => .error (.unterminatedString, [])
  | '\'' :: '\'' :: rest => (readEscaped rest).map fun (text, after) => ('\'' :: text, after)
  | '\'' :: rest => .ok ([], rest)
  | '\\' :: [] => .error (.unterminatedString, [])
  | '\\' :: c :: rest =>
    match escaped? c with
    | some meant => (readEscaped rest).map fun (text, after) => (meant :: text, after)
    | none => .error (.invalidEscape c, rest)
  | c :: rest => (readEscaped rest).map fun (text, after) => (c :: text, after)

/-- The kind of string that a letter in front of the quote announces, and whether the
string has escapes. -/
def stringLetter? (c : Char) : Option (StringKind × Bool) :=
  if c = 'b' ∨ c = 'B' then some (.bit, false)
  else if c = 'x' ∨ c = 'X' then some (.hex, false)
  else if c = 'n' ∨ c = 'N' then some (.national, false)
  else if c = 'e' ∨ c = 'E' then some (.char, true)
  else none

/-- Whether the character is a hexadecimal digit. -/
def isHexDigit (c : Char) : Bool :=
  c.isDigit || ('a' ≤ c && c ≤ 'f') || ('A' ≤ c && c ≤ 'F')

/-- The token of a string with the given contents. -/
def stringKind (kind : StringKind) (value : List Char) : Except LexCause Kind :=
  match kind with
  | .bit =>
    if value.all fun c => c == '0' || c == '1' then .ok (.string (String.ofList value) .bit)
    else .error (.invalidBits (String.ofList value))
  | .hex =>
    if value.all isHexDigit then .ok (.string (String.ofList value) .hex)
    else .error (.invalidHex (String.ofList value))
  | kind => .ok (.string (String.ofList value) kind)

/-- A string literal, after the opening quote. -/
def string (kind : StringKind) (escapes : Bool) (text : List Char) : Lexeme :=
  if escapes then
    match readEscaped text with
    | .error (cause, rest) => ⟨.error cause, rest⟩
    | .ok (value, rest) => ⟨stringKind kind value, rest⟩
  else
    match Quoted.read '\'' text with
    | none => ⟨.error .unterminatedString, []⟩
    | some (value, rest) => ⟨stringKind kind value, rest⟩

/-! ## Signs -/

/-- The sign that `c` makes with the text after it, and whether it takes one more
character. -/
def sign? (c : Char) (next : Option Char) : Option (Symbol × Bool) :=
  match c with
  | '(' => some (.leftParen, false)
  | ')' => some (.rightParen, false)
  | '[' => some (.leftBracket, false)
  | ']' => some (.rightBracket, false)
  | ',' => some (.comma, false)
  | ';' => some (.semicolon, false)
  | '.' => some (.dot, false)
  | '+' => some (.plus, false)
  | '-' => some (.minus, false)
  | '*' => some (.star, false)
  | '/' => some (.slash, false)
  | '=' => some (.equal, false)
  | '<' =>
    if next = some '=' then some (.lessEqual, true)
    else if next = some '>' then some (.notEqual, true)
    else some (.less, false)
  | '>' => if next = some '=' then some (.greaterEqual, true) else some (.greater, false)
  | '!' => if next = some '=' then some (.notEqual, true) else none
  | '|' => if next = some '|' then some (.concat, true) else none
  | _ => none

/-- An operator sign or a delimiter. -/
def sign (c : Char) (text : List Char) : Lexeme :=
  match sign? c text.head? with
  | some (found, longer) => ⟨.ok (.symbol found), if longer then text.drop 1 else text⟩
  | none => ⟨.error (.unexpectedCharacter c), text⟩

/-! ## Any token -/

/-- The token that begins with the character `c`, the text `text` coming after it. -/
def token (c : Char) (text : List Char) : Lexeme :=
  let next := text.head?
  if c = '\'' then string .char false text
  else if c = '"' then quotedName text
  -- a letter announces a string only right in front of its quote
  else if let (some (kind, escapes), some '\'') := (stringLetter? c, next) then
    string kind escapes (text.drop 1)
  else if c.isDigit then number (c :: text)
  else if c = '.' ∧ next.any Char.isDigit then number (c :: text)
  else if isWordStart c then word (c :: text)
  else sign c text

end CanonicalSql.Scan
