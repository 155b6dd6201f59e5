import CanonicalSql.Token.Scan

/-!
# The lexer

A lexer holds the text not yet read and the place where it begins. Taking the next token
skips blanks and comments, scans one token, and moves the place over all characters that
were taken. A malformed token is taken as far as reading got, so that a lexer can be used
on after an error.
-/
namespace CanonicalSql

/-- A text on the way of being split into tokens. -/
structure Lexer where
  /-- The whole text. -/
  input : String
  /-- What has not been read yet. -/
  rest : List Char
  /-- Where the rest begins. -/
  position : Position

namespace Lexer

/-- A lexer at the beginning of a text. -/
def ofText (text : String) : Lexer := ⟨text, text.toList, {}⟩

/-- The place in the text where `rest`, an end of what has not been read, begins. -/
def placeOf (lexer : Lexer) (rest : List Char) : Position :=
  lexer.position.after (lexer.rest.take (lexer.rest.length - rest.length))

/-- The lexer moved on to `rest`. -/
def moveTo (lexer : Lexer) (rest : List Char) : Lexer :=
  { lexer with rest, position := lexer.placeOf rest }

/-- The next token, or why there is none. At the end of the text this is the end of input
each time. -/
def next (lexer : Lexer) : Except LexError Token × Lexer :=
  match Scan.skip lexer.rest with
  | .error opening =>
    -- the comment swallows all that is left
    let after := lexer.moveTo []
    (.error ⟨.unterminatedComment, ⟨lexer.placeOf opening, after.position⟩⟩, after)
  | .ok rest =>
    let start := lexer.moveTo rest
    match start.rest with
    | [] => (.ok ⟨.endOfInput, .point start.position⟩, start)
    | c :: text =>
      let lexeme := Scan.token c text
      let after := start.moveTo lexeme.rest
      let span : Span := ⟨start.position, after.position⟩
      match lexeme.found with
      | .ok kind => (.ok ⟨kind, span⟩, after)
      | .error cause => (.error ⟨cause, span⟩, after)

/-- The lexer after `count` more calls of `next`. -/
def skip (lexer : Lexer) : Nat → Lexer
  | 0 => lexer
  | count + 1 => lexer.next.2.skip count

end Lexer

/-- The tokens of a text up to the end of input, or up to the first malformed one. -/
structure TokenStream where
  /-- The tokens in order. The last one is the end of input unless lexing failed. -/
  tokens : List Token
  /-- The malformed token that ended the stream. -/
  failure : Option LexError
deriving DecidableEq, Repr, Inhabited

namespace Lexer

/-- The next `count` tokens, or fewer if the end of input or a malformed token is met. -/
def take : Nat → Lexer → TokenStream × Lexer
  | 0, lexer => (⟨[], none⟩, lexer)
  | count + 1, lexer =>
    match lexer.next with
    | (.error error, after) => (⟨[], some error⟩, after)
    | (.ok token, after) =>
      if token.kind = .endOfInput then (⟨[token], none⟩, after)
      else
        let (stream, last) := take count after
        ({ stream with tokens := token :: stream.tokens }, last)

/-- All tokens that are left, and the lexer after them. Each takes at least one character
but the end of input, so their number is known beforehand. -/
def tokenize (lexer : Lexer) : TokenStream × Lexer :=
  lexer.take (lexer.rest.length + 1)

/-- The stream of all tokens that are left. -/
def stream (lexer : Lexer) : TokenStream := lexer.tokenize.1

end Lexer

end CanonicalSql
