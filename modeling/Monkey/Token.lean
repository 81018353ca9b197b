/-!
# Tokens

The words of the language. A token is a symbol, a keyword, an identifier, an
integer numeral, a quoted string, or a character that starts none of these.
Its kind leaves the variable text out, and also names the end of the input,
which is not a token.
-/

namespace Monkey

/-- Operators and delimiters, each with one fixed spelling. -/
inductive Symbol
  | assign | plus | minus | bang | asterisk | slash
  | less | greater | equal | notEqual
  | comma | semicolon | colon
  | leftParen | rightParen | leftBrace | rightBrace | leftBracket | rightBracket
  deriving DecidableEq

namespace Symbol

/-- How a symbol is written. -/
def spelling : Symbol → String
  | .assign => "="
  | .plus => "+"
  | .minus => "-"
  | .bang => "!"
  | .asterisk => "*"
  | .slash => "/"
  | .less => "<"
  | .greater => ">"
  | .equal => "=="
  | .notEqual => "!="
  | .comma => ","
  | .semicolon => ";"
  | .colon => ":"
  | .leftParen => "("
  | .rightParen => ")"
  | .leftBrace => "\x7b"
  | .rightBrace => "\x7d"
  | .leftBracket => "["
  | .rightBracket => "]"

/-- The symbol written as a single character. -/
def ofChar? : Char → Option Symbol
  | '=' => some .assign
  | '+' => some .plus
  | '-' => some .minus
  | '!' => some .bang
  | '*' => some .asterisk
  | '/' => some .slash
  | '<' => some .less
  | '>' => some .greater
  | ',' => some .comma
  | ';' => some .semicolon
  | ':' => some .colon
  | '(' => some .leftParen
  | ')' => some .rightParen
  | '{' => some .leftBrace
  | '}' => some .rightBrace
  | '[' => some .leftBracket
  | ']' => some .rightBracket
  | _ => none

end Symbol

/-- Words with a meaning of their own. -/
inductive Keyword
  | function | bind | true | false | cond | otherwise | return
  deriving DecidableEq

namespace Keyword

/-- How a keyword is written. -/
def spelling : Keyword → String
  | .function => "fn"
  | .bind => "let"
  | .true => "true"
  | .false => "false"
  | .cond => "if"
  | .otherwise => "else"
  | .return => "return"

/-- The keyword with the given spelling. -/
def ofSpelling? : String → Option Keyword
  | "fn" => some .function
  | "let" => some .bind
  | "true" => some .true
  | "false" => some .false
  | "if" => some .cond
  | "else" => some .otherwise
  | "return" => some .return
  | _ => none

/-- What diagnostics call a keyword. -/
def name : Keyword → String
  | .function => "FUNCTION"
  | .bind => "LET"
  | .true => "TRUE"
  | .false => "FALSE"
  | .cond => "IF"
  | .otherwise => "ELSE"
  | .return => "RETURN"

@[simp]
theorem ofSpelling?_spelling (keyword : Keyword) :
    ofSpelling? keyword.spelling = some keyword := by
  cases keyword <;> rfl

theorem ofSpelling?_eq_some_iff {word : String} {keyword : Keyword} :
    ofSpelling? word = some keyword ↔ word = keyword.spelling := by
  constructor
  · intro found
    unfold ofSpelling? at found
    split at found <;> cases found <;> rfl
  · rintro rfl
    exact ofSpelling?_spelling keyword

end Keyword

/-- A word of the source. -/
inductive Token
  /-- A character that starts no other token. -/
  | illegal (character : Char)
  | ident (name : String)
  | int (digits : String)
  /-- The text between the quotes. -/
  | string (text : String)
  | symbol (mark : Symbol)
  | keyword (word : Keyword)
  deriving DecidableEq

namespace Token

/-- Kinds of token, and the end of the input. -/
inductive Kind
  | illegal
  | endOfInput
  | ident
  | int
  | string
  | symbol (mark : Symbol)
  | keyword (word : Keyword)
  deriving DecidableEq

/-- What diagnostics call a kind. -/
def Kind.name : Kind → String
  | .illegal => "ILLEGAL"
  | .endOfInput => "EOF"
  | .ident => "IDENT"
  | .int => "INT"
  | .string => "STRING"
  | .symbol mark => mark.spelling
  | .keyword word => word.name

/-- The kind of a token. -/
def kind : Token → Kind
  | .illegal _ => .illegal
  | .ident _ => .ident
  | .int _ => .int
  | .string _ => .string
  | .symbol mark => .symbol mark
  | .keyword word => .keyword word

/-- The text of a token, for a string without its quotes. -/
def literal : Token → String
  | .illegal character => String.singleton character
  | .ident name => name
  | .int digits => digits
  | .string text => text
  | .symbol mark => mark.spelling
  | .keyword word => word.spelling

/-- A word is a keyword if it is spelt exactly like one, and an identifier
otherwise. -/
def ofWord (word : String) : Token :=
  match Keyword.ofSpelling? word with
  | some reserved => .keyword reserved
  | none => .ident word

theorem kind_ne_endOfInput (token : Token) : token.kind ≠ .endOfInput := by
  cases token <;> simp [kind]

end Token

end Monkey
