import CanvasScript.Position
import CanvasScript.Number.Layout
import CanvasScript.Text.Quoted

namespace CanvasScript

inductive Keyword where
  | if_ | else_ | elseif | while_ | for_ | end_ | null | undefined | true_ | false_
  | function | return_ | break_ | continue_ | not | and | or
deriving DecidableEq, Repr

namespace Keyword

def spelling : Keyword → String
  | if_ => "if" | else_ => "else" | elseif => "elseif" | while_ => "while" | for_ => "for"
  | end_ => "end" | null => "null" | undefined => "undefined" | true_ => "true"
  | false_ => "false" | function => "function" | return_ => "return" | break_ => "break"
  | continue_ => "continue" | not => "not" | and => "and" | or => "or"

def all : List Keyword :=
  [if_, else_, elseif, while_, for_, end_, null, undefined, true_, false_, function, return_,
    break_, continue_, not, and, or]

theorem mem_all (k : Keyword) : k ∈ all := by cases k <;> decide

def ofSpelling? (s : String) : Option Keyword := all.find? (·.spelling == s)

end Keyword

/-- Operators and punctuation marks. No source text yields `bang`; a token stream built by hand may
hold it. -/
inductive Sign where
  | plus | minus | star | slash
  | plusEq | minusEq | starEq | slashEq
  | plusPlus | minusMinus
  | eq | eqEq | bangEq | bang | lt | ltEq | gt | gtEq | pipePipe | ampAmp
  | dollar | colon | comma | semicolon | dot
  | leftParen | rightParen | leftBrace | rightBrace | leftBracket | rightBracket
deriving DecidableEq, Repr

namespace Sign

def spelling : Sign → String
  | plus => "+" | minus => "-" | star => "*" | slash => "/"
  | plusEq => "+=" | minusEq => "-=" | starEq => "*=" | slashEq => "/="
  | plusPlus => "++" | minusMinus => "--"
  | eq => "=" | eqEq => "==" | bangEq => "!=" | bang => "!"
  | lt => "<" | ltEq => "<=" | gt => ">" | gtEq => ">=" | pipePipe => "||" | ampAmp => "&&"
  | dollar => "$" | colon => ":" | comma => "," | semicolon => ";" | dot => "."
  | leftParen => "(" | rightParen => ")" | leftBrace => "\x7b" | rightBrace => "\x7d"
  | leftBracket => "[" | rightBracket => "]"

def all : List Sign :=
  [plus, minus, star, slash, plusEq, minusEq, starEq, slashEq, plusPlus, minusMinus, eq, eqEq,
    bangEq, bang, lt, ltEq, gt, gtEq, pipePipe, ampAmp, dollar, colon, comma, semicolon, dot,
    leftParen, rightParen, leftBrace, rightBrace, leftBracket, rightBracket]

theorem mem_all (s : Sign) : s ∈ all := by cases s <;> decide

def ofSpelling? (s : String) : Option Sign := all.find? (·.spelling == s)

end Sign

inductive Lexeme where
  | number (value : Float)
  | text (value : String)
  | name (value : String)
  | keyword (k : Keyword)
  | sign (s : Sign)

namespace Lexeme

def describe : Lexeme → String
  | number x => "number `" ++ Number.Layout.plain.text x ++ "`"
  | text s => "string " ++ Text.quoted s
  | name s => "identifier `" ++ s ++ "`"
  | keyword k => "`" ++ k.spelling ++ "`"
  | sign s => "`" ++ s.spelling ++ "`"

def ofWord (s : String) : Lexeme :=
  match Keyword.ofSpelling? s with
  | some k => keyword k
  | none => name s

def isKeyword (k : Keyword) : Lexeme → Bool
  | keyword k' => k = k'
  | _ => false

def isSign (s : Sign) : Lexeme → Bool
  | sign s' => s = s'
  | _ => false

end Lexeme

structure Token where
  lexeme : Lexeme
  position : Position

structure TokenStream where
  tokens : List Token
  finish : Position

end CanvasScript
