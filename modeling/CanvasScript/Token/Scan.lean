import CanvasScript.Diagnostic
import CanvasScript.Number.Numeral
import CanvasScript.Text.Blank

namespace CanvasScript

inductive ScanItem where
  | comment
  | lexeme (l : Lexeme)
  | unexpected

namespace ScanItem

def startsWord (c : Char) : Bool := c.isAlpha || c = '_'

def continuesWord (c : Char) : Bool := c.isAlphanum || c = '_'

def continuesNumber (c : Char) : Bool := c.isDigit || c = '.'

def unescape : Char → Char
  | 'n' => '\n'
  | 't' => '\t'
  | 'r' => '\r'
  | c => c

/-- The characters of a text up to its closing quote, and how many characters of the source that
takes, the quote included. A text that is still open at the end of the source ends there. -/
def readText (quote : Char) : List Char → List Char × Nat
  | [] => ([], 0)
  | c :: rest =>
    if c = quote then ([], 1)
    else if c = '\\' then
      match rest with
      | [] => ([], 1)
      | e :: rest =>
        let (text, n) := readText quote rest
        (unescape e :: text, n + 2)
    else
      let (text, n) := readText quote rest
      (c :: text, n + 1)

def run (c : Char) (rest : List Char) (continues : Char → Bool) (make : List Char → Lexeme) :
    ScanItem × Nat :=
  let more := rest.takeWhile continues
  (lexeme (make (c :: more)), more.length)

def sign (s : Sign) : ScanItem × Nat := (lexeme (.sign s), 0)

def pair (rest : List Char) (second : Char) (both : Sign) (alone : ScanItem × Nat) :
    ScanItem × Nat :=
  if rest.head? = some second then (lexeme (.sign both), 1) else alone

def ofChars (c : Char) (rest : List Char) : ScanItem × Nat :=
  match c with
  | '#' => (comment, (rest.takeWhile (· ≠ '\n')).length)
  | '+' => pair rest '+' .plusPlus (pair rest '=' .plusEq (sign .plus))
  | '-' => pair rest '-' .minusMinus (pair rest '=' .minusEq (sign .minus))
  | '*' => pair rest '=' .starEq (sign .star)
  | '/' => pair rest '=' .slashEq (sign .slash)
  | '=' => pair rest '=' .eqEq (sign .eq)
  | '<' => pair rest '=' .ltEq (sign .lt)
  | '>' => pair rest '=' .gtEq (sign .gt)
  | '!' => pair rest '=' .bangEq (unexpected, 0)
  | '|' => pair rest '|' .pipePipe (unexpected, 0)
  | '&' => pair rest '&' .ampAmp (unexpected, 0)
  | '$' => sign .dollar
  | ',' => sign .comma
  | ';' => sign .semicolon
  | ':' => sign .colon
  | '.' => sign .dot
  | '(' => sign .leftParen
  | ')' => sign .rightParen
  | '[' => sign .leftBracket
  | ']' => sign .rightBracket
  | '{' => sign .leftBrace
  | '}' => sign .rightBrace
  | c =>
    if c = '"' || c = '\'' then
      let (text, n) := readText c rest
      (lexeme (.text (String.ofList text)), n)
    else if c.isDigit then run c rest continuesNumber fun ds => .number (Number.ofRun ds)
    else if startsWord c then run c rest continuesWord fun cs => .ofWord (String.ofList cs)
    else (unexpected, 0)

end ScanItem

structure Scan where
  tokens : List Token
  diagnostics : List Diagnostic
  finish : Position

def scanFrom (skip : Nat) (p : Position) : List Char → Scan
  | [] => ⟨[], [], p⟩
  | c :: rest =>
    match skip with
    | skip + 1 => scanFrom skip (p.next c) rest
    | 0 =>
      if Text.isBlank c then scanFrom 0 (p.next c) rest
      else
        match ScanItem.ofChars c rest with
        | (.comment, n) => scanFrom n (p.next c) rest
        | (.lexeme l, n) =>
          let s := scanFrom n (p.next c) rest
          { s with tokens := ⟨l, p⟩ :: s.tokens }
        | (.unexpected, n) =>
          let s := scanFrom n (p.next c) rest
          { s with diagnostics := ⟨.unexpectedCharacter c, p⟩ :: s.diagnostics }

/-- The tokens of a text that begins at the place `p` of some larger one, or a diagnostic for every
character that begins no token. -/
def TokenStream.ofSource (source : String) (p : Position) :
    Except (List Diagnostic) TokenStream :=
  let s := scanFrom 0 p source.toList
  if s.diagnostics.isEmpty then .ok ⟨s.tokens, s.finish⟩ else .error s.diagnostics

end CanvasScript
