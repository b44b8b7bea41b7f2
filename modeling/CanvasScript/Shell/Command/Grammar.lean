import CanvasScript.Shell.Command.Words

namespace CanvasScript.Shell

open Text (Octets)

namespace Reader

def skipBlanks : Reader Unit := do
  loop (fun (inComment : Bool) => do
    match ← peek with
    | some '\n' => return .inr ()
    | none => return .inr ()
    | some '#' => skip; return .inl true
    | some c =>
      if inComment || c = ' ' || c = '\t' then
        skip
        return .inl inComment
      else return .inr ()) false

def readSign (c : Char) : Reader Token := do
  skip
  if ← accept c then return .sign (String.ofList [c, c]) else return .sign c.toString

def readRedirection (descriptor : Option Nat) : Reader Token := do
  if ← accept '>' then
    let kind : RedirectionKind ← if ← accept '>' then pure .append
      else if ← accept '&' then pure .duplicate
      else pure .output
    return .redirection (descriptor.getD 1) kind
  else
    skip
    let kind : RedirectionKind ← if ← accept '&' then pure .duplicate else pure .input
    return .redirection (descriptor.getD 0) kind

def readWord (self : Readers) : Reader Token := do
  let w ← readParts self .bare
  let next := (← get).rest.head?
  let isArrow := next = some '<' || next = some '>'
  match w with
  | [] => if isArrow then readRedirection none else return .word w
  | [.text [c] false] =>
    if isArrow && c.isDigit then readRedirection (some (c.toNat - '0'.toNat)) else return .word w
  | w => return .word w

def readPlainToken (self : Readers) : Reader Token := do
  match (← get).pushed with
  | some t =>
    modify fun s => { s with pushed := none }
    return t
  | none =>
    skipBlanks
    match ← peek with
    | none => return .eof
    | some '\n' => skip; return .newline
    | some '&' => readSign '&'
    | some '|' => readSign '|'
    | some ';' => readSign ';'
    | some '(' => skip; return .sign "("
    | some ')' => skip; return .sign ")"
    | some _ => readWord self

def keywordNames : List String :=
  ["!", "do", "done", "elif", "else", "fi", "for", "if", "in", "then", "until", "while", "\x7b",
    "\x7d"]

def readToken (self : Readers) (newlines reserved : Bool) : Reader Token := do
  let t ← loop (fun (_ : Unit) => do
    match ← readPlainToken self with
    | .newline => return if newlines then .inl () else .inr Token.newline
    | t => return .inr t) ()
  match t with
  | .word w =>
    match Part.plain? w with
    | some s => return if reserved && keywordNames.contains s then .keyword s else t
    | none => return t
  | t => return t

def endsList : Token → Bool
  | .eof => true
  | .sign s => s = ")" || s = ";;"
  | .keyword s => s ∈ ["do", "done", "elif", "else", "fi", "then", "\x7d"]
  | _ => false

def readTarget (self : Readers) (descriptor : Nat) (kind : RedirectionKind) :
    Reader Redirection := do
  match ← readToken self false false with
  | .word w => return .mk descriptor kind w
  | t => unexpected t none

def readRedirections (self : Readers) : Reader (List Redirection) := do
  loop (fun (taken : List Redirection) => do
    match ← readToken self false true with
    | .redirection descriptor kind =>
      return .inl ((← readTarget self descriptor kind) :: taken)
    | t =>
      push t
      return .inr taken.reverse) []

structure Gathering where
  assignments : List (Octets × Word)
  words : List Word
  redirections : List Redirection

def readSimple (self : Readers) : Reader Command := do
  let line := (← get).line
  loop (fun (g : Gathering) => do
    match ← readToken self false false with
    | .word w =>
      match if g.words.isEmpty then Part.assignment? w else none with
      | some a => return .inl { g with assignments := a :: g.assignments }
      | none => return .inl { g with words := w :: g.words }
    | .redirection descriptor kind =>
      return .inl { g with redirections := (← readTarget self descriptor kind) :: g.redirections }
    | t =>
      -- a parenthesis behind the first word begins a definition, which this shell does not know
      if t.isSign "(" && g.words.length = 1 && g.assignments.isEmpty then
        expectSign ")" (← readToken self false false)
        refuse "Bad function name"
      push t
      return .inr (.simple line g.assignments.reverse g.words.reverse g.redirections.reverse))
    ⟨[], [], []⟩

def expectKeyword (self : Readers) (text : String) (newlines : Bool) : Reader Unit := do
  let t ← readToken self newlines true
  unless t.isKeyword text do unexpected t (some (.keyword text))

def readChoice (self : Readers) : Reader Command := do
  let (clauses, otherwise) ← loop (fun (clauses : List (Command × Command)) => do
    let condition ← self.list 0
    expectKeyword self "then" false
    let clauses := (condition, ← self.list 0) :: clauses
    let t ← readToken self false true
    if t.isKeyword "elif" then return .inl clauses
    else if t.isKeyword "else" then return .inr (clauses, ← self.list 0)
    else
      push t
      return .inr (clauses, Command.nothing)) []
  expectKeyword self "fi" false
  return clauses.foldl (fun otherwise c => .choice c.1 c.2 otherwise) otherwise

def readBody (self : Readers) (newlines : Bool) : Reader Command := do
  expectKeyword self "do" newlines
  let body ← self.list 0
  expectKeyword self "done" false
  return body

def readCountWords (self : Readers) : Reader (List Word) := do
  let t ← readToken self true true
  if t.isKeyword "in" then
    loop (fun (words : List Word) => do
      match ← readToken self false false with
      | .word w => return .inl (w :: words)
      | .newline => return .inr words.reverse
      | t => if t.isSign ";" then return .inr words.reverse else unexpected t none) []
  else
    unless t.isSign ";" do push t
    return []

def readCount (self : Readers) : Reader Command := do
  let line := (← get).line
  match ← readToken self false false with
  | .word w =>
    match (Part.plain? w).filter isName with
    | some name =>
      let words ← readCountWords self
      return .count line name words (← readBody self true)
    | none => refuse "Bad for loop variable"
  | _ => refuse "Bad for loop variable"

def readCommandFrom (self : Readers) (t : Token) : Reader Command := do
  let line := (← get).line
  let compound (body : Command) : Reader Command := do
    match ← readRedirections self with
    | [] => return body
    | rs => return .redirected line body rs
  match t with
  | .keyword "if" => compound (← readChoice self)
  | .keyword "while" =>
    let condition ← self.list 0
    compound (.loop false condition (← readBody self false))
  | .keyword "until" =>
    let condition ← self.list 0
    compound (.loop true condition (← readBody self false))
  | .keyword "for" => compound (← readCount self)
  | .keyword "\x7b" =>
    let body ← self.list 0
    expectKeyword self "\x7d" false
    compound body
  | .sign "(" =>
    let body ← self.list 0
    expectSign ")" (← readToken self false true)
    compound (.subshell line body)
  | .word _ => push t; readSimple self
  | .redirection _ _ => push t; readSimple self
  | t => unexpected t none

def readPipeline (self : Readers) (newlines : Bool) : Reader Command := do
  let t ← readToken self newlines true
  let negated := t.isKeyword "!"
  let first ← readCommandFrom self (← if negated then readToken self false true else pure t)
  let commands ← loop (fun (commands : List Command) => do
    let t ← readToken self false false
    if t.isSign "|" then
      return .inl ((← readCommandFrom self (← readToken self true true)) :: commands)
    else
      push t
      return .inr commands.reverse) [first]
  let body := match commands with
    | [c] => c
    | cs => .pipeline cs
  return if negated then .negation body else body

def readConditional (self : Readers) : Reader Command := do
  let first ← readPipeline self false
  loop (fun (c : Command) => do
    let t ← readToken self false false
    if t.isSign "&&" then return .inl (.both c (← readPipeline self true))
    else if t.isSign "||" then return .inl (.either c (← readPipeline self true))
    else
      push t
      return .inr c) first

/-- Commands in sequence. In mode 1 they end with their line; in mode 0 there has to be one before a
token that ends lists, in mode 2 not even that. -/
def readList (self : Readers) (mode : Nat) : Reader Command := do
  loop (fun (s : Command × Bool) => do
    let (before, started) := s
    match ← readToken self (mode ≠ 1) true with
    | .newline => return .inr before
    | .eof =>
      push .eof
      return .inr before
    | t =>
      push t
      if endsList t && (mode = 2 || (mode = 0 && started)) then return .inr before
      else
        let c ← readConditional self
        let c := match before with
          | .nothing => c
          | before => .sequence before c
        match ← readToken self false false with
        | .eof =>
          push .eof
          return .inr c
        | .newline =>
          push .newline
          return .inl (c, true)
        | t =>
          if t.isSign "&" || t.isSign ";" then return .inl (c, true)
          else if mode = 1 then unexpected t none
          else
            push t
            return .inr c) (.nothing, false)

def deepest : Nat := 1000

def readers : Nat → Readers
  | 0 => ⟨fun _ => refuse "out of memory", fun _ => refuse "out of memory"⟩
  | n + 1 =>
    let inner := readers n
    ⟨readList inner, readParts inner⟩

def readLine : Reader (Option Command) := do
  modify fun s => { s with pushed := none }
  match ← readList (readers deepest) 1, (← get).pushed with
  | .nothing, some .eof => return none
  | c, _ => return some c

end Reader

end CanvasScript.Shell
