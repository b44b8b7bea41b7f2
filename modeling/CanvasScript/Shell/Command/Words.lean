import CanvasScript.Shell.Command

namespace CanvasScript.Shell

open Text (Octets)

inductive Token where
  | eof
  | newline
  | sign (text : String)
  | keyword (text : String)
  | redirection (descriptor : Nat) (kind : RedirectionKind)
  | word (w : Word)

structure Source where
  rest : List Char
  line : Nat
  pushed : Option Token

structure Misreading where
  line : Nat
  message : String

abbrev Reader := EStateM Misreading Source

/-- A bare word ends at a blank or a sign, a sum at two closing parentheses. -/
inductive Surroundings where
  | bare
  | quotes
  | sum
deriving DecidableEq

structure Readers where
  list : Nat → Reader Command
  parts : Surroundings → Reader Word

/-- Parts read so far, the last one first; the characters of each in reverse. -/
abbrev Gathered := List Part

def Gathered.add (g : Gathered) (c : Char) (quoted : Bool) : Gathered :=
  match g with
  | .text cs q :: rest =>
    if q = quoted then .text (c :: cs) q :: rest else .text [c] quoted :: .text cs q :: rest
  | g => .text [c] quoted :: g

def Gathered.append (g : Gathered) (parts : List Part) : Gathered :=
  parts.foldl (fun g p =>
    match p with
    | .text cs q => .text cs.reverse q :: g
    | p => p :: g) g

def Gathered.finish (g : Gathered) : Word :=
  g.reverse.map fun
    | .text cs q => .text cs.reverse q
    | p => p

namespace Reader

def refuse (message : String) : Reader α := do throw ⟨(← get).line, message⟩

def iterate (step : σ → Reader (σ ⊕ α)) : Nat → σ → Reader α
  | 0, _ => refuse "out of memory"
  | n + 1, s => do
    match ← step s with
    | .inl s => iterate step n s
    | .inr a => return a

-- every step but a few takes a character, so what is left to read bounds their number
def loop (step : σ → Reader (σ ⊕ α)) (s : σ) : Reader α := do
  iterate step (2 * (← get).rest.length + 8) s

def skip : Reader Unit :=
  modify fun s =>
    match s.rest with
    | '\n' :: rest => { s with rest := rest, line := s.line + 1 }
    | _ :: rest => { s with rest := rest }
    | [] => s

def peek : Reader (Option Char) := do
  loop (fun (_ : Unit) => do
    match (← get).rest with
    | '\\' :: '\n' :: _ => skip; skip; return .inl ()
    | c :: _ => return .inr (some c)
    | [] => return .inr none) ()

def accept (c : Char) : Reader Bool := do
  if (← peek) = some c then
    skip
    return true
  else return false

def takeWhile (kind : Char → Bool) : Reader (List Char) := do
  loop (fun (taken : List Char) => do
    match ← peek with
    | some c => if kind c then skip; return .inl (c :: taken) else return .inr taken.reverse
    | none => return .inr taken.reverse) []

def push (t : Token) : Reader Unit := modify fun s => { s with pushed := some t }

def unterminated : String := "Unterminated quoted string"

def readLiteral : Reader (List Char) :=
  loop (fun (taken : List Char) => do
    match (← get).rest with
    | '\x27' :: _ => skip; return .inr taken.reverse
    | c :: _ => skip; return .inl (c :: taken)
    | [] => refuse unterminated) []

def readBackquoted (quoted : Bool) : Reader (List Char) :=
  loop (fun (taken : List Char) => do
    match (← get).rest with
    | '\x60' :: _ => skip; return .inr taken.reverse
    | '\\' :: '\n' :: _ => skip; skip; return .inl taken
    | '\\' :: c :: _ =>
      skip
      skip
      let isProtected := c = '\\' || c = '\x60' || c = '$' || (quoted && c = '"')
      return .inl (if isProtected then c :: taken else c :: '\\' :: taken)
    | c :: _ => skip; return .inl (c :: taken)
    | [] => refuse "EOF in backquote substitution") []

def isSpecial (c : Char) : Bool := c.isDigit || c ∈ ['?', '$', '!', '#', '*', '@', '-']

def readName : Reader Octets := do
  match ← peek with
  | some c =>
    if isSpecial c then
      skip
      return c.toString
    else return String.ofList (← takeWhile continuesName)
  | none => return ""

def isMeta (c : Char) : Bool := c ∈ [' ', '\t', '\n', ';', '&', '|', '<', '>', '(', ')']

end Reader

def Token.isSign (t : Token) (text : String) : Bool :=
  match t with
  | sign s => s = text
  | _ => false

def Token.isKeyword (t : Token) (text : String) : Bool :=
  match t with
  | keyword s => s = text
  | _ => false

def Token.name : Token → String
  | eof => "end of file"
  | newline => "newline"
  | sign s => "\"" ++ s ++ "\""
  | keyword s => "\"" ++ s ++ "\""
  | redirection _ _ => "redirection"
  | word _ => "word"

namespace Reader

def unexpected (t : Token) (wanted : Option Token) : Reader α :=
  match wanted with
  | some w => refuse (t.name ++ " unexpected (expecting " ++ w.name ++ ")")
  | none => refuse (t.name ++ " unexpected")

def expectSign (text : String) (t : Token) : Reader Unit := do
  unless t.isSign text do unexpected t (some (.sign text))

def readWhole (self : Readers) (text : List Char) : Reader Command := do
  let outer ← get
  set { outer with rest := text, pushed := none }
  let body ← self.list 2
  match (← get).pushed with
  | some .eof => pure ()
  | some t => unexpected t (some .eof)
  | none => pure ()
  set outer
  return body

def readSubstitution (self : Readers) : Reader Command := do
  let outer := (← get).pushed
  let body ← self.list 2
  expectSign ")" (((← get).pushed).getD .eof)
  modify fun s => { s with pushed := outer }
  return body

def readDollar (self : Readers) (quoted : Bool) : Reader Part := do
  match ← peek with
  | some '(' =>
    skip
    if ← accept '(' then return .arithmetic (← self.parts .sum) quoted
    else return .command (← readSubstitution self) quoted
  | some '\x7b' =>
    skip
    let name ← readName
    if name ≠ "" && (← accept '\x7d') then return .parameter name quoted
    else refuse "Bad substitution"
  | some c =>
    if isNameStart c || isSpecial c then return .parameter (← readName) quoted
    else return .text ['$'] quoted
  | none => return .text ['$'] quoted

def readBackslash (around : Surroundings) (g : Gathered) : Reader Gathered := do
  skip
  let quoted := around ≠ .bare
  match (← get).rest with
  | [] => return g.add '\\' quoted
  | '\n' :: _ => skip; return g
  | c :: _ =>
    skip
    let isProtected := around = .bare || c ∈ ['$', '\x60', '"', '\\']
    return if isProtected then g.add c true else (g.add '\\' quoted).add c quoted

def readParts (self : Readers) (around : Surroundings) : Reader Word := do
  let quoted := around ≠ .bare
  loop (fun (s : Gathered × Nat) => do
    let (g, depth) := s
    let literal (c : Char) (depth : Nat) : Reader ((Gathered × Nat) ⊕ Word) := do
      skip
      return .inl (g.add c quoted, depth)
    match (← get).rest, around with
    | [], .bare => return .inr g.finish
    | [], .quotes => refuse unterminated
    | [], .sum => refuse "Missing '))'"
    | '\\' :: _, _ => return .inl (← readBackslash around g, depth)
    | '$' :: _, _ =>
      skip
      match ← readDollar self quoted with
      | .text cs q => return .inl (cs.foldl (fun g c => g.add c q) g, depth)
      | part => return .inl (part :: g, depth)
    | '\x60' :: _, _ =>
      skip
      let body ← readWhole self (← readBackquoted quoted)
      return .inl (.command body quoted :: g, depth)
    | '\x27' :: _, .bare =>
      skip
      return .inl (.text (← readLiteral).reverse true :: g, depth)
    | '"' :: _, .bare =>
      skip
      return .inl (Gathered.append (.text [] true :: g) (← self.parts .quotes), depth)
    | '"' :: _, .quotes => skip; return .inr g.finish
    | '(' :: _, .sum => literal '(' (depth + 1)
    | ')' :: _, .sum =>
      if depth > 0 then literal ')' (depth - 1)
      else
        skip
        if ← accept ')' then return .inr g.finish else return .inl (g.add ')' quoted, depth)
    | c :: _, .bare => if isMeta c then return .inr g.finish else literal c depth
    | c :: _, _ => literal c depth) ([], 0)

end Reader

end CanvasScript.Shell
