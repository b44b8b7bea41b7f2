import CanvasScript.Diagnostic
import CanvasScript.Fields
import CanvasScript.Tree

namespace CanvasScript

inductive Level where
  | or
  | and
  | equality
  | relational
  | additive
  | multiplicative
deriving DecidableEq, Repr

namespace Level

def tighter? : Level → Option Level
  | or => some and
  | and => some equality
  | equality => some relational
  | relational => some additive
  | additive => some multiplicative
  | multiplicative => none

def operator? : Level → Lexeme → Option BinaryOp
  | or, .sign .pipePipe => some .or
  | or, .keyword .or => some .or
  | and, .sign .ampAmp => some .and
  | and, .keyword .and => some .and
  | equality, .sign .eqEq => some .eq
  | equality, .sign .bangEq => some .ne
  | relational, .sign .lt => some .lt
  | relational, .sign .ltEq => some .le
  | relational, .sign .gt => some .gt
  | relational, .sign .gtEq => some .ge
  | additive, .sign .plus => some (.arith .add)
  | additive, .sign .minus => some (.arith .sub)
  | multiplicative, .sign .star => some (.arith .mul)
  | multiplicative, .sign .slash => some (.arith .div)
  | _, _ => none

end Level

def Lexeme.assignment? : Lexeme → Option (Option ArithOp)
  | .sign .eq => some none
  | .sign .plusEq => some (some .add)
  | .sign .minusEq => some (some .sub)
  | .sign .starEq => some (some .mul)
  | .sign .slashEq => some (some .div)
  | _ => none

def Lexeme.unaryOp? : Lexeme → Option UnaryOp
  | .sign .minus => some .neg
  | .sign .bang => some .not
  | .keyword .not => some .not
  | _ => none

def Lexeme.updateOp? : Lexeme → Option (UpdateOp × Sign)
  | .sign .plusPlus => some (.increment, .plusPlus)
  | .sign .minusMinus => some (.decrement, .minusMinus)
  | _ => none

def Lexeme.literal? : Lexeme → Option Literal
  | .number x => some (.number x)
  | .text s => some (.text s)
  | .keyword .null => some .null
  | .keyword .undefined => some .undefined
  | .keyword .true_ => some (.bool true)
  | .keyword .false_ => some (.bool false)
  | _ => none

def Lexeme.endsReturn : Lexeme → Bool
  | .sign .semicolon => true
  | .keyword .end_ => true
  | .keyword .else_ => true
  | .keyword .elseif => true
  | _ => false

abbrev Ahead := TokenStream

namespace Ahead

def head? (ts : Ahead) : Option Lexeme := ts.tokens.head?.map (·.lexeme)

def position (ts : Ahead) : Position := (ts.tokens.head?.map (·.position)).getD ts.finish

def rest (ts : Ahead) : Ahead := { ts with tokens := ts.tokens.tail }

def startsWith (ts : Ahead) (l : Lexeme → Bool) : Bool := ts.head?.any l

def fail {α : Type} (ts : Ahead) (what : Expectation) : Except Diagnostic α :=
  .error ⟨.expected what ts.head?, ts.position⟩

def expectSign (ts : Ahead) (s : Sign) : Except Diagnostic Ahead :=
  if ts.startsWith (Lexeme.isSign s) then .ok ts.rest else ts.fail (.lexeme (.sign s))

def expectKeyword (ts : Ahead) (k : Keyword) : Except Diagnostic Ahead :=
  if ts.startsWith (Lexeme.isKeyword k) then .ok ts.rest else ts.fail (.lexeme (.keyword k))

def expectName (ts : Ahead) : Except Diagnostic (String × Ahead) :=
  match ts.head? with
  | some (.name s) => .ok (s, ts.rest)
  | _ => ts.fail .identifier

def skipSemicolon (ts : Ahead) : Ahead :=
  if ts.startsWith (Lexeme.isSign .semicolon) then ts.rest else ts

end Ahead

namespace Parse

def close (ts : Ahead) : Except Diagnostic Ahead := do
  let ts ← ts.expectKeyword .end_
  return ts.skipSemicolon

def names : Nat → Ahead → Except Diagnostic (List String × Ahead)
  | 0, ts => ts.fail .identifier
  | n + 1, ts => do
    let (name, ts) ← ts.expectName
    if ts.startsWith (Lexeme.isSign .comma) then
      let (rest, ts) ← names n ts.rest
      return (name :: rest, ts)
    else return ([name], ts)

def params (ts : Ahead) : Except Diagnostic (List String × Ahead) :=
  if ts.startsWith (Lexeme.isSign .rightParen) then .ok ([], ts)
  else names (ts.tokens.length + 1) ts

mutual

/-- An assignment, or a chain of binary operators. The right side is read before the left is
checked to be a target. -/
def expr : Nat → Ahead → Except Diagnostic (Expr × Ahead)
  | 0, ts => ts.fail .expression
  | n + 1, ts => do
    let (left, ts) ← chain n .or ts
    match ts.head?.bind Lexeme.assignment? with
    | none => return (left, ts)
    | some op => do
      let (value, ts) ← expr n ts.rest
      match left.target? with
      | none => .error ⟨.invalidAssignmentTarget, left.position⟩
      | some target =>
        match op with
        | none => return (.assign target value left.position, ts)
        | some op => return (.compound op target value left.position, ts)

def chain : Nat → Level → Ahead → Except Diagnostic (Expr × Ahead)
  | 0, _, ts => ts.fail .expression
  | n + 1, level, ts => do
    let (left, ts) ← operand n level ts
    chainRest n level left ts

def chainRest : Nat → Level → Expr → Ahead → Except Diagnostic (Expr × Ahead)
  | 0, _, _, ts => ts.fail .expression
  | n + 1, level, left, ts =>
    match ts.head?.bind level.operator? with
    | none => .ok (left, ts)
    | some op => do
      let (right, ts) ← operand n level ts.rest
      chainRest n level (.binary op left right left.position) ts

def operand : Nat → Level → Ahead → Except Diagnostic (Expr × Ahead)
  | 0, _, ts => ts.fail .expression
  | n + 1, level, ts =>
    match level.tighter? with
    | some tighter => chain n tighter ts
    | none => unary n ts

def unary : Nat → Ahead → Except Diagnostic (Expr × Ahead)
  | 0, ts => ts.fail .expression
  | n + 1, ts =>
    match ts.head?.bind Lexeme.unaryOp? with
    | none => postfixed n ts
    | some op => do
      let (inner, rest) ← unary n ts.rest
      return (.unary op inner ts.position, rest)

def postfixed : Nat → Ahead → Except Diagnostic (Expr × Ahead)
  | 0, ts => ts.fail .expression
  | n + 1, ts => do
    let (first, ts) ← primary n ts
    let (e, ts) ← accesses n first ts
    match ts.head?.bind Lexeme.updateOp? with
    | none => return (e, ts)
    | some (op, sign) =>
      match e with
      | .variable name p => return (.update op name p, ts.rest)
      | _ => .error ⟨.invalidUpdateTarget sign e.position, ts.position⟩

def accesses : Nat → Expr → Ahead → Except Diagnostic (Expr × Ahead)
  | 0, _, ts => ts.fail .expression
  | n + 1, e, ts =>
    match ts.head? with
    | some (.sign .dot) => do
      let (property, ts) ← ts.rest.expectName
      accesses n (.member e property e.position) ts
    | some (.sign .leftBracket) => do
      let (index, ts) ← expr n ts.rest
      let ts ← ts.expectSign .rightBracket
      accesses n (.index e index e.position) ts
    | some (.sign .leftParen) => do
      let (args, ts) ← items n .rightParen ts.rest
      accesses n (.call e args e.position) ts
    | _ => .ok (e, ts)

def primary : Nat → Ahead → Except Diagnostic (Expr × Ahead)
  | 0, ts => ts.fail .expression
  | n + 1, ts =>
    match ts.head? with
    | some (.name s) => .ok (.variable s ts.position, ts.rest)
    | some (.sign .dollar) => do
      let (name, rest) ← ts.rest.expectName
      return (.variable name ts.position, rest)
    | some (.sign .leftBracket) => do
      let (es, rest) ← items n .rightBracket ts.rest
      return (.array es ts.position, rest)
    | some (.sign .leftBrace) => do
      let (ps, rest) ← properties n ts.rest
      return (.object (Fields.ofList ps).entries ts.position, rest)
    | some (.sign .leftParen) => do
      let (e, rest) ← expr n ts.rest
      let rest ← rest.expectSign .rightParen
      return (e, rest)
    | head =>
      match head.bind Lexeme.literal? with
      | some l => .ok (.literal l ts.position, ts.rest)
      | none => ts.fail .expression

def items : Nat → Sign → Ahead → Except Diagnostic (List Expr × Ahead)
  | 0, _, ts => ts.fail .expression
  | n + 1, closing, ts =>
    if ts.startsWith (Lexeme.isSign closing) then .ok ([], ts.rest) else itemsRest n closing ts

def itemsRest : Nat → Sign → Ahead → Except Diagnostic (List Expr × Ahead)
  | 0, _, ts => ts.fail .expression
  | n + 1, closing, ts => do
    let (e, ts) ← expr n ts
    if ts.startsWith (Lexeme.isSign .comma) then
      let (es, ts) ← itemsRest n closing ts.rest
      return (e :: es, ts)
    else
      let ts ← ts.expectSign closing
      return ([e], ts)

def properties : Nat → Ahead → Except Diagnostic (List (String × Expr) × Ahead)
  | 0, ts => ts.fail .propertyName
  | n + 1, ts =>
    if ts.startsWith (Lexeme.isSign .rightBrace) then .ok ([], ts.rest) else propertiesRest n ts

def propertiesRest : Nat → Ahead → Except Diagnostic (List (String × Expr) × Ahead)
  | 0, ts => ts.fail .propertyName
  | n + 1, ts => do
    let key ← match ts.head? with
      | some (.text s) => Except.ok s
      | some (.name s) => .ok s
      | _ => ts.fail .propertyName
    let ts ← ts.rest.expectSign .colon
    let (value, ts) ← expr n ts
    if ts.startsWith (Lexeme.isSign .comma) then
      let (ps, ts) ← propertiesRest n ts.rest
      return ((key, value) :: ps, ts)
    else
      let ts ← ts.expectSign .rightBrace
      return ([(key, value)], ts)

end

def condition (n : Nat) (ts : Ahead) : Except Diagnostic (Expr × Ahead) := do
  let ts ← ts.expectSign .leftParen
  let (e, ts) ← expr n ts
  let ts ← ts.expectSign .rightParen
  return (e, ts.skipSemicolon)

def returned (n : Nat) (ts : Ahead) : Except Diagnostic (Option Expr × Ahead) :=
  if ts.head?.all Lexeme.endsReturn then .ok (none, ts)
  else do
    let (e, ts) ← expr n ts
    return (some e, ts)

mutual

/-- One statement. `inLoop` says whether a loop is open around it; the body of a function declared
inside a loop still counts as inside. -/
def stmt : Nat → Bool → Ahead → Except Diagnostic (Stmt × Ahead)
  | 0, _, ts => ts.fail .expression
  | n + 1, inLoop, ts =>
    match ts.head? with
    | some (.keyword .if_) => do
      let (c, rest) ← condition n ts.rest
      let (body, rest) ← block n inLoop [.elseif, .else_, .end_] rest
      let (elseifs, rest) ← branches n inLoop rest
      let (otherwise, rest) ← otherwise n inLoop rest
      let rest ← close rest
      return (.branch c body elseifs otherwise ts.position, rest)
    | some (.keyword .while_) => do
      let (c, rest) ← condition n ts.rest
      let (body, rest) ← block n true [.end_] rest
      let rest ← close rest
      return (.while_ c body ts.position, rest)
    | some (.keyword .for_) => do
      let rest ← ts.rest.expectSign .leftParen
      let (counter, rest) ← rest.expectName
      let rest ← rest.expectSign .comma
      let (count, rest) ← expr n rest
      let rest ← rest.expectSign .rightParen
      let (body, rest) ← block n true [.end_] rest.skipSemicolon
      let rest ← close rest
      return (.for_ counter count body ts.position, rest)
    | some (.keyword .function) => do
      let (name, rest) ← ts.rest.expectName
      let rest ← rest.expectSign .leftParen
      let (ps, rest) ← params rest
      let rest ← rest.expectSign .rightParen
      let (body, rest) ← block n inLoop [.end_] rest.skipSemicolon
      let rest ← close rest
      return (.function name ps body ts.position, rest)
    | some (.keyword .return_) => do
      let (value, rest) ← returned n ts.rest
      return (.return_ value ts.position, rest.skipSemicolon)
    | some (.keyword .break_) =>
      if inLoop then .ok (.break_ ts.position, ts.rest.skipSemicolon)
      else .error ⟨.breakOutsideLoop, ts.position⟩
    | some (.keyword .continue_) =>
      if inLoop then .ok (.continue_ ts.position, ts.rest.skipSemicolon)
      else .error ⟨.continueOutsideLoop, ts.position⟩
    | _ => do
      let (e, rest) ← expr n ts
      return (.expr e, rest.skipSemicolon)

def block : Nat → Bool → List Keyword → Ahead → Except Diagnostic (List Stmt × Ahead)
  | 0, _, _, ts => ts.fail .expression
  | n + 1, inLoop, closing, ts =>
    match ts.head? with
    | none => .ok ([], ts)
    | some l =>
      if closing.any (Lexeme.isKeyword · l) then .ok ([], ts)
      else do
        let (s, ts) ← stmt n inLoop ts
        let (rest, ts) ← block n inLoop closing ts
        return (s :: rest, ts)

def branches : Nat → Bool → Ahead → Except Diagnostic (List (Expr × List Stmt) × Ahead)
  | 0, _, ts => ts.fail .expression
  | n + 1, inLoop, ts =>
    if ts.startsWith (Lexeme.isKeyword .elseif) then do
      let (c, ts) ← condition n ts.rest
      let (body, ts) ← block n inLoop [.elseif, .else_, .end_] ts
      let (rest, ts) ← branches n inLoop ts
      return ((c, body) :: rest, ts)
    else .ok ([], ts)

def otherwise : Nat → Bool → Ahead → Except Diagnostic (Option (List Stmt) × Ahead)
  | 0, _, ts => ts.fail .expression
  | n + 1, inLoop, ts =>
    if ts.startsWith (Lexeme.isKeyword .else_) then do
      let (body, ts) ← block n inLoop [.end_] ts.rest.skipSemicolon
      return (some body, ts)
    else .ok (none, ts)

end

/-- A depth that no parse of these tokens reaches: between two tokens that it passes over, the
descent goes down fewer than twenty times. -/
def depth (ts : TokenStream) : Nat := 20 * (ts.tokens.length + 1)

end Parse

def TokenStream.program (ts : TokenStream) : Except Diagnostic (List Stmt) :=
  (Parse.block (Parse.depth ts) false [] ts).map (·.1)

def TokenStream.expression (ts : TokenStream) : Except Diagnostic Expr :=
  (Parse.expr (Parse.depth ts) ts).map (·.1)

end CanvasScript
