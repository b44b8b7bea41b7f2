import CanvasScript.Position

namespace CanvasScript

inductive Literal where
  | number (value : Float)
  | text (value : String)
  | bool (value : Bool)
  | null
  | undefined

inductive UnaryOp where
  | neg
  | not
deriving DecidableEq, Repr

inductive UpdateOp where
  | increment
  | decrement
deriving DecidableEq, Repr

inductive ArithOp where
  | add
  | sub
  | mul
  | div
deriving DecidableEq, Repr

inductive BinaryOp where
  | arith (op : ArithOp)
  | eq | ne
  | lt | le | gt | ge
  | and | or
deriving DecidableEq, Repr

def ArithOp.symbol : ArithOp → String
  | add => "+"
  | sub => "-"
  | mul => "*"
  | div => "/"

def BinaryOp.symbol : BinaryOp → String
  | arith op => op.symbol
  | eq => "==" | ne => "!="
  | lt => "<" | le => "<=" | gt => ">" | ge => ">="
  | and => "&&" | or => "||"

def BinaryOp.all : List BinaryOp :=
  [arith .add, arith .sub, arith .mul, arith .div, eq, ne, lt, le, gt, ge, and, or]

def UpdateOp.symbol : UpdateOp → String
  | increment => "++"
  | decrement => "--"

def UpdateOp.step : UpdateOp → ArithOp
  | increment => .add
  | decrement => .sub

mutual

inductive Expr where
  | literal (value : Literal) (position : Position)
  | variable (name : String) (position : Position)
  | assign (target : Target) (value : Expr) (position : Position)
  | compound (op : ArithOp) (target : Target) (value : Expr) (position : Position)
  | update (op : UpdateOp) (name : String) (position : Position)
  | unary (op : UnaryOp) (operand : Expr) (position : Position)
  | binary (op : BinaryOp) (left right : Expr) (position : Position)
  | call (callee : Expr) (args : List Expr) (position : Position)
  | member (object : Expr) (property : String) (position : Position)
  | index (object index : Expr) (position : Position)
  | array (items : List Expr) (position : Position)
  | object (properties : List (String × Expr)) (position : Position)

inductive Target where
  | variable (name : String)
  | member (object : Expr) (property : String)
  | index (object index : Expr)

end

instance : Inhabited Expr := ⟨.literal .null .start⟩

def Expr.position : Expr → Position
  | .literal _ p | .variable _ p | .assign _ _ p | .compound _ _ _ p | .update _ _ p
  | .unary _ _ p | .binary _ _ _ p | .call _ _ p | .member _ _ p | .index _ _ p
  | .array _ p | .object _ p => p

def Expr.target? : Expr → Option Target
  | .variable name _ => some (.variable name)
  | .member o property _ => some (.member o property)
  | .index o i _ => some (.index o i)
  | _ => none

inductive Stmt where
  | function (name : String) (params : List String) (body : List Stmt) (position : Position)
  | return_ (value : Option Expr) (position : Position)
  | branch (condition : Expr) (body : List Stmt) (elseifs : List (Expr × List Stmt))
      (otherwise : Option (List Stmt)) (position : Position)
  | while_ (condition : Expr) (body : List Stmt) (position : Position)
  | for_ (counter : String) (count : Expr) (body : List Stmt) (position : Position)
  | break_ (position : Position)
  | continue_ (position : Position)
  | expr (e : Expr)

instance : Inhabited Stmt := ⟨.expr default⟩

structure FunctionDecl where
  name : String
  params : List String
  body : List Stmt
  position : Position

end CanvasScript
