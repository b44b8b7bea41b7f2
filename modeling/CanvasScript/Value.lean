import CanvasScript.Fields
import CanvasScript.Tree

namespace CanvasScript

structure ArrayRef where
  index : Nat
deriving DecidableEq, Repr

structure ObjectRef where
  index : Nat
deriving DecidableEq, Repr

/-- A declared function. Programs have different units, and within a program a declaration is known
by its place. -/
structure Function where
  unit : Nat
  decl : FunctionDecl

def Function.same (f g : Function) : Bool :=
  f.unit = g.unit && f.decl.position = g.decl.position

inductive ArrayMethod where
  | push | pop | shift | join | indexOf | includes | slice | reverse
deriving DecidableEq, Repr

inductive TextMethod where
  | toUpperCase | toLowerCase | trim | split | includes | indexOf | slice | replace
deriving DecidableEq, Repr

inductive Method where
  | array (m : ArrayMethod)
  | text (m : TextMethod)
deriving DecidableEq, Repr

def ArrayMethod.name : ArrayMethod → String
  | push => "push" | pop => "pop" | shift => "shift" | join => "join"
  | indexOf => "indexOf" | includes => "includes" | slice => "slice" | reverse => "reverse"

def ArrayMethod.all : List ArrayMethod :=
  [push, pop, shift, join, indexOf, includes, slice, reverse]

def ArrayMethod.ofName? (s : String) : Option ArrayMethod := all.find? (·.name == s)

def TextMethod.name : TextMethod → String
  | toUpperCase => "toUpperCase" | toLowerCase => "toLowerCase" | trim => "trim"
  | split => "split" | includes => "includes" | indexOf => "indexOf" | slice => "slice"
  | replace => "replace"

def TextMethod.all : List TextMethod :=
  [toUpperCase, toLowerCase, trim, split, includes, indexOf, slice, replace]

def TextMethod.ofName? (s : String) : Option TextMethod := all.find? (·.name == s)

def Method.name : Method → String
  | array m => m.name
  | text m => m.name

inductive Builtin where
  | rect | pixel | clear
  | random | round | floor | ceil | abs | sqrt | pow
  | log | warn | error | clearConsole
  | exit | wait
  | readFile | writeFile | readDir
  | exec
deriving DecidableEq, Repr

def Builtin.name : Builtin → String
  | rect => "rect" | pixel => "pixel" | clear => "clear"
  | random => "random" | round => "round" | floor => "floor" | ceil => "ceil" | abs => "abs"
  | sqrt => "sqrt" | pow => "pow"
  | log => "log" | warn => "warn" | error => "error" | clearConsole => "clear"
  | exit => "exit" | wait => "wait"
  | readFile => "readFileSync" | writeFile => "writeFileSync" | readDir => "readdirSync"
  | exec => "execSync"

inductive Native where
  | builtin (b : Builtin)
  | custom (slot : Nat) (name : String) (suspends : Bool)
deriving DecidableEq, Repr

def Native.name : Native → String
  | builtin b => b.name
  | custom _ name _ => name

inductive CallingStyle where
  | async
  | stateful
  | statefulAsync
deriving DecidableEq, Repr

def CallingStyle.name : CallingStyle → String
  | async => "async"
  | stateful => "stateful"
  | statefulAsync => "stateful async"

/-- Of the functions that every host has, only the one that clears the canvas looks at the state,
for the background. -/
def Native.style : Native → CallingStyle
  | builtin .clear => .stateful
  | builtin _ => .async
  | custom _ _ suspends => if suspends then .statefulAsync else .stateful

inductive Value where
  | number (x : Float)
  | text (s : String)
  | bool (b : Bool)
  | null
  | undefined
  | array (r : ArrayRef)
  | object (r : ObjectRef)
  | function (f : Function)
  | native (n : Native)
  | method (receiver : Value) (m : Method)

instance : Inhabited Value := ⟨.undefined⟩

inductive Kind where
  | number | text | bool | null | undefined | array | object | function
deriving DecidableEq, Repr

def Kind.name : Kind → String
  | number => "number" | text => "string" | bool => "boolean" | null => "null"
  | undefined => "undefined" | array => "array" | object => "object" | function => "function"

namespace Value

def kind : Value → Kind
  | number _ => .number
  | text _ => .text
  | bool _ => .bool
  | null => .null
  | undefined => .undefined
  | array _ => .array
  | object _ => .object
  | function _ => .function
  | native _ => .function
  | method _ _ => .function

def isNullish : Value → Bool
  | null => true
  | undefined => true
  | _ => false

def isCallable (v : Value) : Bool := v.kind = .function

def truthy : Value → Bool
  | bool b => b
  | number x => x != 0.0 && !x.isNaN
  | text s => !s.isEmpty
  | null => false
  | undefined => false
  | _ => true

end Value

end CanvasScript
