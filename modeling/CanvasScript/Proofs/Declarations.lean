import CanvasScript.Run
import CanvasScript.Tree

namespace CanvasScript

def Target.parts : Target → List Expr
  | .variable _ => []
  | .member owner _ => [owner]
  | .index owner i => [owner, i]

def Expr.parts : Expr → List Expr
  | .assign target value _ => target.parts ++ [value]
  | .compound _ target value _ => target.parts ++ [value]
  | .unary _ operand _ => [operand]
  | .binary _ left right _ => [left, right]
  | .call callee args _ => callee :: args
  | .member owner _ _ => [owner]
  | .index owner i _ => [owner, i]
  | .array items _ => items
  | .object ps _ => ps.map (·.2)
  | _ => []

def Stmt.exprs : Stmt → List Expr
  | .return_ (some e) _ => [e]
  | .branch c _ elseifs _ _ => c :: elseifs.map (·.1)
  | .while_ c _ _ => [c]
  | .for_ _ count _ _ => [count]
  | .expr e => [e]
  | _ => []

/-- The statements right inside a statement, those of a declared function apart. -/
def Stmt.inner : Stmt → List Stmt
  | .branch _ body elseifs otherwise _ => body ++ elseifs.flatMap (·.2) ++ otherwise.getD []
  | .while_ _ body _ => body
  | .for_ _ _ body _ => body
  | _ => []

def Stmt.isLoop : Stmt → Bool
  | .while_ _ _ _ => true
  | .for_ _ _ _ _ => true
  | _ => false

def Stmt.within : Stmt → List Stmt
  | .function _ _ body _ => body
  | s => s.inner

theorem Stmt.mem_within_of_mem_inner {s t : Stmt} (h : t ∈ s.inner) : t ∈ s.within := by
  match s with
  | .function _ _ _ _ => cases h
  | .return_ _ _ | .branch _ _ _ _ _ | .while_ _ _ _ | .for_ _ _ _ _ | .break_ _ | .continue_ _
  | .expr _ => exact h

def FunctionDecl.stmt (d : FunctionDecl) : Stmt := .function d.name d.params d.body d.position

inductive Stmt.Declares (d : FunctionDecl) : Stmt → Prop
  | self : Declares d d.stmt
  | within {s t : Stmt} : t ∈ s.within → Declares d t → Declares d s

theorem Stmt.declares_iff (s : Stmt) (d : FunctionDecl) :
    s.Declares d ↔ s = d.stmt ∨ ∃ t ∈ s.within, t.Declares d := by
  constructor
  · rintro (_ | ⟨hm, hd⟩)
    · exact .inl rfl
    · exact .inr ⟨_, hm, hd⟩
  · rintro (rfl | ⟨t, hm, hd⟩)
    · exact .self
    · exact .within hm hd

theorem Stmt.Declares.trans {s : Stmt} {d e : FunctionDecl} (hd : s.Declares d)
    (he : d.stmt.Declares e) : s.Declares e := by
  induction hd with
  | self => exact he
  | within hm _ ih => exact .within hm ih

/-- The statement holds a `return`, `break` or `continue` that none of its loops catches, outside of
the functions that it declares. -/
inductive Stmt.Lets : Signal → Stmt → Prop
  | returned (v : Option Expr) (p : Position) : Lets .returned (.return_ v p)
  | break_ (p : Position) : Lets .break_ (.break_ p)
  | continue_ (p : Position) : Lets .continue_ (.continue_ p)
  | inner {sig : Signal} {s t : Stmt} : t ∈ s.inner → Lets sig t →
      sig = .returned ∨ s.isLoop = false → Lets sig s

def Signal.Leaves (W : Signal → Prop) (ss : List Stmt) (sig : Signal) : Prop :=
  W sig ∨ ∃ t ∈ ss, t.Lets sig

theorem Signal.Leaves.mono {W : Signal → Prop} {ss ts : List Stmt} (h : ∀ t ∈ ss, t ∈ ts)
    (sig : Signal) : Leaves W ss sig → Leaves W ts sig
  | .inl hw => .inl hw
  | .inr ⟨t, ht, hl⟩ => .inr ⟨t, h t ht, hl⟩

theorem Signal.Leaves.inner {W : Signal → Prop} {s : Stmt} (h : s.isLoop = false) (sig : Signal) :
    Leaves W s.inner sig → Leaves W [s] sig
  | .inl hw => .inl hw
  | .inr ⟨_, ht, hl⟩ => .inr ⟨s, List.mem_singleton_self s, .inner ht hl (.inr h)⟩

def Value.Admits (V : Value → Prop) (unit : Nat) (ss : List Stmt) : Prop :=
  ∀ t ∈ ss, ∀ d, t.Declares d → V (.function ⟨unit, d⟩)

theorem Value.Admits.mono {V : Value → Prop} {unit : Nat} {ss ts : List Stmt}
    (h : Admits V unit ts) (hs : ∀ t ∈ ss, t ∈ ts) : Admits V unit ss :=
  fun t ht => h t (hs t ht)

theorem Value.Admits.inner {V : Value → Prop} {unit : Nat} {s : Stmt} (h : Admits V unit [s]) :
    Admits V unit s.inner :=
  fun _ ht d hd => h s (List.mem_singleton_self s) d (.within (Stmt.mem_within_of_mem_inner ht) hd)

end CanvasScript
