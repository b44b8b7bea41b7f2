import CanvasScript.Proofs.Contract.Runs
import CanvasScript.Proofs.Termination.Weights

namespace CanvasScript

open CanvasScript.Action (Keeps)

variable {σ : Type} {P : Stmt → Prop} {bound : Nat}

inductive Stmt.Every (P : Stmt → Prop) : Stmt → Prop
  | intro {s : Stmt} : P s → (∀ t ∈ s.within, Every P t) → Every P s

theorem Stmt.Every.mono {Q : Stmt → Prop} (h : ∀ s, P s → Q s) {s : Stmt} (hs : s.Every P) :
    s.Every Q := by
  induction hs with
  | intro hp _ ih => exact .intro (h _ hp) ih

def Stmt.WhileFree (s : Stmt) : Prop := s.Every fun t => ∀ c body p, t ≠ .while_ c body p

structure Stmt.Tame (P : Stmt → Prop) (bound : Nat) (s : Stmt) : Prop where
  every : s.Every P
  light : s.weight ≤ bound

namespace Stmt.Tame

variable {s : Stmt} (h : s.Tame P bound)
include h

theorem within : ∀ t ∈ s.within, t.Tame P bound := by
  intro t ht
  obtain ⟨⟨-, every⟩, light⟩ := h
  have := Weight.lt_total_of_mem weight ht
  rw [weight_eq] at light
  exact ⟨every t ht, by omega⟩

theorem declares {d : FunctionDecl} (hd : s.Declares d) : d.stmt.Tame P bound := by
  induction hd with
  | self => exact h
  | within ht _ ih => exact ih (h.within _ ht)

end Stmt.Tame

def Value.Tame (P : Stmt → Prop) (bound : Nat) (v : Value) : Prop :=
  ∀ f, v = .function f → f.decl.stmt.Tame P bound

theorem Value.onlyFunctions_tame : OnlyFunctions (Tame P bound) := by
  constructor
  · rintro v hv f rfl
    cases hv
  · intro v m f h
    cases h

theorem Value.admits_tame {ss : List Stmt} (h : ∀ t ∈ ss, t.Tame P bound) (unit : Nat) :
    Admits (Tame P bound) unit ss := by
  rintro t ht d hd f hf
  cases hf
  exact (h t ht).declares hd

theorem upholds_tame (host : Host σ) :
    Evaluator.Upholds (.plain host) (Value.Tame P bound) (fun _ => True) (fun _ => True) where
  values := Value.onlyFunctions_tame
  declared f hf := Value.admits_tame (hf f rfl).within f.unit
  signals f _ t _ sig _ := .inr trivial
  builtin b args _ _ := Builtin.call_keeps Value.onlyFunctions_tame b args fun _ _ _ _ => trivial
  custom c hc := by simp [Embedding.plain] at hc

def State.Tame (P : Stmt → Prop) (bound : Nat) (s : State σ) : Prop :=
  s.Holds (Value.Tame P bound) fun _ => True

abbrev Action.KeepsTame {α : Type} (P : Stmt → Prop) (bound : Nat) (Q : α → Prop)
    (x : Action σ α) : Prop :=
  Keeps (Value.Tame P bound) (fun _ => True) Q (Stop.Within (Value.Tame P bound) fun _ => True) x

namespace Job

def Tame (P : Stmt → Prop) (bound : Nat) : Job → Prop
  | block _ ss => ∀ t ∈ ss, t.Tame P bound
  | stmt _ s => s.Tame P bound
  | branches _ bs otherwise => ∀ t ∈ bs.flatMap (·.2) ++ otherwise.getD [], t.Tame P bound
  | whileLoop _ _ _ => False
  | forLoop _ _ count body _ => count ≤ Number.pow2 53 ∧ ∀ t ∈ body, t.Tame P bound
  | properties _ fields => ∀ e ∈ fields.entries, e.2.Tame P bound
  | interpolated _ segments _ => ∀ source, .expr source ∈ segments → '}' ∉ source.toList
  | call callee args _ => callee.Tame P bound ∧ ∀ v ∈ args, v.Tame P bound
  | _ => True

def Yields (P : Stmt → Prop) (bound : Nat) : (j : Job) → j.Result → Prop
  | expr _, v => v.Tame P bound
  | exprs _, vs => ∀ v ∈ vs, v.Tame P bound
  | properties _ _, fields => ∀ e ∈ fields.entries, e.2.Tame P bound
  | call _ _ _, v => v.Tame P bound
  | _, _ => True

theorem keeps_tame (host : Host σ) (n : Nat) {j : Job} (h : j.Tame P bound) :
    Action.KeepsTame P bound (j.Yields P bound) (j.run (.plain host) n) := by
  have k := Evaluator.kept (V := Value.Tame P bound) (upholds_tame host) n
  cases j with
  | block unit ss => exact (k.block unit ss (Value.admits_tame h unit)).stops fun _ _ => trivial
  | stmt unit s =>
    have hs := Value.admits_tame (List.forall_mem_singleton.2 h) unit
    exact (k.stmt unit s hs).stops fun _ _ => trivial
  | branches unit bs otherwise =>
    exact (k.branches unit bs otherwise (Value.admits_tame h unit)).stops fun _ _ => trivial
  | whileLoop => exact h.elim
  | forLoop unit counter count body i =>
    have hl := k.forLoop unit counter default count body i .start (Value.admits_tame h.2 unit)
    exact hl.stops fun _ _ => trivial
  | expr e => exact k.expr e
  | exprs es => exact k.exprs es
  | properties ps fields => exact k.properties ps fields h
  | interpolated p segments done => exact k.interpolated p segments done
  | place target => exact k.place target
  | call callee args line => exact k.call callee args line h.1 h.2

end Job

end CanvasScript
