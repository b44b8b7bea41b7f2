import CanvasScript.Proofs.Contract.Runs
import CanvasScript.Proofs.Evaluations.Progress
import CanvasScript.Proofs.Layout.Evaluation
import Mathlib

namespace CanvasScript

open CanvasScript.Action

variable {σ : Type}

section Endings

def RuntimeError.unplaced (e : RuntimeError) : RuntimeError := ⟨0, e.failure.unplaced⟩

def Ending.unplaced : Ending → Ending
  | .failed e => .failed e.unplaced
  | e => e

theorem Ending.unplaced_of_alike {ρ : Renaming} {r q : Except Stop Unit} (h : Alike ρ id r q) :
    (Ending.of r).unplaced = (Ending.of q).unplaced := by
  cases h with
  | ok a => rfl
  | error h =>
    cases h with
    | error h => exact congrArg (fun f => Ending.failed ⟨0, f⟩) h
    | _ => rfl

end Endings

section Runs

def Program.moved (ρ : Renaming) (p : Program) : Program :=
  ⟨ρ.unit p.unit, Stmt.movedList (ρ.place p.unit) p.statements⟩

theorem Program.run_moved {env : Embedding σ} (hc : env.IgnoresPlaces) {ρ : Renaming} (p : Program)
    (fuel : Nat) {x y : State σ} (h : x.Shifted ρ y) :
    (p.run env fuel x).1.unplaced = ((p.moved ρ).run env fuel y).1.unplaced ∧
      (p.run env fuel x).2.Shifted ρ ((p.moved ρ).run env fuel y).2 := by
  have start := h.withBindings h.bindings fun _ => 0
  have run := (Evaluator.relocated hc ρ fuel).block p.unit p.statements _ _ start
  exact ⟨Ending.unplaced_of_alike run.2, run.1⟩

end Runs

section Programs

def Renaming.between (u w : Nat) {τ : Position → Position} (h : Function.Injective τ) :
    Renaming where
  unit := Equiv.swap u w
  place v := if v = u then τ else id
  unit_injective := (Equiv.swap u w).injective
  place_injective v := by
    split
    · exact h
    · exact Function.injective_id

def State.Lacks (unit : Nat) (s : State σ) : Prop :=
  s.Holds (fun v => ∀ f, v = .function f → f.unit ≠ unit) fun _ => True

variable {u w : Nat} {τ : Position → Position} (hτ : Function.Injective τ)

theorem Value.moved_between {v : Value} (hu : ∀ f, v = .function f → f.unit ≠ u)
    (hw : ∀ f, v = .function f → f.unit ≠ w) : v.moved (.between u w hτ) = v := by
  cases v with
  | function f =>
    have unit := Equiv.swap_apply_of_ne_of_ne (hu f rfl) (hw f rfl)
    have place : (if f.unit = u then τ else id) = id := if_neg (hu f rfl)
    simp only [Value.moved, Function.moved, Renaming.between, unit, place, FunctionDecl.moved_id]
  | _ => rfl

theorem Heap.Every.array {V : Value → Prop} {h : Heap} (hh : h.Every V) {xs : Array Value}
    (hx : xs ∈ h.arrays) : ∀ v ∈ xs, V v := by
  obtain ⟨i, hi, rfl⟩ := Array.getElem_of_mem hx
  have items := hh.items ⟨i⟩
  rwa [Heap.items, Array.getD_eq_getD_getElem?, Array.getElem?_eq_getElem hi] at items

theorem Heap.Every.object {V : Value → Prop} {h : Heap} (hh : h.Every V) {fs : Fields Value}
    (hf : fs ∈ h.objects) : ∀ e ∈ fs.entries, V e.2 := by
  obtain ⟨i, hi, rfl⟩ := Array.getElem_of_mem hf
  have fields := hh.fields ⟨i⟩
  rwa [Heap.fields, Array.getD_eq_getD_getElem?, Array.getElem?_eq_getElem hi] at fields

theorem Heap.moved_eq {ρ : Renaming} {h : Heap} (hh : h.Every fun v => v.moved ρ = v) :
    h.moved ρ = h := by
  have arrays : h.arrays.map (Array.map (Value.moved ρ)) = h.arrays.map id := by
    apply Array.map_congr_left
    intro xs hx
    exact (Array.map_congr_left (hh.array hx)).trans (Array.map_id _)
  have objects : h.objects.map (Fields.map (Value.moved ρ)) = h.objects.map id := by
    apply Array.map_congr_left
    intro fs hf
    have entries : fs.entries.map (fun e => (e.1, e.2.moved ρ)) = fs.entries.map id :=
      List.map_congr_left fun e he => congrArg (e.1, ·) (hh.object hf e he)
    rw [Fields.map, entries, List.map_id]
    rfl
  rw [moved, arrays, objects, Array.map_id, Array.map_id]

theorem State.Lacks.shifted {x : State σ} (hu : x.Lacks u) (hw : x.Lacks w) :
    x.Shifted (.between u w hτ) x := by
  refine ⟨fun name => ?_, ?_, rfl⟩
  · cases hv : x.bindings[name]? with
    | none => rfl
    | some v =>
      rw [Option.map_some, Value.moved_between hτ (hu.bindings name v hv) (hw.bindings name v hv)]
  · refine (Heap.moved_eq ⟨fun r v hv => ?_, fun r e he => ?_⟩).symm
    · exact Value.moved_between hτ (hu.heap.items r v hv) (hw.heap.items r v hv)
    · exact Value.moved_between hτ (hu.heap.fields r e he) (hw.heap.fields r e he)

end Programs

section Fresh

def State.Issued (s : State σ) : Prop :=
  s.Holds (fun v => ∀ f, v = .function f → f.unit < s.units) fun _ => True

theorem State.Issued.lacks {s : State σ} (h : s.Issued) {unit : Nat} (hu : s.units ≤ unit) :
    s.Lacks unit := by
  have other (v : Value) (hv : ∀ f, v = .function f → f.unit < s.units) :
      ∀ f, v = .function f → f.unit ≠ unit := by
    intro f hf
    have := hv f hf
    omega
  exact ⟨fun name v hv => other v (h.bindings name v hv),
    ⟨fun r v hv => other v (h.heap.items r v hv), fun r e he => other e.2 (h.heap.fields r e he)⟩,
    trivial⟩

theorem State.Issued.compile_lacks {s t : State σ} (h : s.Issued) {source : String} {p : Program}
    (hp : s.compile source = (.ok p, t)) : t.Lacks p.unit := by
  have fresh : s.Lacks s.units := h.lacks le_rfl
  rw [State.compile] at hp
  split at hp
  · cases hp
    exact ⟨fresh.bindings, fresh.heap, trivial⟩
  · cases hp

theorem State.gauge_units {env : Embedding σ} (h : env.customs = []) : Gauge env State.units where
  beside := by
    rintro s _ ⟨_, _, _, rfl⟩
    rfl
  custom c hc := by simp [h] at hc
  deeper _ h := h
  back h := h

theorem Value.onlyFunctions_below (n : Nat) :
    Value.OnlyFunctions fun v => ∀ f, v = .function f → f.unit < n where
  data v hv f hf := by
    rw [hf] at hv
    cases hv
  method v m f hf := by cases hf

theorem Evaluator.upholds_below (host : Host σ) (n : Nat) :
    Upholds (.plain host) (fun v => ∀ f, v = .function f → f.unit < n) (fun _ => True)
      fun _ => True where
  values := Value.onlyFunctions_below n
  declared f hf t _ d _ g hg := by
    cases hg
    exact hf f rfl
  signals _ _ _ _ _ _ := .inr trivial
  builtin b args _ _ :=
    Builtin.call_keeps (Value.onlyFunctions_below n) b args fun _ _ _ _ => trivial
  custom c hc := by simp [Embedding.plain] at hc

theorem State.initial_issued (host : Host σ) (settings : Settings) (world : σ) :
    (State.initial (.plain host) settings world).Issued :=
  State.initial_holds (Value.onlyFunctions_below _) host settings trivial
    fun _ _ _ b _ f hf => by cases hf

theorem interpret_issued (host : Host σ) (fuel : Nat) (source : String) {s : State σ}
    (h : s.Issued) : (interpret (.plain host) fuel source s).2.Issued := by
  unfold interpret State.compile
  cases parseProgram source .start with
  | error problems => exact h
  | ok body =>
    let t : State σ := { s with units := s.units + 1, depth := 0 }
    have later : t.Holds (fun v => ∀ f, v = .function f → f.unit < s.units + 1) fun _ => True :=
      ⟨fun name v hv f hf => (h.bindings name v hv f hf).trans (Nat.lt_succ_self _),
        ⟨fun r v hv f hf => (h.heap.items r v hv f hf).trans (Nat.lt_succ_self _),
          fun r e he f hf => (h.heap.fields r e he f hf).trans (Nat.lt_succ_self _)⟩, trivial⟩
    have admitted : Value.Admits (fun v => ∀ f, v = .function f → f.unit < s.units + 1) s.units
        body := by
      intro t _ d _ f hf
      cases hf
      exact Nat.lt_succ_self _
    have kept := (Evaluator.kept (Evaluator.upholds_below host (s.units + 1)) fuel).block s.units
      body admitted t later
    have units : (Evaluator.block (.plain host) fuel s.units body t).2.units = s.units + 1 :=
      Job.run_gauge (State.gauge_units rfl) fuel (.block s.units body) t
    rw [← units] at kept
    exact kept.1

theorem interpretAll_issued (host : Host σ) (sources : List (String × Nat)) {s : State σ}
    (h : s.Issued) : (interpretAll (.plain host) sources s).2.Issued := by
  induction sources generalizing s with
  | nil => exact h
  | cons source rest ih => exact ih (interpret_issued host source.2 source.1 h)

end Fresh

section Sources

theorem parseProgram_ofSource {source : String} {ts : TokenStream}
    (h : TokenStream.ofSource source .start = .ok ts) :
    parseProgram source .start = ts.program.mapError fun d => [d] := by
  rw [parseProgram, h]
  rfl

variable {a b : String} {ts us : TokenStream} (ha : TokenStream.ofSource a .start = .ok ts)
  (hb : TokenStream.ofSource b .start = .ok us)
  (h : ts.tokens.map Token.lexeme = us.tokens.map Token.lexeme)
include ha hb h

theorem State.compile_same (s s' : State σ) :
    (∃ d e, s.compile a = (.error [d], s) ∧ s'.compile b = (.error [e], s') ∧ d.code = e.code) ∨
    ∃ p, ∃ ρ : Renaming, s.compile a = (.ok p, { s with units := s.units + 1 }) ∧
      s'.compile b = (.ok (p.moved ρ), { s' with units := s'.units + 1 }) ∧
      ∀ x : State σ, x.Lacks p.unit → x.Lacks (p.moved ρ).unit → x.Shifted ρ x := by
  obtain ⟨τ, hτ, rfl⟩ := TokenStream.exists_moved (TokenStream.ofSource_nodup ha)
    (TokenStream.ofSource_nodup hb) h
  rw [State.compile, State.compile, parseProgram_ofSource ha, parseProgram_ofSource hb,
    TokenStream.program_moved]
  cases ts.program with
  | error d => exact .inl ⟨d, d.moved τ, rfl, rfl, (Diagnostic.code_moved τ d).symm⟩
  | ok body =>
    let ρ : Renaming := .between s.units s'.units hτ
    have unit : ρ.unit s.units = s'.units := Equiv.swap_apply_left s.units s'.units
    have place : ρ.place s.units = τ := if_pos rfl
    have moved : (⟨s.units, body⟩ : Program).moved ρ = ⟨s'.units, Stmt.movedList τ body⟩ := by
      rw [Program.moved, unit, place]
    refine .inr ⟨⟨s.units, body⟩, ρ, rfl, ?_, ?_⟩
    · rw [moved]
      rfl
    · rw [moved]
      exact fun x => State.Lacks.shifted hτ

theorem interpret_same (host : Host σ) (fuel : Nat) {s : State σ} (hs : s.Issued) :
    let x := interpret (.plain host) fuel a s
    let y := interpret (.plain host) fuel b s
    (∃ d e, x = (.rejected [d], s) ∧ y = (.rejected [e], s) ∧ d.code = e.code) ∨
    ∃ e f, ∃ ρ : Renaming, x.1 = .ended e ∧ y.1 = .ended f ∧ e.unplaced = f.unplaced ∧
      x.2.Shifted ρ y.2 := by
  intro x y
  rcases State.compile_same ha hb h s s with ⟨d, e, hd, he, code⟩ | ⟨p, ρ, hp, hq, fixed⟩
  · refine .inl ⟨d, e, ?_, ?_, code⟩
    · simp only [x, interpret, hd]
    · simp only [y, interpret, he]
  · have start := fixed _ (hs.compile_lacks hp) (hs.compile_lacks hq)
    have run := p.run_moved (Embedding.plain_ignoresPlaces host) fuel start
    refine .inr ⟨_, _, ρ, ?_, ?_, run.1, ?_⟩
    · simp only [x, interpret, hp]
    · simp only [y, interpret, hq]
    · simp only [x, y, interpret, hp, hq]
      exact run.2

end Sources

theorem layout_without_effect (host : Host σ)
    (customs : List (CustomFunction (σ × List Request)))
    (hc : Embedding.IgnoresPlaces ⟨host.traced, customs⟩) {a b : String} {ts us : TokenStream}
    (ha : TokenStream.ofSource a .start = .ok ts) (hb : TokenStream.ofSource b .start = .ok us)
    (h : ts.tokens.map Token.lexeme = us.tokens.map Token.lexeme)
    (s s' : State (σ × List Request)) :
    let env : Embedding (σ × List Request) := ⟨host.traced, customs⟩
    (∃ d e, (s.compile a).1 = .error [d] ∧ (s'.compile b).1 = .error [e] ∧ d.code = e.code) ∨
    ∃ p q, ∃ ρ : Renaming, (s.compile a).1 = .ok p ∧ (s'.compile b).1 = .ok q ∧
      (∀ x : State (σ × List Request), x.Lacks p.unit → x.Lacks q.unit → x.Shifted ρ x) ∧
      ∀ fuel (x y : State (σ × List Request)), x.Shifted ρ y →
        (p.run env fuel x).1.unplaced = (q.run env fuel y).1.unplaced ∧
        (p.run env fuel x).2.world = (q.run env fuel y).2.world ∧
        (p.run env fuel x).2.Shifted ρ (q.run env fuel y).2 := by
  intro env
  rcases State.compile_same ha hb h s s' with ⟨d, e, hd, he, code⟩ | ⟨p, ρ, hp, hq, fixed⟩
  · exact .inl ⟨d, e, congrArg Prod.fst hd, congrArg Prod.fst he, code⟩
  · refine .inr ⟨p, p.moved ρ, ρ, congrArg Prod.fst hp, congrArg Prod.fst hq, fixed,
      fun fuel x y hxy => ?_⟩
    have run := p.run_moved hc fuel hxy
    exact ⟨run.1, run.2.world.symm, run.2⟩

def tight : String := "function f() end r = f == g"

def loose : String := "  function f() end\nr = f == g # compared"

theorem tight_scanned : ∃ ts us, TokenStream.ofSource tight .start = .ok ts ∧
    TokenStream.ofSource loose .start = .ok us ∧
    ts.tokens.map Token.lexeme = us.tokens.map Token.lexeme := by
  have lexemes (source : String) (h : (scanFrom 0 .start source.toList).diagnostics = []) :
      TokenStream.ofSource source .start = .ok ⟨(scanFrom 0 .start source.toList).tokens,
        (scanFrom 0 .start source.toList).finish⟩ := by
    simp only [TokenStream.ofSource, h, List.isEmpty_nil, if_true]
  refine ⟨_, _, lexemes tight (by cbv), lexemes loose (by cbv), ?_⟩
  cbv

def compared (declared first second target : Position) : List Stmt :=
  [.function "f" [] [] declared,
    .expr (.assign (.variable "r") (.binary .eq (.variable "f" first) (.variable "g" second) first)
      target)]

theorem tight_parsed : parseProgram tight .start =
    .ok (compared ⟨1, 1⟩ ⟨1, 22⟩ ⟨1, 27⟩ ⟨1, 18⟩) := by
  cbv

theorem loose_parsed : parseProgram loose .start =
    .ok (compared ⟨1, 3⟩ ⟨2, 5⟩ ⟨2, 10⟩ ⟨2, 1⟩) := by
  cbv

theorem tight_and_loose_run_alike :
    let host : Host (Unit × List Request) := (Host.silent Unit).traced
    let env : Embedding (Unit × List Request) := ⟨host, Extras.all host⟩
    let s := State.initial env .standard ((), [])
    env.IgnoresPlaces ∧ ∃ ts us, TokenStream.ofSource tight .start = .ok ts ∧
      TokenStream.ofSource loose .start = .ok us ∧
      ts.tokens.map Token.lexeme = us.tokens.map Token.lexeme ∧
      ∃ p q, ∃ ρ : Renaming, (s.compile tight).1 = .ok p ∧ (s.compile loose).1 = .ok q ∧
        (∀ x : State (Unit × List Request), x.Lacks p.unit → x.Lacks q.unit → x.Shifted ρ x) ∧
        ∀ fuel (x y : State (Unit × List Request)), x.Shifted ρ y →
          (p.run env fuel x).1.unplaced = (q.run env fuel y).1.unplaced ∧
          (p.run env fuel x).2.world = (q.run env fuel y).2.world ∧
          (p.run env fuel x).2.Shifted ρ (q.run env fuel y).2 := by
  intro host env s
  obtain ⟨ts, us, ht, hu, same⟩ := tight_scanned
  refine ⟨Extras.ignoresPlaces host, ts, us, ht, hu, same, ?_⟩
  rcases layout_without_effect (.silent Unit) (Extras.all host) (Extras.ignoresPlaces host) ht hu
    same s s with ⟨d, -, rejected, -⟩ | accepted
  · rw [State.compile, tight_parsed] at rejected
    cases rejected
  · exact accepted

theorem compared_run (unit : Nat) (declared first second target : Position) (x : State Unit)
    {g : Function} (hg : x.bindings["g"]? = some (.function g)) :
    ((⟨unit, compared declared first second target⟩ : Program).run (.plain (.silent Unit)) 10
      x).2.bindings["r"]? = some (.bool (Function.same ⟨unit, ⟨"f", [], [], declared⟩⟩ g)) := by
  have equal (h : Heap) (f : Function) :
      Value.binary h .eq (.function f) (.function g) = .bool (f.same g) := rfl
  simp [Program.run, compared, Evaluator.block, Evaluator.stmt, Evaluator.expr, Evaluator.place,
    Action.bind_apply, Action.pure_apply, Action.setVariable, Action.variable_, Action.onHeap,
    Action.writePlace, Std.HashMap.getElem?_insert, hg, equal]

theorem earlier_function_recognised :
    ¬ ∀ (a b : String) (ts us : TokenStream) (s s' x : State Unit) (p q : Program) (fuel : Nat),
      TokenStream.ofSource a .start = .ok ts → TokenStream.ofSource b .start = .ok us →
      ts.tokens.map Token.lexeme = us.tokens.map Token.lexeme →
      (s.compile a).1 = .ok p → (s'.compile b).1 = .ok q →
      ∃ ρ : Renaming, (p.run (.plain (.silent Unit)) fuel x).2.Shifted ρ
        (q.run (.plain (.silent Unit)) fuel x).2 := by
  intro alike
  obtain ⟨ts, us, ht, hu, same⟩ := tight_scanned
  let s := State.initial (.plain (.silent Unit)) .standard ()
  let s' : State Unit := { s with units := 1 }
  let f : Function := ⟨0, ⟨"f", [], [], ⟨1, 1⟩⟩⟩
  let x : State Unit := { s with units := 2, bindings := s.bindings.insert "g" (.function f) }
  have first : (s.compile tight).1 = .ok ⟨0, compared ⟨1, 1⟩ ⟨1, 22⟩ ⟨1, 27⟩ ⟨1, 18⟩⟩ := by
    rw [State.compile, tight_parsed]
    rfl
  have second : (s'.compile loose).1 = .ok ⟨1, compared ⟨1, 3⟩ ⟨2, 5⟩ ⟨2, 10⟩ ⟨2, 1⟩⟩ := by
    rw [State.compile, loose_parsed]
  have bound : x.bindings["g"]? = some (.function f) := Std.HashMap.getElem?_insert_self
  obtain ⟨ρ, shifted⟩ := alike tight loose ts us s s' x _ _ 10 ht hu same first second
  have r := shifted.bindings "r"
  rw [compared_run 0 _ _ _ _ x bound, compared_run 1 _ _ _ _ x bound] at r
  simp [Function.same, f, Value.moved] at r

end CanvasScript
