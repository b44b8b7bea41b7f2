import CanvasScript.Proofs.Contract.Runs
import CanvasScript.Proofs.Grammar.Soundness

namespace CanvasScript

def Stmt.CatchesLoops (s : Stmt) : Prop := ∀ sig, s.Lets sig → sig = .returned

def FunctionDecl.CatchesLoops (d : FunctionDecl) : Prop := ∀ t ∈ d.body, t.CatchesLoops

def WellScoped (body : List Stmt) : Prop :=
  (∀ t ∈ body, ¬ t.Lets .returned) ∧ ∀ t ∈ body, ∀ d, t.Declares d → d.CatchesLoops

theorem Stmt.CatchesLoops.of_isLoop {s : Stmt} (h : s.isLoop = true) : s.CatchesLoops := by
  intro sig hl
  cases hl with
  | returned => rfl
  | break_ => cases h
  | continue_ => cases h
  | inner _ _ hs => exact hs.resolve_right (by simp [h])

theorem Stmt.not_lets_expr (e : Expr) (sig : Signal) : ¬ (Stmt.expr e).Lets sig := by
  rintro (_ | _ | _ | ⟨hm, -, -⟩)
  cases hm

theorem Stmt.CatchesLoops.return_ (v : Option Expr) (p : Position) :
    (Stmt.return_ v p).CatchesLoops := by
  rintro sig (_ | _ | _ | ⟨hm, -, -⟩)
  · rfl
  · cases hm

theorem Stmt.WellFormed.returned_or_inLoop {s : Stmt} {inLoop : Bool} {sig : Signal}
    (h : s.WellFormed inLoop) (hl : s.Lets sig) : sig = .returned ∨ inLoop = true := by
  induction hl generalizing inLoop with
  | returned => exact .inl rfl
  | break_ | continue_ =>
    cases h with
    | intro _ _ leaves => exact .inr (leaves rfl)
  | inner ht _ hs ih =>
    cases h with
    | intro _ within _ =>
      refine hs.elim .inl fun hloop => ?_
      have hw := within _ (Stmt.mem_within_of_mem_inner ht)
      rw [hloop, Bool.or_false] at hw
      exact ih hw

theorem Stmt.WellFormed.catchesLoops {s : Stmt} (h : s.WellFormed false) : s.CatchesLoops :=
  fun _ hl => (h.returned_or_inLoop hl).resolve_right (by decide)

theorem parseProgram_catchesLoops {source : String} {p : Position} {body : List Stmt}
    (h : parseProgram source p = .ok body) : ∀ t ∈ body, t.CatchesLoops := by
  obtain ⟨ts, -, h⟩ := Parse.ok_of_bind h
  have hw := TokenStream.written_of_program (Parse.ok_of_mapError h)
  exact fun t ht => (hw.wellFormed t ht).catchesLoops

def Value.Contained (v : Value) : Prop :=
  ∀ f, v = .function f → ∀ d, f.decl.stmt.Declares d → d.CatchesLoops

theorem Value.onlyFunctions_contained : OnlyFunctions Contained := by
  constructor
  · rintro v hv f rfl
    cases hv
  · intro v m f h
    cases h

theorem WellScoped.admits {body : List Stmt} (h : WellScoped body) (unit : Nat) :
    Value.Admits Value.Contained unit body := by
  rintro t ht d hd f hf e he
  cases hf
  exact h.2 t ht e (hd.trans he)

theorem upholds_contained {σ : Type} (host : Host σ) :
    Evaluator.Upholds (.plain host) Value.Contained (fun _ => True) (fun _ => False) where
  values := Value.onlyFunctions_contained
  declared f hf t ht d hd g hg e he := by
    cases hg
    exact hf f rfl e (.within ht (hd.trans he))
  signals f hf t ht sig hl := .inl (hf f rfl f.decl .self t ht sig hl)
  builtin b args _ _ :=
    Builtin.call_keeps Value.onlyFunctions_contained b args fun _ _ _ _ => trivial
  custom c hc := by simp [Embedding.plain] at hc

theorem no_stray_signal {σ : Type} (host : Host σ) (settings : Settings) (world : σ)
    (sources : List (String × Nat))
    (h : ∀ source ∈ sources, ∀ body, parseProgram source.1 .start = .ok body → WellScoped body) :
    ∀ r ∈ (interpretAll (.plain host) sources (State.initial (.plain host) settings world)).1,
      ∀ sig, r ≠ .ended (.stray sig) := by
  have hs : (State.initial (.plain host) settings world).Holds Value.Contained (fun _ => True) :=
    State.initial_holds Value.onlyFunctions_contained host settings trivial
      fun _ _ _ b _ f hf => by cases hf
  have k := (interpretAll_keeps (upholds_contained host) hs fun source hm body hp unit =>
    (h source hm body hp).admits unit).2
  rintro r hr sig rfl
  obtain ⟨source, hm, body, hp, hl⟩ := k _ hr
  rcases hl with hl | ⟨t, ht, hl⟩
  · exact hl
  -- the parser leaves only a `return` to go astray, and no statement of the source lets one out
  · have hsig := parseProgram_catchesLoops hp t ht sig hl
    exact (h source hm body hp).1 t ht (hsig ▸ hl)

theorem no_stray_signal_from_escaped_function :
    let sources := [("function f(x) while(x) break; end return x; end fs = [f];", 40),
      ("break;", 40), ("while(f(fs)) f = null; end", 40)]
    (∀ source ∈ sources, ∀ body, parseProgram source.1 .start = .ok body → WellScoped body) ∧
    ∀ r ∈ (interpretAll (.plain (.silent Unit)) sources
        (State.initial (.plain (.silent Unit)) .standard ())).1,
      ∀ sig, r ≠ .ended (.stray sig) := by
  intro sources
  let loop : Stmt := .while_ (.variable "x" ⟨1, 21⟩) [.break_ ⟨1, 24⟩] ⟨1, 15⟩
  let back : Stmt := .return_ (some (.variable "x" ⟨1, 42⟩)) ⟨1, 35⟩
  have first : parseProgram "function f(x) while(x) break; end return x; end fs = [f];" .start =
      .ok [.function "f" ["x"] [loop, back] ⟨1, 1⟩,
        .expr (.assign (.variable "fs") (.array [.variable "f" ⟨1, 55⟩] ⟨1, 54⟩) ⟨1, 49⟩)] := by
    rfl
  have second : parseProgram "break;" .start = .error [⟨.breakOutsideLoop, .start⟩] := by
    rfl
  have third : parseProgram "while(f(fs)) f = null; end" .start =
      .ok [.while_ (.call (.variable "f" ⟨1, 7⟩) [.variable "fs" ⟨1, 9⟩] ⟨1, 7⟩)
        [.expr (.assign (.variable "f") (.literal .null ⟨1, 18⟩) ⟨1, 14⟩)] ⟨1, 1⟩] := by
    rfl
  have first_scoped : WellScoped [.function "f" ["x"] [loop, back] ⟨1, 1⟩,
      .expr (.assign (.variable "fs") (.array [.variable "f" ⟨1, 55⟩] ⟨1, 54⟩) ⟨1, 49⟩)] := by
    have body : ∀ t ∈ [loop, back], t.CatchesLoops :=
      List.forall_mem_cons.2 ⟨.of_isLoop rfl, List.forall_mem_singleton.2 (.return_ _ _)⟩
    refine ⟨?_, ?_⟩
    · rintro t ht (_ | _ | _ | ⟨hm, -, -⟩)
      · simp at ht
      · simp only [List.mem_cons, List.not_mem_nil, or_false] at ht
        rcases ht with rfl | rfl <;> cases hm
    · intro t ht d hd
      simp only [List.mem_cons, List.not_mem_nil, or_false] at ht
      rcases ht with rfl | rfl
      · rw [Stmt.declares_iff] at hd
        rcases hd with he | ⟨t, ht, hd⟩
        · obtain ⟨name, params, decls, p⟩ := d
          cases he
          exact body
        · simp only [Stmt.within, List.mem_cons, List.not_mem_nil, or_false] at ht
          rcases ht with rfl | rfl
          · simp [loop, Stmt.declares_iff (.while_ _ _ _), Stmt.declares_iff (.break_ _),
              Stmt.within, Stmt.inner, FunctionDecl.stmt] at hd
          · simp [back, Stmt.declares_iff (.return_ _ _), Stmt.within, Stmt.inner,
              FunctionDecl.stmt] at hd
      · simp [Stmt.declares_iff (.expr _), Stmt.within, Stmt.inner, FunctionDecl.stmt] at hd
  have third_scoped : WellScoped [.while_
      (.call (.variable "f" ⟨1, 7⟩) [.variable "fs" ⟨1, 9⟩] ⟨1, 7⟩)
      [.expr (.assign (.variable "f") (.literal .null ⟨1, 18⟩) ⟨1, 14⟩)] ⟨1, 1⟩] := by
    refine ⟨?_, ?_⟩
    · rintro t ht (_ | _ | _ | ⟨hm, hl, -⟩)
      · simp at ht
      · rw [List.mem_singleton.1 ht] at hm
        rw [List.mem_singleton.1 hm] at hl
        exact Stmt.not_lets_expr _ _ hl
    · intro t ht d hd
      simp [List.mem_singleton.1 ht, Stmt.declares_iff (.while_ _ _ _), Stmt.declares_iff (.expr _),
        Stmt.within, Stmt.inner, FunctionDecl.stmt] at hd
  have all_scoped : ∀ source ∈ sources, ∀ body, parseProgram source.1 .start = .ok body →
      WellScoped body := by
    intro source hm body hp
    simp only [sources, List.mem_cons, List.not_mem_nil, or_false] at hm
    rcases hm with rfl | rfl | rfl
    · cases first.symm.trans hp
      exact first_scoped
    · cases second.symm.trans hp
    · cases third.symm.trans hp
      exact third_scoped
  exact ⟨all_scoped, no_stray_signal (.silent Unit) .standard () sources all_scoped⟩

end CanvasScript
