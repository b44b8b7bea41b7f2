import CanvasScript.Proofs.Contract.Runs

namespace CanvasScript

namespace Request

def reachesFiles : Request → Bool
  | readFile _ => true
  | writeFile _ _ => true
  | readDir _ => true
  | _ => false

def reachesShell : Request → Bool
  | exec _ => true
  | _ => false

structure Allowed (settings : Settings) (r : Request) : Prop where
  files : r.reachesFiles = true → settings.enableFilesystem = true
  shell : r.reachesShell = true → settings.enableShell = true

end Request

def Builtin.Permitted (settings : Settings) (b : Builtin) : Prop :=
  ∀ r : Request, b ∈ r.askers → r.Allowed settings

def Value.Permitted (settings : Settings) (v : Value) : Prop :=
  ∀ b, v = .native (.builtin b) → b.Permitted settings

theorem Value.onlyFunctions_permitted (settings : Settings) :
    OnlyFunctions (Permitted settings) := by
  constructor
  · rintro v hv b rfl
    cases hv
  · intro v m b h
    cases h

def Builtin.provider : Builtin → Provider
  | rect | pixel | clear => .canvas
  | random | round | floor | ceil | abs | sqrt | pow => .math
  | log | warn | error | clearConsole => .console
  | exit | wait => .system
  | readFile | writeFile | readDir => .fs
  | exec => .shell

theorem Provider.provider_of_mem {p : Provider} {b : Builtin} (h : b ∈ p.globals ++ p.members) :
    b.provider = p := by
  cases p <;> simp only [globals, members, List.nil_append, List.append_nil, List.mem_cons,
    List.not_mem_nil, or_false] at h <;> revert b <;> simp [Builtin.provider]

theorem Request.provider_of_reachesFiles {r : Request} (h : r.reachesFiles = true) {b : Builtin}
    (hb : b ∈ r.askers) : b.provider = .fs := by
  cases r with
  | readFile | writeFile | readDir => rw [List.mem_singleton.1 hb]; rfl
  | _ => cases h

theorem Request.provider_of_reachesShell {r : Request} (h : r.reachesShell = true) {b : Builtin}
    (hb : b ∈ r.askers) : b.provider = .shell := by
  cases r with
  | exec => rw [List.mem_singleton.1 hb]; rfl
  | _ => cases h

theorem Provider.permitted {p : Provider} {settings : Settings} (hp : p.enabled settings = true)
    {b : Builtin} (hb : b ∈ p.globals ++ p.members) : b.Permitted settings := by
  rw [← provider_of_mem hb] at hp
  intro r hr
  constructor
  · intro hf
    rw [Request.provider_of_reachesFiles hf hr] at hp
    exact hp
  · intro hs
    rw [Request.provider_of_reachesShell hs hr] at hp
    exact hp

variable {σ : Type}

theorem upholds_permitted (host : Host σ) (settings : Settings) :
    Evaluator.Upholds (.plain host.traced) (Value.Permitted settings)
      (fun world => ∀ r ∈ world.2, r.Allowed settings) (fun _ => True) where
  values := Value.onlyFunctions_permitted settings
  declared f _ t _ d _ b hb := by cases hb
  signals f _ t _ sig _ := .inr trivial
  builtin b args hb _ := by
    refine Builtin.call_keeps (Value.onlyFunctions_permitted settings) b args ?_
    intro r hr world hw
    exact List.forall_mem_cons.2 ⟨hb b rfl r hr, hw⟩
  custom c hc := by simp [Embedding.plain] at hc

theorem interpretAll_allowed (host : Host σ) (settings : Settings) (world : σ)
    (sources : List (String × Nat)) :
    ∀ r ∈ (interpretAll (.plain host.traced) sources
      (State.initial (.plain host.traced) settings (world, []))).2.world.2,
      r.Allowed settings := by
  have start : (State.initial (.plain host.traced) settings (world, [])).Holds
      (Value.Permitted settings) (fun world => ∀ r ∈ world.2, r.Allowed settings) := by
    refine State.initial_holds (Value.onlyFunctions_permitted settings) host.traced settings
      (List.forall_mem_nil _) fun p _ hp b hb c hc => ?_
    cases hc
    exact Provider.permitted hp hb
  refine (interpretAll_keeps (upholds_permitted host settings) start ?_).1.world
  intro source _ body _ unit t _ d _ b hb
  cases hb

theorem forbidden_requests_unmade (host : Host σ) (settings : Settings) (world : σ)
    (sources : List (String × Nat)) :
    let asked := (interpretAll (.plain host.traced) sources
      (State.initial (.plain host.traced) settings (world, []))).2.world.2
    (settings.enableFilesystem = false → ∀ r ∈ asked, r.reachesFiles = false) ∧
    (settings.enableShell = false → ∀ r ∈ asked, r.reachesShell = false) := by
  intro asked
  have allowed := interpretAll_allowed host settings world sources
  refine ⟨fun hf r hr => ?_, fun hs r hr => ?_⟩
  · have h := mt (allowed r hr).files (by simp [hf])
    exact Bool.eq_false_iff.2 h
  · have h := mt (allowed r hr).shell (by simp [hs])
    exact Bool.eq_false_iff.2 h

theorem forbidden_requests_unmade_by_copies :
    let settings : Settings := ⟨.standard, false, true, .standard, 256⟩
    let sources := [("r = [fs]; r[0].readFileSync(\"a\");", 90),
      ("function f(o) return o.execSync; end g = [f(shell)]; g[0](\"cat a\");", 90)]
    let asked := (interpretAll (.plain (Host.silent Unit).traced) sources
      (State.initial (.plain (Host.silent Unit).traced) settings ((), []))).2.world.2
    settings.enableFilesystem = false ∧ ∀ r ∈ asked, r.reachesFiles = false := by
  intro settings sources asked
  exact ⟨rfl, (forbidden_requests_unmade (.silent Unit) settings () sources).1 rfl⟩

end CanvasScript
