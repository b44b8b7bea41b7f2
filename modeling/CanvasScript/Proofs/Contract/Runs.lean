import CanvasScript.Proofs.Contract.Builtins
import CanvasScript.Proofs.Contract.Evaluation

namespace CanvasScript

open CanvasScript.Action

variable {σ : Type} {V : Value → Prop} {J : σ → Prop} {W : Signal → Prop}

structure Namespace.Every (V : Value → Prop) (ns : Namespace) : Prop where
  bindings : ∀ (name : String) v, ns.bindings[name]? = some v → V v
  heap : ns.heap.Every V

namespace Namespace.Every

variable {ns : Namespace}

theorem bind (h : ns.Every V) (name : String) {v : Value} (hv : V v) :
    (ns.bind name v).Every V := by
  refine ⟨fun x w hw => ?_, h.heap⟩
  rw [Namespace.bind, Std.HashMap.getElem?_insert] at hw
  split at hw
  · cases hw
    exact hv
  · exact h.bindings x w hw

theorem bindObject (hV : Value.OnlyFunctions V) (h : ns.Every V) (name : String)
    {fields : Fields Value} (hf : ∀ e ∈ fields.entries, V e.2) :
    (ns.bindObject name fields).Every V :=
  have hh : Namespace.Every V ⟨ns.bindings, (ns.heap.newObject fields).2⟩ :=
    ⟨h.bindings, h.heap.newObject hf⟩
  hh.bind name (hV.data _ rfl)

theorem globals (h : ns.Every V) (bs : List Builtin) (hb : ∀ b ∈ bs, V (.native (.builtin b))) :
    (bs.foldl (fun ns b => ns.bind b.name (.native (.builtin b))) ns).Every V := by
  induction bs generalizing ns with
  | nil => exact h
  | cons b bs ih =>
    exact ih (h.bind b.name (hb b List.mem_cons_self)) fun c hc => hb c (List.mem_cons_of_mem b hc)

theorem install (hV : Value.OnlyFunctions V) (h : ns.Every V) (p : Provider)
    (hb : ∀ b ∈ p.globals ++ p.members, V (.native (.builtin b))) : (ns.install p).Every V := by
  have hg := h.globals p.globals fun b hm => hb b (List.mem_append_left _ hm)
  unfold Namespace.install
  split
  · exact hg
  · refine hg.bindObject hV p.name (Fields.forall_ofList fun e he => ?_)
    obtain ⟨b, hm, rfl⟩ := List.mem_map.1 he
    exact hb b (List.mem_append_right _ hm)

theorem installAll (hV : Value.OnlyFunctions V) (h : ns.Every V) (ps : List Provider)
    (settings : Settings) (hb : ∀ p ∈ ps, p.enabled settings →
      ∀ b ∈ p.globals ++ p.members, V (.native (.builtin b))) :
    (ns.installAll ps settings).Every V := by
  have fold (ps : List Provider) (ns : Namespace) (h : ns.Every V)
      (hb : ∀ p ∈ ps, ∀ b ∈ p.globals ++ p.members, V (.native (.builtin b))) :
      (ps.foldl Namespace.install ns).Every V := by
    induction ps generalizing ns with
    | nil => exact h
    | cons p ps ih =>
      exact ih _ (h.install hV p (hb p List.mem_cons_self)) fun q hq =>
        hb q (List.mem_cons_of_mem p hq)
  refine fold _ ns h fun p hp => ?_
  obtain ⟨hp, he⟩ := List.mem_filter.1 hp
  exact hb p hp he

theorem bindCustoms (h : ns.Every V) (slot : Nat) {cs : List (CustomFunction σ)}
    (hc : ∀ i, ∀ c ∈ cs, V (.native (.custom i c.name c.suspends))) :
    (bindCustoms slot cs ns).Every V := by
  induction cs generalizing slot ns with
  | nil => exact h
  | cons c cs ih =>
    exact ih (h.bind c.name (hc slot c List.mem_cons_self)) (slot + 1) fun i d hd =>
      hc i d (List.mem_cons_of_mem c hd)

end Namespace.Every

theorem State.initial_holds_customs (hV : Value.OnlyFunctions V) (env : Embedding σ)
    (settings : Settings) {world : σ} (hw : J world)
    (hb : ∀ p ∈ Provider.standard, p.enabled settings →
      ∀ b ∈ p.globals ++ p.members, V (.native (.builtin b)))
    (hc : ∀ i, ∀ c ∈ env.customs, V (.native (.custom i c.name c.suspends))) :
    (State.initial env settings world).Holds V J := by
  have hf : ∀ e ∈ settings.config.fields.entries, V e.2 := by
    refine Fields.forall_ofList fun e he => ?_
    simp only [List.mem_cons, List.not_mem_nil, or_false] at he
    rcases he with rfl | rfl | rfl <;> exact hV.data _ rfl
  have hn : Namespace.empty.Every V :=
    ⟨fun name v hv => by simp [Namespace.empty] at hv, .empty⟩
  have standard := (hn.bindObject hV "config" hf).installAll hV Provider.standard settings hb
  have h := standard.bindCustoms 0 hc
  exact ⟨h.bindings, h.heap, hw⟩

theorem State.initial_holds (hV : Value.OnlyFunctions V) (host : Host σ) (settings : Settings)
    {world : σ} (hw : J world)
    (hb : ∀ p ∈ Provider.standard, p.enabled settings →
      ∀ b ∈ p.globals ++ p.members, V (.native (.builtin b))) :
    (State.initial (.plain host) settings world).Holds V J :=
  State.initial_holds_customs hV (.plain host) settings hw hb fun _ => nofun

def interpretAll (env : Embedding σ) : List (String × Nat) → State σ → List Interpreted × State σ
  | [], s => ([], s)
  | (source, fuel) :: rest, s =>
    let (r, s) := interpret env fuel source s
    let (rs, s) := interpretAll env rest s
    (r :: rs, s)

def Interpreted.Within (W : Signal → Prop) (source : String) : Interpreted → Prop
  | .ended (.stray sig) => ∃ body, parseProgram source .start = .ok body ∧ Signal.Leaves W body sig
  | _ => True

theorem interpret_keeps {env : Embedding σ} (hu : Evaluator.Upholds env V J W) (fuel : Nat)
    (source : String) {s : State σ} (hs : s.Holds V J)
    (h : ∀ body, parseProgram source .start = .ok body → Value.Admits V s.units body) :
    (interpret env fuel source s).2.Holds V J ∧
      (interpret env fuel source s).1.Within W source := by
  unfold interpret State.compile
  cases hp : parseProgram source .start with
  | error problems => exact ⟨hs, trivial⟩
  | ok body =>
    have k := (Evaluator.kept hu fuel).block s.units body (h body hp)
      { s with units := s.units + 1, depth := 0 } ⟨hs.bindings, hs.heap, hs.world⟩
    refine ⟨k.1, ?_⟩
    simp only [Program.run]
    revert k
    rcases Evaluator.block env fuel s.units body _ with ⟨r, t⟩
    intro k
    match r, k.2 with
    | .ok (), _ => exact trivial
    | .error .outOfFuel, _ => exact trivial
    | .error (.interrupt .exit), _ => exact trivial
    | .error (.interrupt (.error e)), _ => exact trivial
    | .error (.interrupt (.returned v)), hk => exact ⟨body, hp, hk.1⟩
    | .error (.interrupt .break_), hk => exact ⟨body, hp, hk⟩
    | .error (.interrupt .continue_), hk => exact ⟨body, hp, hk⟩

theorem interpretAll_keeps {env : Embedding σ} (hu : Evaluator.Upholds env V J W)
    {sources : List (String × Nat)} {s : State σ} (hs : s.Holds V J)
    (h : ∀ source ∈ sources, ∀ body, parseProgram source.1 .start = .ok body →
      ∀ unit, Value.Admits V unit body) :
    (interpretAll env sources s).2.Holds V J ∧
      ∀ r ∈ (interpretAll env sources s).1, ∃ source ∈ sources, r.Within W source.1 := by
  induction sources generalizing s with
  | nil => exact ⟨hs, by simp [interpretAll]⟩
  | cons source rest ih =>
    have k := interpret_keeps hu source.2 source.1 hs fun body hp =>
      h source List.mem_cons_self body hp s.units
    have kr := ih k.1 fun t ht => h t (List.mem_cons_of_mem source ht)
    refine ⟨kr.1, fun r hr => ?_⟩
    rcases List.mem_cons.1 hr with rfl | hr
    · exact ⟨source, List.mem_cons_self, k.2⟩
    · obtain ⟨t, ht, hw⟩ := kr.2 r hr
      exact ⟨t, List.mem_cons_of_mem source ht, hw⟩

end CanvasScript
