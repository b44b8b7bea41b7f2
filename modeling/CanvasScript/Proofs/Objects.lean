import CanvasScript.Host.Extras
import CanvasScript.Proofs.Contents
import CanvasScript.Proofs.Evaluations.Progress
import CanvasScript.Proofs.Grammar.Derivations

namespace CanvasScript

variable {σ α β : Type} {env : Embedding σ}

namespace Fields

def Built (f : Fields α) : Prop := ∃ writes, f = ofList writes

namespace Built

theorem ofList (writes : List (String × α)) : (Fields.ofList writes).Built := ⟨writes, rfl⟩

theorem empty : (Fields.empty : Fields α).Built := ofList []

theorem set {f : Fields α} (h : f.Built) (key : String) (value : α) : (f.set key value).Built := by
  obtain ⟨writes, rfl⟩ := h
  exact ⟨writes ++ [(key, value)], congrArg Fields.mk (ofList_concat writes (key, value)).symm⟩

theorem nodup {f : Fields α} (h : f.Built) : f.keys.Nodup := by
  obtain ⟨writes, rfl⟩ := h
  exact nodup_ofList writes

end Built

end Fields

namespace Heap

def Orderly (h : Heap) : Prop := ∀ r, (h.fields r).Built

/-- What a program with the heap at hand can make by the operations on objects: it starts from
nothing or from a copy of an object that is there, and sets keys. -/
inductive Makes (h : Heap) : Fields Value → Prop
  | empty : Makes h .empty
  | copy (r : ObjectRef) : Makes h (h.fields r)
  | set {f : Fields Value} (key : String) (v : Value) : Makes h f → Makes h (f.set key v)

theorem Makes.built {h : Heap} (hh : h.Orderly) {f : Fields Value} (made : h.Makes f) :
    f.Built := by
  induction made with
  | empty => exact .empty
  | copy r => exact hh r
  | set key v _ ih => exact ih.set key v

namespace Orderly

theorem empty : Heap.empty.Orderly := fun _ => .empty

variable {h : Heap} (hh : h.Orderly)
include hh

theorem newObject {f : Fields Value} (hf : f.Built) : (h.newObject f).2.Orderly := by
  intro r
  rw [fields_newObject]
  split
  · exact hf
  · exact hh r

theorem setField (r : ObjectRef) (key : String) (v : Value) : (h.setField r key v).Orderly := by
  intro q
  rcases fields_setField h r q key v with same | changed
  · exact same ▸ hh q
  · exact changed ▸ (hh r).set key v

theorem edit (e : Place.Edit) : (e.apply h).Orderly := by
  cases e with
  | field r key v => exact hh.setField r key v
  | nothing | element | length => exact hh

theorem call (args : List Value) (b : Method.Bound) : (b.call h args).2.Orderly := by
  cases b with
  | array r m => cases m <;> exact hh
  | text s m => cases m <;> exact hh

end Orderly

end Heap

/-- The functions of the embedding program make and change objects by the operations on them. -/
def Embedding.SetsKeys (env : Embedding σ) : Prop :=
  ∀ c ∈ env.customs, ∀ args (s : State σ) r, s.heap.Makes ((c.call args s).2.heap.fields r)

namespace Action

def Tidy (x : Action σ α) : Prop := ∀ s, s.heap.Orderly → (x s).2.heap.Orderly

namespace Tidy

theorem of_heap {x : Action σ α} (h : ∀ s, (x s).2.heap = s.heap) : Tidy x := by
  intro s hs
  rw [h s]
  exact hs

theorem bind {x : Action σ α} {f : α → Action σ β} (hx : Tidy x) (hf : ∀ a, Tidy (f a)) :
    Tidy (x >>= f) := by
  intro s hs
  have after := hx s hs
  rw [bind_apply]
  rcases hr : x s with ⟨_ | a, t⟩
  · rwa [hr] at after
  · rw [hr] at after
    exact hf a t after

theorem newObject {f : Fields Value} (hf : f.Built) :
    Tidy (Action.newObject f : Action σ Value) :=
  fun _ hs => hs.newObject hf

theorem readPlace (p : Place) (line : Nat) : Tidy (Action.readPlace p line : Action σ Value) := by
  refine of_heap fun s => ?_
  have (r : Except Failure Value) : ((Action.ofExcept line r : Action σ Value) s).2 = s := by
    cases r <;> rfl
  match p with
  | .variable name =>
    simp only [Action.readPlace, Action.variable_]
    split <;> rfl
  | .member owner property => simp only [Action.readPlace, this]
  | .index owner index => simp only [Action.readPlace, this]

theorem writePlace (p : Place) (v : Value) (line : Nat) :
    Tidy (Action.writePlace p v line : Action σ Unit) := by
  have edited (find : Heap → Except Failure Place.Edit) :
      Tidy (Action.edit line find : Action σ Unit) := by
    intro s hs
    unfold Action.edit
    split
    · exact hs.edit _
    · exact hs
  match p with
  | .variable name => exact fun _ hs => hs
  | .member _ _ | .index _ _ => exact edited _

theorem callMethod (m : Method) (receiver : Value) (args : List Value) (line : Nat) :
    Tidy (Action.callMethod m receiver args line : Action σ Value) := by
  intro s hs
  unfold Action.callMethod
  split
  · exact hs.call args _
  · exact hs

end Tidy

end Action

open CanvasScript.Action (Tidy)

theorem Builtin.madeOf_tidy (host : Host σ) : MadeOf host fun _ => Tidy where
  pure _ := .of_heap fun _ => rfl
  bind := .bind
  onHeap _ := .of_heap fun _ => rfl
  read _ := .of_heap fun _ => rfl
  newArray _ := fun _ hs => hs
  entry _ := .newObject (.ofList _)
  ask _ := .of_heap fun _ => rfl
  fail _ := .of_heap fun _ => rfl
  exit := .of_heap fun _ => rfl

def Step.Fits : Step env α → Prop
  | newObject fields => fields.Built
  | _ => True

theorem Step.tidy (hc : env.SetsKeys) {x : Step env α} (h : x.Fits) : Tidy x.run := by
  cases x with
  | interrupt i => exact fun _ hs => hs
  | onHeap f => exact fun _ hs => hs
  | setVariable name v => exact fun _ hs => hs
  | update op name => exact fun _ hs => hs
  | readPlace p line => exact .readPlace p line
  | writePlace p v line => exact .writePlace p v line
  | newArray items => exact fun _ hs => hs
  | newObject fields => exact .newObject h
  | callMethod m receiver args line => exact .callMethod m receiver args line
  | builtin b args line =>
    intro s hs
    rw [run, Action.attributed_state]
    exact (Builtin.madeOf_tidy env.host).call b args s hs
  | custom c mem args line =>
    intro s hs r
    rw [run, Action.attributed_state]
    exact (hc c mem args s r).built hs

namespace Job

def Fits : Job → Prop
  | properties _ fields => fields.Built
  | _ => True

def Builds : (j : Job) → j.Result → Prop
  | properties _ _, fields => fields.Built
  | _, _ => True

end Job

namespace Plan

def Orderly {α : Type} : Plan env α → (α → Prop) → Prop
  | pure a, Q => Q a
  | step x, Q => x.Fits ∧ ∀ a, Q a
  | ask j, Q => j.Fits ∧ ∀ a, j.Builds a → Q a
  | bind x f, Q => x.Orderly fun a => (f a).Orderly Q
  | loopBody body, Q => body.Orderly (fun _ => True) ∧ ∀ goesOn, Q goesOn
  | inCall _ _ _ body, Q => body.Orderly (fun _ => True) ∧ ∀ v, Q v

variable {Q : α → Prop}

@[simp] theorem orderly_pure (a : α) : (Pure.pure a : Plan env α).Orderly Q ↔ Q a := Iff.rfl

@[simp] theorem orderly_step (x : Step env α) : (step x).Orderly Q ↔ x.Fits ∧ ∀ a, Q a := Iff.rfl

-- the type of the result is computed from the job, so it is no key to find the lemma by
@[simp] theorem orderly_ask (j : Job) (Q : j.Result → Prop) :
    @Orderly σ env (no_index j.Result) (ask j) Q ↔ j.Fits ∧ ∀ a, j.Builds a → Q a := Iff.rfl

@[simp] theorem orderly_bind (x : Plan env β) (f : β → Plan env α) :
    (x >>= f).Orderly Q ↔ x.Orderly fun a => (f a).Orderly Q := Iff.rfl

@[simp] theorem orderly_loopBody (body : Plan env Unit) (Q : Bool → Prop) :
    (loopBody body).Orderly Q ↔ body.Orderly (fun _ => True) ∧ ∀ goesOn, Q goesOn := Iff.rfl

@[simp] theorem orderly_inCall (f : Function) (args : List Value) (line : Nat)
    (body : Plan env Unit) (Q : Value → Prop) :
    (inCall f args line body).Orderly Q ↔ body.Orderly (fun _ => True) ∧ ∀ v, Q v := Iff.rfl

@[simp] theorem orderly_ite (c : Prop) [Decidable c] (x y : Plan env α) :
    (if c then x else y).Orderly Q ↔ if c then x.Orderly Q else y.Orderly Q := by
  split <;> rfl

end Plan

theorem Job.plan_orderly {j : Job} (h : j.Fits) : (j.plan env).Orderly j.Builds := by
  fun_cases plan env j
  -- only an object literal makes an object, of what the job for its properties gives it
  all_goals
    simp_all [plan, Step.fail, Step.Fits, Fits, Builds, Fields.Built.empty, Fields.Built.set]
  -- what is left are the plans that look into a marker or for a function of the embedding program
  all_goals split <;> simp [Step.Fits, Builds]

namespace Plan.Orderly

variable {rec : (j : Job) → Action σ j.Result} {Q : α → Prop} {x : Plan env α} {s t : State σ}
  (hc : env.SetsKeys)
  (hrec : ∀ j s, j.Fits → s.heap.Orderly →
    (rec j s).2.heap.Orderly ∧ ∀ a, (rec j s).1 = .ok a → j.Builds a)
include hc hrec

theorem run (h : x.Orderly Q) (hs : s.heap.Orderly) :
    (x.run rec s).2.heap.Orderly ∧ ∀ a, (x.run rec s).1 = .ok a → Q a := by
  induction x generalizing s with
  | pure a =>
    refine ⟨hs, fun b ended => ?_⟩
    cases ended
    exact h
  | step x => exact ⟨Step.tidy hc h.1 s hs, fun a _ => h.2 a⟩
  | ask j =>
    obtain ⟨after, built⟩ := hrec j s h.1 hs
    exact ⟨after, fun a ended => h.2 a (built a ended)⟩
  | bind x f ihx ihf =>
    have first := ihx h hs
    rw [Plan.run, Action.bind_apply]
    rcases hr : x.run rec s with ⟨_ | a, u⟩
    · rw [hr] at first
      refine ⟨first.1, fun b ended => ?_⟩
      cases ended
    · rw [hr] at first
      exact ihf a (first.2 a rfl) first.1
  | loopBody body ih =>
    refine ⟨?_, fun goesOn _ => h.2 goesOn⟩
    rw [Plan.run, Action.loopBody_state]
    exact (ih h.1 hs).1
  | inCall f args line body ih =>
    refine ⟨?_, fun v _ => h.2 v⟩
    by_cases deep : s.maxCallDepth ≤ s.depth
    · rw [run_inCall_refused rec deep]
      exact hs
    · rw [run_inCall_entered rec deep]
      exact (ih (s := entered f args s) h.1 hs).1

theorem asks {k : Nat} {j : Job} (h : x.Orderly Q) (hs : s.heap.Orderly)
    (asked : x.Asks rec s k j t) : j.Fits ∧ t.heap.Orderly := by
  induction x generalizing s k with
  | pure | step => exact asked.elim
  | ask i =>
    obtain ⟨-, rfl, rfl⟩ := asked
    exact ⟨h.1, hs⟩
  | bind x f ihx ihf =>
    rcases asked with asked | ⟨a, u, hr, asked⟩
    · exact ihx h hs asked
    · have first := run hc hrec (x := x) h hs
      rw [hr] at first
      exact ihf a (first.2 a rfl) first.1 asked
  | loopBody body ih => exact ih h.1 hs asked
  | inCall f args line body ih =>
    obtain ⟨-, i, -, asked⟩ := asked
    exact ih (s := entered f args s) h.1 hs asked

end Plan.Orderly

section Evaluations

variable (hc : env.SetsKeys)
include hc

theorem Job.run_orderly (n : Nat) {j : Job} {s : State σ} (h : j.Fits) (hs : s.heap.Orderly) :
    (j.run env n s).2.heap.Orderly ∧ ∀ a, (j.run env n s).1 = .ok a → j.Builds a := by
  induction n generalizing j s with
  | zero =>
    rw [run_zero]
    exact ⟨hs, nofun⟩
  | succ n ih =>
    rw [← run_plan]
    exact Plan.Orderly.run hc (fun j s => ih) (plan_orderly h) hs

theorem During.orderly {n k m : Nat} {j i : Job} {s t : State σ} (h : During env n j s k m i t)
    (hj : j.Fits) (hs : s.heap.Orderly) : t.heap.Orderly := by
  induction h with
  | self => exact hs
  | within asked _ ih =>
    have asks := Plan.Orderly.asks hc (fun j s => Job.run_orderly hc _) (Job.plan_orderly hj) hs
      asked
    exact ih asks.1 asks.2

end Evaluations

namespace Namespace

theorem install_orderly {ns : Namespace} (h : ns.heap.Orderly) (p : Provider) :
    (ns.install p).heap.Orderly := by
  have globals (bs : List Builtin) (ns : Namespace) (h : ns.heap.Orderly) :
      (bs.foldl (fun ns b => ns.bind b.name (.native (.builtin b))) ns).heap.Orderly := by
    induction bs generalizing ns with
    | nil => exact h
    | cons b bs ih => exact ih _ h
  unfold install
  split
  · exact globals p.globals ns h
  · exact (globals p.globals ns h).newObject (.ofList _)

theorem installAll_orderly {ns : Namespace} (h : ns.heap.Orderly) (ps : List Provider)
    (settings : Settings) : (ns.installAll ps settings).heap.Orderly := by
  unfold installAll
  induction ps.filter (Provider.enabled settings) generalizing ns with
  | nil => exact h
  | cons p ps ih => exact ih (install_orderly h p)

theorem bindCustoms_heap (cs : List (CustomFunction σ)) (slot : Nat) (ns : Namespace) :
    (bindCustoms slot cs ns).heap = ns.heap := by
  induction cs generalizing slot ns with
  | nil => rfl
  | cons c cs ih => exact ih (slot + 1) _

end Namespace

theorem State.initial_orderly (env : Embedding σ) (settings : Settings) (world : σ) :
    (State.initial env settings world).heap.Orderly := by
  have config : (Heap.empty.newObject settings.config.fields).2.Orderly :=
    Heap.Orderly.empty.newObject (.ofList _)
  show (bindCustoms 0 env.customs _).heap.Orderly
  rw [Namespace.bindCustoms_heap]
  exact Namespace.installAll_orderly config Provider.standard settings

def Job.Outermost : Job → Prop
  | block _ _ => True
  | expr _ => True
  | call _ _ _ => True
  | _ => False

theorem Job.Outermost.fits {j : Job} (h : j.Outermost) : j.Fits := by
  cases j with
  | properties => exact h.elim
  | _ => trivial

/-- The states that there are while scripts are taken in and run one after another, each with some
fuel: between the runs, and whenever a part of one is begun. -/
inductive Reachable (env : Embedding σ) (settings : Settings) (world : σ) : State σ → Prop
  | initial : Reachable env settings world (State.initial env settings world)
  | compiled {s : State σ} (source : String) :
      Reachable env settings world s → Reachable env settings world (s.compile source).2
  | ran {s : State σ} {j : Job} (n : Nat) : j.Outermost → Reachable env settings world s →
      Reachable env settings world (j.run env n { s with depth := 0 }).2
  | running {s t : State σ} {j i : Job} {n k m : Nat} : j.Outermost →
      Reachable env settings world s → During env n j { s with depth := 0 } k m i t →
      Reachable env settings world t

namespace Reachable

variable {settings : Settings} {world : σ} {s : State σ}

theorem interpreted (h : Reachable env settings world s) (n : Nat) (source : String) :
    Reachable env settings world (interpret env n source s).2 := by
  have taken := h.compiled source
  unfold interpret
  rcases hs : s.compile source with ⟨_ | p, t⟩
  · rwa [hs] at taken
  · rw [hs] at taken
    exact taken.ran (j := .block p.unit p.statements) n trivial

theorem orderly (h : Reachable env settings world s) (hc : env.SetsKeys) : s.heap.Orderly := by
  induction h with
  | initial => exact State.initial_orderly env settings world
  | compiled source _ ih =>
    unfold State.compile
    split <;> exact ih
  | ran n outermost _ ih =>
    refine (Job.run_orderly hc n outermost.fits ?_).1
    exact ih
  | running outermost _ during ih => exact during.orderly hc outermost.fits ih

end Reachable

namespace Extras

theorem signal_interrupts (args : List Value) :
    ∃ i, signal.call args = (Action.interrupt i : Action σ Value) := by
  simp only [signal]
  split <;> exact ⟨_, rfl⟩

theorem setsKeys (host : Host σ) : Embedding.SetsKeys ⟨host, all host⟩ := by
  intro c mem args s r
  have same : (c.call args s).2.heap = s.heap := by
    simp only [all, List.mem_cons, List.not_mem_nil, or_false] at mem
    rcases mem with rfl | rfl | rfl | rfl | rfl | rfl | rfl | rfl | rfl | rfl
    case inr.inr.inr.inr.inr.inr.inl =>
      obtain ⟨i, raised⟩ := signal_interrupts (σ := σ) args
      rw [raised]
      rfl
    all_goals rfl
  rw [same]
  exact .copy r

end Extras

theorem objects_set_in_order :
    (∀ {α : Type} (writes : List (String × α)),
      let f := writes.foldl (fun f w => f.set w.1 w.2) Fields.empty
      f.keys.Nodup ∧ f.keys = (writes.map (·.1)).eraseDups ∧
        ∀ key, f.get? key = writes.reverse.lookup key) ∧
    ∀ {σ : Type} (env : Embedding σ) (settings : Settings) (world : σ) (s : State σ),
      env.SetsKeys → Reachable env settings world s → ∀ r,
        (s.heap.fields r).keys.Nodup ∧ ∃ writes, s.heap.fields r = .ofList writes := by
  constructor
  · intro α writes
    have merged := Fields.ofList_merges writes
    exact ⟨Fields.nodup_ofList writes, merged.keys, merged.values⟩
  · intro σ env settings world s hc reached r
    have built := reached.orderly hc r
    exact ⟨built.nodup, built⟩

theorem objects_of_script_set_in_order :
    let env : Embedding Unit := ⟨.silent Unit, Extras.all (.silent Unit)⟩
    let source := "o = {a: 1, b: 2, a: 3}; o.b = o; remember(o); config.extra = remembered;"
    let s := (interpret env 60 source (State.initial env .standard ())).2
    env.SetsKeys ∧ Reachable env .standard () s ∧ ∀ r,
      (s.heap.fields r).keys.Nodup ∧ ∃ writes, s.heap.fields r = .ofList writes := by
  intro env source s
  have reached : Reachable env .standard () s := Reachable.initial.interpreted 60 source
  have hc : env.SetsKeys := Extras.setsKeys (.silent Unit)
  exact ⟨hc, reached, objects_set_in_order.2 env .standard () s hc reached⟩

end CanvasScript
