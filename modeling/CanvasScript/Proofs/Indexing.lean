import CanvasScript.Proofs.WholeNumbers

namespace CanvasScript

open Number (spelledIndex?_text spelledIndex?_eq_none lt_of_toNat?)

namespace Value

theorem display_text (h : Heap) (s : String) : (text s).display h = s := rfl

theorem elementIndex?_text (s : String) : (text s).elementIndex? = spelledIndex? s := rfl

theorem spelledIndex?_display {h : Heap} {index : Value}
    (array : ∀ r, index ≠ array r) (number : ∀ x, index ≠ number x) (text : ∀ s, index ≠ text s) :
    spelledIndex? (index.display h) = none := by
  have function (name : String) (params : List String) (body : String) :
      spelledIndex? (functionText name params body) = none :=
    spelledIndex?_eq_none (c := 'f') (by simp [functionText]) (by decide)
  cases index with
  | number x => exact absurd rfl (number x)
  | text s => exact absurd rfl (text s)
  | array r => exact absurd rfl (array r)
  | bool b =>
    have words : spelledIndex? "true" = none ∧ spelledIndex? "false" = none := by decide
    cases b with
    | true => exact words.1
    | false => exact words.2
  | null => exact (by decide : spelledIndex? "null" = none)
  | undefined => exact (by decide : spelledIndex? "undefined" = none)
  | object _ => exact (by decide : spelledIndex? "[object Object]" = none)
  | function _ | native _ | method _ _ => exact function _ _ _

theorem spelledIndex?_of_elementIndex? {h : Heap} {index : Value} {i : Nat}
    (he : index.elementIndex? = some i) : spelledIndex? (index.display h) = some i := by
  cases index with
  | number x => exact (spelledIndex?_text (by decide) (lt_of_toNat? he)).2 he
  | text s => exact he
  | _ => cases he

theorem elementIndex?_eq_none {h : Heap} {index : Value}
    (hs : spelledIndex? (index.display h) = none) : index.elementIndex? = none :=
  Option.eq_none_iff_forall_ne_some.2 fun _ he =>
    nomatch hs.symm.trans (spelledIndex?_of_elementIndex? he)

theorem array_or_beyond {h : Heap} {index : Value} {i : Nat}
    (hs : spelledIndex? (index.display h) = some i) (he : index.elementIndex? = none) :
    (∃ r, index = array r) ∨ 4294967295 ≤ i := by
  by_cases reach : i < 4294967295
  · cases index with
    | number x => exact nomatch ((spelledIndex?_text (by decide) reach).1 hs).symm.trans he
    | text s => exact nomatch hs.symm.trans he
    | array r => exact .inl ⟨r, rfl⟩
    | _ =>
      rw [spelledIndex?_display (by nofun) (by nofun) (by nofun)] at hs
      cases hs
  · exact .inr (Nat.le_of_not_lt reach)

end Value

namespace Place

def elementAt (h : Heap) : Value → Nat → Value
  | .array r, i => (h.items r)[i]?.getD .undefined
  | .text s, i => charAt s i
  | _, _ => .undefined

def Short (h : Heap) : Value → Prop
  | .array r => (h.items r).size < 4294967295
  | .text s => s.length < 4294967295
  | _ => True

def Misread (h : Heap) (owner index : Value) : Prop :=
  (∃ r, index = .array r) ∧
    ∃ i, spelledIndex? (index.display h) = some i ∧ elementAt h owner i ≠ .undefined

theorem ne_of_spelledIndex? {key name : String} {i : Nat} (hs : spelledIndex? key = some i)
    (hn : spelledIndex? name = none) : key ≠ name := by
  rintro rfl
  rw [hs] at hn
  cases hn

theorem intrinsic?_of_spelledIndex? {h : Heap} {owner : Value} {key : String} {i : Nat}
    (hs : spelledIndex? key = some i) : owner.intrinsic? h key = none := by
  have length : key ≠ "length" := ne_of_spelledIndex? hs (by decide)
  have array : ArrayMethod.ofName? key = none := by
    refine List.find?_eq_none.2 fun m _ same => ?_
    refine ne_of_spelledIndex? hs ?_ (eq_of_beq same).symm
    cases m <;> decide
  have text : TextMethod.ofName? key = none := by
    refine List.find?_eq_none.2 fun m _ same => ?_
    refine ne_of_spelledIndex? hs ?_ (eq_of_beq same).symm
    cases m <;> decide
  cases owner <;> simp [Value.intrinsic?, length, array, text]

section Reading

variable {h : Heap} {owner index : Value}

inductive HasElements : Value → Prop
  | array (r : ArrayRef) : HasElements (.array r)
  | text (s : String) : HasElements (.text s)

theorem HasElements.readIndex (ho : HasElements owner) : readIndex h owner index =
    .ok (match index.elementIndex? with
      | some i => elementAt h owner i
      | none => (owner.intrinsic? h (index.display h)).getD .undefined) := by
  cases ho <;> unfold Place.readIndex <;> cases index.elementIndex? <;> rfl

theorem readIndex_eq_text_of_not (ho : ¬ HasElements owner) :
    readIndex h owner index = readIndex h owner (.text (index.display h)) := by
  cases owner with
  | array r => exact absurd (.array r) ho
  | text s => exact absurd (.text s) ho
  | _ => rfl

theorem elementAt_of_not (ho : ¬ HasElements owner) (i : Nat) :
    elementAt h owner i = .undefined := by
  cases owner with
  | array r => exact absurd (.array r) ho
  | text s => exact absurd (.text s) ho
  | _ => rfl

theorem Short.elementAt {i : Nat} (short : Short h owner) (hi : 4294967295 ≤ i) :
    elementAt h owner i = .undefined := by
  cases owner with
  | array r =>
    have none : (h.items r)[i]? = none :=
      Array.getElem?_eq_none (Nat.le_trans (Nat.le_of_lt short) hi)
    rw [Place.elementAt, none, Option.getD_none]
  | text s =>
    have none : s.toList[i]? = none :=
      List.getElem?_eq_none (Nat.le_trans (Nat.le_of_lt short) hi)
    rw [Place.elementAt, charAt, none]
  | _ => rfl

theorem misread_iff {i : Nat} (hs : spelledIndex? (index.display h) = some i) :
    Misread h owner index ↔ (∃ r, index = .array r) ∧ elementAt h owner i ≠ .undefined := by
  simp only [Misread, hs, Option.some.injEq, exists_eq_left']

theorem readIndex_eq_text_iff (short : Short h owner) :
    readIndex h owner index = readIndex h owner (.text (index.display h)) ↔
      ¬ Misread h owner index := by
  by_cases ho : HasElements owner
  · rw [ho.readIndex, ho.readIndex, Value.display_text, Value.elementIndex?_text]
    cases hs : spelledIndex? (index.display h) with
    | none =>
      rw [Value.elementIndex?_eq_none hs]
      exact iff_of_true rfl fun misread => by simp [Misread, hs] at misread
    | some i =>
      rw [misread_iff hs]
      cases he : index.elementIndex? with
      | some j =>
        obtain rfl : i = j :=
          Option.some.inj (hs.symm.trans (Value.spelledIndex?_of_elementIndex? he))
        refine iff_of_true rfl fun misread => ?_
        obtain ⟨r, rfl⟩ := misread.1
        cases he
      | none =>
        rw [intrinsic?_of_spelledIndex? hs, Option.getD_none, Except.ok.injEq, eq_comm]
        rcases Value.array_or_beyond hs he with isArray | beyond
        · simp [isArray]
        · simp [short.elementAt beyond]
  · refine iff_of_true (readIndex_eq_text_of_not ho) ?_
    rintro ⟨-, i, -, found⟩
    exact found (elementAt_of_not ho i)

end Reading

section Writing

variable {h : Heap} {owner index v : Value}

theorem setIndex_text (key : String) :
    setIndex h owner (.text key) v = setMember h owner key v := by
  cases owner with
  | array r =>
    unfold setIndex
    rw [Value.elementIndex?_text]
    cases hs : spelledIndex? key with
    | none => rfl
    | some i =>
      have length : key ≠ "length" := ne_of_spelledIndex? hs (by decide)
      simp [setMember, Value.isNullish, hs, length]
  | _ => rfl

theorem setIndex_eq_text :
    setIndex h owner index v = setIndex h owner (.text (index.display h)) v := by
  cases he : index.elementIndex? with
  | some i =>
    have hs := Value.spelledIndex?_of_elementIndex? (h := h) he
    cases owner <;> unfold setIndex <;>
      simp only [he, Value.elementIndex?_text, hs, Value.display_text]
  | none =>
    rw [setIndex_text]
    cases owner <;> unfold setIndex <;> simp only [he]

end Writing

end Place

namespace Action

variable {σ : Type}

theorem ofExcept_eq_iff {α : Type} {line : Nat} {x y : Except Failure α} {s : State σ} :
    ofExcept line x s = ofExcept line y s ↔ x = y := by
  constructor
  · intro h
    cases x <;> cases y <;> simp_all [ofExcept, Action.pure, fail, interrupt]
  · exact fun h => h ▸ rfl

theorem readPlace_index_eq_iff {owner index index' : Value} {line : Nat} {s : State σ} :
    readPlace (.index owner index) line s = readPlace (.index owner index') line s ↔
      Place.readIndex s.heap owner index = Place.readIndex s.heap owner index' :=
  ofExcept_eq_iff

theorem index_by_text (s : State σ) (owner index : Value) (line : Nat)
    (short : Place.Short s.heap owner) :
    (∀ v, writePlace (.index owner index) v line s =
      writePlace (.index owner (.text (index.display s.heap))) v line s) ∧
    (readPlace (.index owner index) line s =
        readPlace (.index owner (.text (index.display s.heap))) line s ↔
      ¬ Place.Misread s.heap owner index) := by
  constructor
  · intro v
    simp only [writePlace, edit]
    rw [Place.setIndex_eq_text]
  · exact readPlace_index_eq_iff.trans (Place.readIndex_eq_text_iff short)

def nested : State Unit where
  bindings := ∅
  heap := ⟨#[#[.text "a", .text "b"], #[.text "1"], #[.text "5"]], #[]⟩
  config := ⟨0⟩
  canvas := .standard
  maxCallDepth := 1
  depth := 0
  units := 0
  world := ()

theorem short_nested : Place.Short nested.heap (.array ⟨0⟩) := by
  show 2 < 4294967295
  decide

theorem nested_by_text :
    Place.Short nested.heap (.array ⟨0⟩) ∧ ¬ Place.Misread nested.heap (.array ⟨0⟩) (.array ⟨2⟩) ∧
    (∀ v, writePlace (.index (.array ⟨0⟩) (.array ⟨2⟩)) v 1 nested =
      writePlace (.index (.array ⟨0⟩) (.text "5")) v 1 nested) ∧
    readPlace (.index (.array ⟨0⟩) (.array ⟨2⟩)) 1 nested =
      readPlace (.index (.array ⟨0⟩) (.text "5")) 1 nested := by
  have spelled : spelledIndex? ((Value.array ⟨2⟩).display nested.heap) = some 5 := by decide
  have fine : ¬ Place.Misread nested.heap (.array ⟨0⟩) (.array ⟨2⟩) := fun misread =>
    ((Place.misread_iff spelled).1 misread).2 rfl
  obtain ⟨write, read⟩ := index_by_text nested (.array ⟨0⟩) (.array ⟨2⟩) 1 short_nested
  exact ⟨short_nested, fine, write, read.2 fine⟩

theorem nested_misread :
    ¬ ∀ (s : State Unit) (owner index : Value) (line : Nat), Place.Short s.heap owner →
      readPlace (.index owner index) line s =
        readPlace (.index owner (.text (index.display s.heap))) line s := by
  intro claimed
  have spelled : spelledIndex? ((Value.array ⟨1⟩).display nested.heap) = some 1 := by decide
  have misread : Place.Misread nested.heap (.array ⟨0⟩) (.array ⟨1⟩) :=
    (Place.misread_iff spelled).2 ⟨⟨⟨1⟩, rfl⟩, nofun⟩
  have equal := readPlace_index_eq_iff.1 (claimed nested (.array ⟨0⟩) (.array ⟨1⟩) 1 short_nested)
  exact (Place.readIndex_eq_text_iff short_nested).1 equal misread

end Action

end CanvasScript
