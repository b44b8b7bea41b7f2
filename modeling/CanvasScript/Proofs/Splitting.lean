import CanvasScript.Place
import CanvasScript.Proofs.Display.Growth
import CanvasScript.Proofs.Indexing
import CanvasScript.Text.Search
import Mathlib

namespace CanvasScript.Text

variable {needle separator text : List Char} {j k : Nat}

structure First (needle text : List Char) (k : Nat) : Prop where
  here : needle <+: text.drop k
  before : ∀ j < k, ¬ needle <+: text.drop j

theorem occurs_iff : needle <:+: text ↔ ∃ k, needle <+: text.drop k := by
  constructor
  · rintro ⟨s, t, rfl⟩
    refine ⟨s.length, t, ?_⟩
    rw [List.append_assoc, List.drop_left]
  · rintro ⟨k, h⟩
    exact h.isInfix.trans (List.drop_suffix k text).isInfix

namespace First

theorem inside (h : First needle text k) : needle <:+: text := occurs_iff.2 ⟨k, h.here⟩

theorem unique (h : First needle text k) (h' : First needle text j) : k = j := by
  rcases Nat.lt_trichotomy k j with less | same | more
  · exact absurd h.here (h'.before k less)
  · exact same
  · exact absurd h'.here (h.before j more)

theorem le_length (h : First needle text k) : k ≤ text.length := by
  by_contra beyond
  have last : text.drop k = text.drop text.length := by
    rw [List.drop_length, List.drop_eq_nil_of_le (by omega)]
  exact h.before text.length (by omega) (last ▸ h.here)

theorem add_length_le (h : First needle text k) : k + needle.length ≤ text.length := by
  have fits := h.here.length_le
  have start := h.le_length
  rw [List.length_drop] at fits
  omega

theorem take_drop (h : First needle text k) : (text.drop k).take needle.length = needle :=
  (List.prefix_iff_eq_take.1 h.here).symm

theorem parted (h : First needle text k) :
    text = text.take k ++ (needle ++ text.drop (k + needle.length)) := by
  have behind := List.prefix_append_drop h.here
  rw [List.drop_drop] at behind
  rw [← behind, List.take_append_drop]

theorem cons {c : Char} (h : First needle text k) (start : ¬ needle <+: c :: text) :
    First needle (c :: text) (k + 1) := by
  refine ⟨h.here, fun j hj => ?_⟩
  cases j with
  | zero => exact start
  | succ j => exact h.before j (Nat.lt_of_succ_lt_succ hj)

end First

theorem find?_spec (needle text : List Char) :
    (∃ k, find? needle text = some k ∧ First needle text k) ∨
      find? needle text = none ∧ ¬ needle <:+: text := by
  induction text with
  | nil =>
    rw [find?]
    by_cases empty : needle = []
    · refine .inl ⟨0, by simp [empty], by simp [empty], by simp⟩
    · refine .inr ⟨by simp [empty], fun inside => empty (List.infix_nil.1 inside)⟩
  | cons c text ih =>
    rw [find?]
    by_cases start : needle <+: c :: text
    · rw [if_pos (List.isPrefixOf_iff_prefix.2 start)]
      exact .inl ⟨0, rfl, start, by simp⟩
    · rw [if_neg (mt List.isPrefixOf_iff_prefix.1 start)]
      rcases ih with ⟨k, found, first⟩ | ⟨missing, apart⟩
      · exact .inl ⟨k + 1, by rw [found]; rfl, first.cons start⟩
      · refine .inr ⟨by rw [missing]; rfl, fun inside => ?_⟩
        exact (List.infix_cons_iff.1 inside).elim start apart

theorem find?_eq_some_iff : find? needle text = some k ↔ First needle text k := by
  rcases find?_spec needle text with ⟨j, found, first⟩ | ⟨missing, apart⟩
  · rw [found, Option.some.injEq]
    exact ⟨fun same => same ▸ first, fun other => first.unique other⟩
  · rw [missing]
    exact iff_of_false (Option.some_ne_none k).symm fun first => apart first.inside

theorem find?_eq_none_iff : find? needle text = none ↔ ¬ needle <:+: text := by
  rcases find?_spec needle text with ⟨j, found, first⟩ | ⟨missing, apart⟩
  · rw [found]
    exact iff_of_false (Option.some_ne_none j) (not_not_intro first.inside)
  · exact iff_of_true missing apart

inductive Cuts (separator : List Char) : List Char → List (List Char) → Prop
  | whole {text : List Char} : ¬ separator <:+: text → Cuts separator text [text]
  | cut {before after : List Char} {pieces : List (List Char)} :
      First separator (before ++ (separator ++ after)) before.length →
      Cuts separator after pieces →
      Cuts separator (before ++ (separator ++ after)) (before :: pieces)

namespace Cuts

variable {pieces : List (List Char)}

theorem ne_nil (h : Cuts separator text pieces) : pieces ≠ [] := by
  cases h <;> exact List.cons_ne_nil _ _

theorem intercalate_eq (h : Cuts separator text pieces) :
    separator.intercalate pieces = text := by
  induction h with
  | whole _ => rw [List.intercalate_singleton]
  | cut _ rest ih => rw [List.intercalate_cons_of_ne_nil rest.ne_nil, ih, List.append_assoc]

theorem apart (hs : separator ≠ []) (h : Cuts separator text pieces) :
    ∀ piece ∈ pieces, ¬ separator <:+: piece := by
  induction h with
  | whole apart =>
    intro piece hp
    rw [List.mem_singleton.1 hp]
    exact apart
  | @cut before after pieces first rest ih =>
    intro piece hp
    rcases List.mem_cons.1 hp with rfl | hp
    -- An occurrence inside the piece would be one further left than the leftmost.
    · rintro ⟨s, t, rfl⟩
      have positive := List.length_pos_iff.2 hs
      refine first.before s.length (by simp; omega) ⟨t ++ (separator ++ after), ?_⟩
      simp only [List.append_assoc, List.drop_left]
    · exact ih piece hp

end Cuts

section Split

theorem splitFrom_skip (separator : List Char) (n : Nat) (text : List Char) :
    splitFrom separator n text = splitFrom separator 0 (text.drop n) := by
  induction n generalizing text with
  | zero => rfl
  | succ n ih =>
    cases text with
    | nil => rfl
    | cons c text => exact ih text

theorem splitFrom_of_find?_eq_none (h : find? separator text = none) :
    splitFrom separator 0 text = [text] := by
  induction text with
  | nil => rfl
  | cons c text ih =>
    rw [find?] at h
    split at h
    · cases h
    · rename_i start
      rw [splitFrom, if_neg start, ih (Option.map_eq_none_iff.1 h), consFirst]

theorem splitFrom_of_find?_eq_some (hs : separator ≠ []) (h : find? separator text = some k) :
    splitFrom separator 0 text =
      text.take k :: splitFrom separator 0 (text.drop (k + separator.length)) := by
  induction text generalizing k with
  | nil => simp [find?, hs] at h
  | cons c text ih =>
    rw [find?] at h
    split at h
    · rename_i start
      cases h
      obtain ⟨n, hn⟩ : ∃ n, separator.length = n + 1 :=
        Nat.exists_eq_add_one.2 (List.length_pos_iff.2 hs)
      rw [splitFrom, if_pos start, splitFrom_skip, hn, Nat.zero_add, List.drop_succ_cons,
        List.take_zero, Nat.add_sub_cancel]
    · rename_i start
      obtain ⟨j, found, rfl⟩ := Option.map_eq_some_iff.1 h
      rw [splitFrom, if_neg start, ih found, consFirst, List.take_succ_cons, Nat.add_right_comm,
        List.drop_succ_cons]

theorem splitFrom_cuts (hs : separator ≠ []) (text : List Char) :
    Cuts separator text (splitFrom separator 0 text) := by
  -- What is behind an occurrence is shorter, as the separator is not empty.
  induction hn : text.length using Nat.strong_induction_on generalizing text with
  | _ n ih =>
    cases found : find? separator text with
    | none =>
      rw [splitFrom_of_find?_eq_none found]
      exact .whole (find?_eq_none_iff.1 found)
    | some k =>
      have first := find?_eq_some_iff.1 found
      have positive := List.length_pos_iff.2 hs
      have room := first.add_length_le
      have shorter : (text.drop (k + separator.length)).length < n := by
        rw [List.length_drop]
        omega
      have rest := ih _ shorter _ rfl
      have start : (text.take k).length = k := List.length_take_of_le first.le_length
      have parted := first.parted
      rw [splitFrom_of_find?_eq_some hs found]
      generalize text.drop (k + separator.length) = after at *
      generalize text.take k = before at *
      subst start parted
      exact .cut first rest

theorem split_cuts (hs : separator ≠ []) (text : List Char) :
    Cuts separator text (split separator text) := by
  rw [split, if_neg (mt List.isEmpty_iff.1 hs)]
  exact splitFrom_cuts hs text

theorem split_nil (text : List Char) : split [] text = text.map fun c => [c] := rfl

theorem intercalate_split (separator text : List Char) :
    separator.intercalate (split separator text) = text := by
  by_cases hs : separator = []
  · subst hs
    rw [split_nil]
    induction text with
    | nil => rfl
    | cons c text ih =>
      cases text with
      | nil => rfl
      | cons d text =>
        rw [List.map_cons, List.map_cons, List.intercalate_cons_cons]
        rw [List.map_cons] at ih
        rw [ih]
        rfl
  · exact (split_cuts hs text).intercalate_eq

end Split

end CanvasScript.Text

namespace CanvasScript

open Value (arg)

namespace Method

variable {h : Heap} {s : String} {v : Value}

theorem pieces_of_ne (hv : v ≠ .undefined) : pieces h s v =
    (Text.split (v.display h).toList s.toList).map String.ofList := by
  cases v with
  | undefined => exact absurd rfl hv
  | _ => rfl

theorem separator_of_ne (hv : v ≠ .undefined) : separator h v = v.display h := by
  cases v with
  | undefined => exact absurd rfl hv
  | _ => rfl

theorem toList_pieces (hv : v ≠ .undefined) :
    (pieces h s v).map String.toList = Text.split (v.display h).toList s.toList := by
  rw [pieces_of_ne hv, List.map_map]
  exact List.map_id'' (fun piece => String.toList_ofList) _

theorem joined_texts (h : Heap) (separator : String) (texts : List String) :
    joined h separator (texts.map Value.text) = separator.intercalate texts := by
  rw [joined, List.map_map]
  exact congrArg _ (List.map_id'' (fun text => rfl) texts)

theorem intercalate_pieces (h : Heap) (s : String) (v : Value) :
    (separator h v).intercalate (pieces h s v) = s := by
  by_cases hv : v = .undefined
  · subst hv
    exact String.intercalate_singleton
  · refine String.toList_inj.1 ?_
    rw [String.toList_intercalate, toList_pieces hv, separator_of_ne hv, Text.intercalate_split]

theorem pieces_cuts (hv : v ≠ .undefined) (hs : v.display h ≠ "") :
    Text.Cuts (v.display h).toList s.toList ((pieces h s v).map String.toList) ∧
      ∀ piece ∈ pieces h s v, ¬ (v.display h).toList <:+: piece.toList := by
  have filled : (v.display h).toList ≠ [] := mt String.toList_eq_nil_iff.1 hs
  have cuts := Text.split_cuts filled s.toList
  rw [← toList_pieces hv] at cuts
  exact ⟨cuts, fun piece hp => cuts.apart filled _ (List.mem_map_of_mem hp)⟩

end Method

namespace Action

variable {σ : Type}

def withArray (st : State σ) (items : List Value) : State σ :=
  { st with heap := (st.heap.newArray items.toArray).2 }

def nextArray (st : State σ) : ArrayRef := ⟨st.heap.arrays.size⟩

theorem withArray_grown (st : State σ) (items : List Value) :
    st.heap.Grown (withArray st items).heap := st.heap.newArray_grown _

theorem items_nextArray (st : State σ) (items : List Value) :
    ((withArray st items).heap.items (nextArray st)).toList = items :=
  congrArg Array.toList (st.heap.items_newArray_self items.toArray)

theorem split_run (s : String) (args : List Value) (line : Nat) (st : State σ) :
    callMethod (.text .split) (.text s) args line st = (.ok (.array (nextArray st)),
      withArray st ((Method.pieces st.heap s (arg args 0)).map Value.text)) := rfl

theorem join_run (r : ArrayRef) (args : List Value) (line : Nat) (st : State σ) :
    callMethod (.array .join) (.array r) args line st =
      (.ok (.text (Method.joined st.heap (Method.separator st.heap (arg args 0))
        (st.heap.items r).toList)), st) := rfl

theorem join_split (st : State σ) (s : String) (args : List Value) (line : Nat)
    (made : (arg args 0).Made st.heap) :
    ∃ (r : ArrayRef) (st' : State σ) (pieces : List String),
      callMethod (.text .split) (.text s) args line st = (.ok (.array r), st') ∧
      (st'.heap.items r).toList = pieces.map Value.text ∧
      callMethod (.array .join) (.array r) args line st' = (.ok (.text s), st') ∧
      (arg args 0 ≠ .undefined → (arg args 0).display st.heap ≠ "" →
        Text.Cuts ((arg args 0).display st.heap).toList s.toList (pieces.map String.toList) ∧
        ∀ piece ∈ pieces, ¬ ((arg args 0).display st.heap).toList <:+: piece.toList) := by
  refine ⟨_, _, _, split_run s args line st, items_nextArray st _, ?_,
    fun given filled => Method.pieces_cuts given filled⟩
  have kept (items : List Value) : Method.separator (withArray st items).heap (arg args 0) =
      Method.separator st.heap (arg args 0) :=
    Method.separator_grown (withArray_grown st items) made
  rw [join_run, items_nextArray, kept, Method.joined_texts, Method.intercalate_pieces]

theorem made_nested {r : ArrayRef} (hr : r.index < 3) : (Value.array r).Made nested.heap := by
  obtain ⟨i⟩ := r
  have flat (q : ArrayRef) : ¬ nested.heap.Nests ⟨i⟩ q := by
    intro edge
    interval_cases i <;> simp [Heap.Nests, Heap.items, nested] at edge
  intro q reached
  rcases Relation.ReflTransGen.cases_head reached with same | ⟨p, edge, -⟩
  · exact same ▸ hr
  · exact absurd edge (flat p)

theorem nested_joined : (arg [.array ⟨0⟩] 0).Made nested.heap ∧
    ∃ (r : ArrayRef) (st' : State Unit) (pieces : List String),
      callMethod (.text .split) (.text "ba,ba,b") [.array ⟨0⟩] 1 nested = (.ok (.array r), st') ∧
      (st'.heap.items r).toList = pieces.map Value.text ∧
      callMethod (.array .join) (.array r) [.array ⟨0⟩] 1 st' = (.ok (.text "ba,ba,b"), st') ∧
      (arg [.array ⟨0⟩] 0 ≠ .undefined → (arg [.array ⟨0⟩] 0).display nested.heap ≠ "" →
        Text.Cuts ((arg [.array ⟨0⟩] 0).display nested.heap).toList "ba,ba,b".toList
          (pieces.map String.toList) ∧
        ∀ piece ∈ pieces,
          ¬ ((arg [.array ⟨0⟩] 0).display nested.heap).toList <:+: piece.toList) := by
  have made : (arg [.array ⟨0⟩] 0).Made nested.heap := made_nested (by decide)
  exact ⟨made, join_split nested "ba,ba,b" [.array ⟨0⟩] 1 made⟩

end Action

end CanvasScript
