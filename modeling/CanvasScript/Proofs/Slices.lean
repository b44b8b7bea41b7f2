import CanvasScript.Proofs.Layout.Values
import CanvasScript.Proofs.Positions
import CanvasScript.Proofs.Segments.Cursors
import CanvasScript.Proofs.Splitting

namespace CanvasScript

open Value (arg)

namespace Method

variable {α : Type} {h : Heap} {v k zero a b : Value} {n length default : Nat}

theorem relativeIndex_le (hd : default ≤ length) : relativeIndex h v length default ≤ length := by
  cases v with
  | undefined => exact hd
  | _ =>
    simp only [relativeIndex]
    split <;> omega

theorem relativeIndex_of_ne (hv : v ≠ .undefined) (default' : Nat) :
    relativeIndex h v length default = relativeIndex h v length default' := by
  cases v with
  | undefined => exact absurd rfl hv
  | _ => rfl

theorem relativeIndex_position (hv : v.IsPosition h n) :
    relativeIndex h v length default = min n length := by
  obtain ⟨given, position⟩ := hv
  cases v with
  | undefined => exact absurd rfl given
  | _ =>
    simp only [relativeIndex, position]
    rw [if_neg (Int.natCast_nonneg n).not_gt, Int.toNat_natCast]

def part? (xs : List α) (start stop : Nat) : Option (List α) :=
  if start ≤ stop ∧ stop ≤ xs.length then some ((xs.take stop).drop start) else none

def cut? (h : Heap) (xs : List α) (args : List Value) : Option (List α) :=
  let start := relativeIndex h (arg args 0) xs.length 0
  let stop := relativeIndex h (arg args 1) xs.length xs.length
  if start < stop then part? xs start stop else some []

theorem cut?_eq (h : Heap) (xs : List α) (args : List Value) :
    cut? h xs args = some (cut h xs args) := by
  have inside : relativeIndex h (arg args 1) xs.length xs.length ≤ xs.length :=
    relativeIndex_le (Nat.le_refl _)
  unfold cut? cut
  dsimp only
  split
  · rename_i order
    rw [part?, if_pos ⟨order.le, inside⟩]
  · rename_i empty
    rw [List.drop_eq_nil_of_le]
    rw [List.length_take]
    omega

/-- The bounds of a cut lie inside of the list, they are those that binary numbers give, and no
element is missed. -/
structure InBounds (h : Heap) (xs : List α) (args : List Value) : Prop where
  start : relativeIndex h (arg args 0) xs.length 0 ≤ xs.length
  stop : relativeIndex h (arg args 1) xs.length xs.length ≤ xs.length
  rounded : xs.length ≤ 2 ^ 53 →
    roundedIndex h (arg args 0) xs.length 0 = relativeIndex h (arg args 0) xs.length 0 ∧
      roundedIndex h (arg args 1) xs.length xs.length =
        relativeIndex h (arg args 1) xs.length xs.length
  checked : cut? h xs args = some (cut h xs args)

theorem inBounds (h : Heap) (xs : List α) (args : List Value) : InBounds h xs args where
  start := relativeIndex_le (Nat.zero_le _)
  stop := relativeIndex_le (Nat.le_refl _)
  rounded short := ⟨roundedIndex_eq short _, roundedIndex_eq short _⟩
  checked := cut?_eq h xs args

theorem cut_append (hz : zero.IsPosition h 0) (hk : k ≠ .undefined) (xs : List α) :
    cut h xs [zero, k] ++ cut h xs [k] = xs := by
  have first : cut h xs [zero, k] = xs.take (relativeIndex h k xs.length 0) := by
    show (xs.take _).drop (relativeIndex h zero xs.length 0) = _
    rw [relativeIndex_position hz, Nat.zero_min, List.drop_zero]
    exact congrArg (xs.take ·) (relativeIndex_of_ne hk 0)
  have second : cut h xs [k] = xs.drop (relativeIndex h k xs.length 0) := by
    show (xs.take xs.length).drop _ = _
    rw [List.take_length]
    rfl
  rw [first, second, List.take_append_drop]

theorem cut_from (ha : a.IsPosition h n) (xs : List α) : cut h xs [a] = xs.drop n := by
  show (xs.take xs.length).drop (relativeIndex h a xs.length 0) = _
  rw [relativeIndex_position ha, List.take_length]
  exact List.drop_eq_drop_min.symm

theorem cut_between {i j : Nat} (ha : a.IsPosition h i) (hb : b.IsPosition h j) (xs : List α) :
    cut h xs [a, b] = (xs.take j).drop i := by
  show (xs.take (relativeIndex h b xs.length xs.length)).drop (relativeIndex h a xs.length 0) = _
  rw [relativeIndex_position ha, relativeIndex_position hb, ← List.take_eq_take_min]
  rcases le_total i xs.length with inside | beyond
  · rw [Nat.min_eq_left inside]
  · rw [Nat.min_eq_right beyond, List.drop_eq_nil_of_le (by simp),
      List.drop_eq_nil_of_le (by simp; omega)]

theorem cut_one {i : Nat} (ha : a.IsPosition h i) (hb : b.IsPosition h (i + 1)) {xs : List α}
    (hi : i < xs.length) : cut h xs [a, b] = [xs[i]] := by
  rw [cut_between ha hb, List.take_succ_eq_append_getElem hi]
  exact List.drop_left' (List.length_take_of_le hi.le)

theorem pieces_empty (h : Heap) (s : String) :
    pieces h s (.text "") = s.toList.map String.singleton := by
  show (Text.split [] s.toList).map String.ofList = _
  rw [Text.split_nil, List.map_map]
  rfl

theorem joined_singletons (h : Heap) (cs : List Char) :
    joined h (separator h (.text "")) ((cs.map String.singleton).map Value.text) =
      String.ofList cs := by
  rw [joined_texts]
  refine String.toList_inj.1 ?_
  have characters : (cs.map String.singleton).map String.toList = Text.split [] cs := by
    rw [List.map_map]
    exact List.map_congr_left fun c _ => String.toList_singleton c
  rw [String.toList_intercalate, characters, String.toList_ofList]
  exact Text.intercalate_split [] cs

end Method

namespace Action

variable {σ : Type} {st : State σ} {args : List Value} {line i : Nat} {k index : Value}

theorem slice_run (st : State σ) (s : String) (args : List Value) (line : Nat) :
    callMethod (.text .slice) (.text s) args line st =
      (.ok (.text (String.ofList (Method.cut st.heap s.toList args))), st) := rfl

theorem slice_array_run (st : State σ) (r : ArrayRef) (args : List Value) (line : Nat) :
    callMethod (.array .slice) (.array r) args line st = (.ok (.array (nextArray st)),
      withArray st (Method.cut st.heap (st.heap.items r).toList args)) := rfl

theorem slice_eq_split_slice_join (made : ∀ v ∈ args, v.Made st.heap) (s : String) (line : Nat) :
    ∃ (t : String) (r q : ArrayRef) (st' st'' : State σ),
      callMethod (.text .split) (.text s) [.text ""] line st = (.ok (.array r), st') ∧
      callMethod (.array .slice) (.array r) args line st' = (.ok (.array q), st'') ∧
      callMethod (.array .join) (.array q) [.text ""] line st'' = (.ok (.text t), st'') ∧
      callMethod (.text .slice) (.text s) args line st = (.ok (.text t), st) ∧
      (st'.heap.items r).size = s.length := by
  have characters : Method.pieces st.heap s (arg [.text ""] 0) = s.toList.map String.singleton :=
    Method.pieces_empty st.heap s
  have kept (items : List Value) (xs : List Value) :
      Method.cut (withArray st items).heap xs args = Method.cut st.heap xs args :=
    Method.cut_grown (withArray_grown st items) made xs
  refine ⟨_, _, _, _, _, split_run s [.text ""] line st, slice_array_run _ _ args line,
    join_run _ [.text ""] line _, ?_, ?_⟩
  · rw [slice_run, items_nextArray, items_nextArray, kept, characters, Method.cut_map,
      Method.cut_map]
    exact congrArg (fun t => (Except.ok (Value.text t), st)) (Method.joined_singletons _ _).symm
  · have content := items_nextArray st ((Method.pieces st.heap s (arg [.text ""] 0)).map Value.text)
    rw [← Array.length_toList, content, characters, List.length_map, List.length_map]
    rfl

theorem length_text (s : String) :
    readPlace (.member (.text s) "length") line st = (.ok (.number (Number.ofNat s.length)), st) :=
  rfl

theorem length_array (r : ArrayRef) : readPlace (.member (.array r) "length") line st =
    (.ok (.number (Number.ofNat (st.heap.items r).size)), st) := rfl

theorem index_eq_slice (s : String) (hi : index.elementIndex? = some i) (inside : i < s.length) :
    ∃ c : Char, readPlace (.index (.text s) index) line st = (.ok (.text c.toString), st) ∧
      ∀ a b : Value, a.IsPosition st.heap i → b.IsPosition st.heap (i + 1) →
        callMethod (.text .slice) (.text s) [a, b] line st = (.ok (.text c.toString), st) := by
  have inside : i < s.toList.length := inside
  refine ⟨s.toList[i], ?_, fun a b ha hb => ?_⟩
  · rw [readPlace, (Place.HasElements.text s).readIndex, hi]
    dsimp only [Place.elementAt, Place.charAt]
    rw [List.getElem?_eq_getElem inside]
    rfl
  · rw [slice_run, Method.cut_one ha hb inside]
    rfl

theorem index_beyond (s : String) (hi : index.elementIndex? = some i) (beyond : s.length ≤ i) :
    readPlace (.index (.text s) index) line st = (.ok .undefined, st) := by
  rw [readPlace, (Place.HasElements.text s).readIndex, hi]
  dsimp only [Place.elementAt, Place.charAt]
  rw [List.getElem?_eq_none beyond]
  rfl

theorem slice_text_parts (hk : k ≠ .undefined) (s : String) : ∃ t t' : String,
    callMethod (.text .slice) (.text s) [.number (Number.ofNat 0), k] line st =
      (.ok (.text t), st) ∧
    callMethod (.text .slice) (.text s) [k] line st = (.ok (.text t'), st) ∧ t ++ t' = s := by
  refine ⟨_, _, slice_run st s _ line, slice_run st s _ line, ?_⟩
  rw [← String.ofList_append, Method.cut_append (Value.isPosition_ofNat (Nat.zero_le _)) hk,
    String.ofList_toList]

theorem slice_array_parts (hk : k ≠ .undefined) (made : k.Made st.heap) {r : ArrayRef}
    (hr : r.index < st.heap.arrays.size) : ∃ (q q' : ArrayRef) (st' st'' : State σ),
      callMethod (.array .slice) (.array r) [.number (Number.ofNat 0), k] line st =
        (.ok (.array q), st') ∧
      callMethod (.array .slice) (.array r) [k] line st' = (.ok (.array q'), st'') ∧
      st''.heap.items q ++ st''.heap.items q' = st.heap.items r ∧ st.heap.Grown st''.heap := by
  refine ⟨_, _, _, _, slice_array_run st r _ line, slice_array_run _ r [k] line, ?_,
    (withArray_grown _ _).trans (withArray_grown _ _)⟩
  -- The second slice is made on a heap that has the first one, and its own comes on top of that.
  generalize first : Method.cut st.heap (st.heap.items r).toList _ = before
  have grown := withArray_grown st before
  have second : Method.cut (withArray st before).heap ((withArray st before).heap.items r).toList
      [k] = Method.cut st.heap (st.heap.items r).toList [k] := by
    have only : ∀ v ∈ [k], v.Made st.heap := fun v hv => List.mem_singleton.1 hv ▸ made
    rw [grown.items r hr, Method.cut_grown grown only]
  rw [second]
  have kept := (withArray_grown (withArray st before)
    (Method.cut st.heap (st.heap.items r).toList [k])).items (nextArray st) ?_
  · apply Array.toList_inj.1
    rw [Array.toList_append, kept, items_nextArray, items_nextArray, ← first,
      Method.cut_append (Value.isPosition_ofNat (Nat.zero_le _)) hk]
  · show st.heap.arrays.size < (st.heap.arrays.push _).size
    rw [Array.size_push]
    exact Nat.lt_succ_self _

structure SlicesAgree (st : State σ) (args : List Value) (line : Nat) : Prop where
  text (s : String) : ∃ (t : String) (n : Value) (r q : ArrayRef) (st' st'' : State σ),
    callMethod (.text .split) (.text s) [.text ""] line st = (.ok (.array r), st') ∧
    callMethod (.array .slice) (.array r) args line st' = (.ok (.array q), st'') ∧
    callMethod (.array .join) (.array q) [.text ""] line st'' = (.ok (.text t), st'') ∧
    callMethod (.text .slice) (.text s) args line st = (.ok (.text t), st) ∧
    readPlace (.member (.text s) "length") line st = (.ok n, st) ∧
    readPlace (.member (.array r) "length") line st' = (.ok n, st') ∧
    Method.InBounds st.heap s.toList args
  array (r : ArrayRef) : r.index < st.heap.arrays.size → ∃ (q : ArrayRef) (st' : State σ),
    callMethod (.array .slice) (.array r) args line st = (.ok (.array q), st') ∧
    (st'.heap.items q).toList = Method.cut st.heap (st.heap.items r).toList args ∧
    st'.heap.items r = st.heap.items r ∧ st.heap.Grown st'.heap ∧
    Method.InBounds st.heap (st.heap.items r).toList args
  index (s : String) (index : Value) (i : Nat) : index.elementIndex? = some i → i < s.length →
    ∃ c : Char, readPlace (.index (.text s) index) line st = (.ok (.text c.toString), st) ∧
      ∀ a b : Value, a.IsPosition st.heap i → b.IsPosition st.heap (i + 1) →
        callMethod (.text .slice) (.text s) [a, b] line st = (.ok (.text c.toString), st)
  beyond (s : String) (index : Value) (i : Nat) : index.elementIndex? = some i → s.length ≤ i →
    readPlace (.index (.text s) index) line st = (.ok .undefined, st)
  position (i : Nat) : i ≤ 2 ^ 53 → (Value.number (Number.ofNat i)).IsPosition st.heap i
  next (x : Float) (i : Nat) : (Value.number x).elementIndex? = some i →
    (Value.number x).IsPosition st.heap i ∧
      (Value.binary st.heap (.arith .add) (.number x) (.number (Number.ofNat 1))).IsPosition
        st.heap (i + 1)
  textParts (k : Value) (s : String) : k ≠ .undefined → ∃ t t' : String,
    callMethod (.text .slice) (.text s) [.number (Number.ofNat 0), k] line st =
      (.ok (.text t), st) ∧
    callMethod (.text .slice) (.text s) [k] line st = (.ok (.text t'), st) ∧ t ++ t' = s
  arrayParts (k : Value) (r : ArrayRef) : k ≠ .undefined → k.Made st.heap →
    r.index < st.heap.arrays.size → ∃ (q q' : ArrayRef) (st' st'' : State σ),
      callMethod (.array .slice) (.array r) [.number (Number.ofNat 0), k] line st =
        (.ok (.array q), st') ∧
      callMethod (.array .slice) (.array r) [k] line st' = (.ok (.array q'), st'') ∧
      st''.heap.items q ++ st''.heap.items q' = st.heap.items r ∧ st.heap.Grown st''.heap

theorem slices_agree (st : State σ) (args : List Value) (line : Nat)
    (made : ∀ v ∈ args, v.Made st.heap) : SlicesAgree st args line := by
  constructor
  · intro s
    obtain ⟨t, r, q, st', st'', split, slice, join, direct, size⟩ :=
      slice_eq_split_slice_join made s line
    refine ⟨t, _, r, q, st', st'', split, slice, join, direct, length_text s, ?_,
      Method.inBounds _ _ _⟩
    rw [length_array, size]
  · intro r hr
    have grown := withArray_grown st (Method.cut st.heap (st.heap.items r).toList args)
    exact ⟨_, _, slice_array_run st r args line, items_nextArray st _, grown.items r hr, grown,
      Method.inBounds _ _ _⟩
  · exact fun s index i hi inside => index_eq_slice s hi inside
  · exact fun s index i hi outside => index_beyond s hi outside
  · exact fun i hi => Value.isPosition_ofNat hi
  · exact fun x i hi => ⟨Value.isPosition_of_elementIndex? hi, Value.isPosition_add_one hi⟩
  · exact fun k s hk => slice_text_parts hk s
  · exact fun k r hk made hr => slice_array_parts hk made hr

theorem nested_sliced : (∀ v ∈ [Value.array ⟨1⟩, .text "-1"], v.Made nested.heap) ∧
    SlicesAgree nested [.array ⟨1⟩, .text "-1"] 1 := by
  have made : ∀ v ∈ [Value.array ⟨1⟩, .text "-1"], v.Made nested.heap := by
    intro v hv
    rcases List.mem_cons.1 hv with rfl | hv
    · exact made_nested (by decide)
    · exact List.mem_singleton.1 hv ▸ Value.made_of_kind nofun
  exact ⟨made, slices_agree nested _ 1 made⟩

end Action

namespace Number

theorem neg_ofNat_one : -(ofNat 1) = nearest true 1 1 := rfl

theorem ofNat_beq_minus_one (n : Nat) : (ofNat n == nearest true 1 1) = false := by
  have minus : shape (nearest true 1 1) = .finite true (2 ^ 52) (-52) := by decide +kernel
  have nearest : Nearest false (n / (1 : Nat)) (ofNat n) := nearest_nearest false n Nat.one_pos
  rw [Bool.eq_false_iff, Ne, Float.beq_iff_ne_nan_and_eq]
  rintro ⟨-, -, same | ⟨-, zero⟩ | ⟨-, zero⟩⟩
  · rw [← same] at minus
    cases nearest with
    | finite _ hs _ => cases hs.symm.trans minus
    | infinite _ hs => cases hs.symm.trans minus
  · exact absurd zero (by decide +kernel)
  · exact absurd zero (by decide +kernel)

end Number

namespace Text

open Marker (slice? sliceFrom? slice?_append sliceFrom?_append)
open String (utf8Len)

variable {needle text : List Char} {k b : Nat}

def findByte? (needle : List Char) : List Char → Option Nat
  | [] => if needle.isEmpty then some 0 else none
  | c :: cs =>
    if needle.isPrefixOf (c :: cs) then some 0 else (findByte? needle cs).map (· + c.utf8Size)

def charIndex? (text : List Char) (b : Nat) : Option Nat := (slice? text 0 b).map List.length

theorem findByte?_eq (needle text : List Char) :
    findByte? needle text = (find? needle text).map fun k => utf8Len (text.take k) := by
  induction text with
  | nil =>
    rw [findByte?, find?]
    split <;> rfl
  | cons c text ih =>
    rw [findByte?, find?]
    split
    · rfl
    · rw [ih, Option.map_map, Option.map_map]
      rfl

theorem slice?_take (text : List Char) (k : Nat) :
    slice? text 0 (utf8Len (text.take k)) = some (text.take k) := by
  have sliced := slice?_append [] (text.take k) (text.drop k)
  have start : utf8Len ([] : List Char) = 0 := rfl
  rwa [List.nil_append, List.take_append_drop, start, Nat.zero_add] at sliced

theorem sliceFrom?_take (text : List Char) (k : Nat) :
    sliceFrom? text (utf8Len (text.take k)) = some (text.drop k) := by
  have rest := sliceFrom?_append (text.take k) (text.drop k)
  rwa [List.take_append_drop] at rest

theorem find?_eq_bytes (needle text : List Char) :
    find? needle text = (findByte? needle text).bind (charIndex? text) := by
  rw [findByte?_eq]
  cases found : find? needle text with
  | none => rfl
  | some k =>
    have inside := (find?_eq_some_iff.1 found).le_length
    rw [Option.map_some, Option.bind_some, charIndex?, slice?_take, Option.map_some,
      List.length_take_of_le inside]

end Text

namespace Action

open Marker (slice? sliceFrom?)
open String (utf8Len)

variable {σ : Type} {st : State σ} {s t u : String} {line k : Nat}

theorem indexOf_run (st : State σ) (s t : String) (line : Nat) :
    callMethod (.text .indexOf) (.text s) [.text t] line st =
      (.ok (match Text.find? t.toList s.toList with
        | some i => .number (Number.ofNat i)
        | none => .number (Number.nearest true 1 1)), st) := rfl

theorem includes_run (st : State σ) (s t : String) (line : Nat) :
    callMethod (.text .includes) (.text s) [.text t] line st =
      (.ok (.bool (Text.find? t.toList s.toList).isSome), st) := rfl

theorem replace_run (st : State σ) (s t u : String) (line : Nat) :
    callMethod (.text .replace) (.text s) [.text t, .text u] line st =
      (.ok (.text (String.ofList (Text.replaceFirst t.toList u.toList s.toList))), st) := rfl

theorem ne_run (h : Heap) (x y : Float) :
    Value.binary h .ne (.number x) (.number y) = .bool (!(x == y)) := rfl

structure Found (st : State σ) (s t u : String) (line : Nat) (replaced : String) (k : Nat) :
    Prop where
  here (a b : Value) : a.IsPosition st.heap k → b.IsPosition st.heap (k + t.length) →
    callMethod (.text .slice) (.text s) [a, b] line st = (.ok (.text t), st)
  first (j : Nat) (a b : Value) : j < k → a.IsPosition st.heap j →
    b.IsPosition st.heap (j + t.length) → ∃ other, other ≠ t ∧
      callMethod (.text .slice) (.text s) [a, b] line st = (.ok (.text other), st)
  around (zero a b : Value) : zero.IsPosition st.heap 0 → a.IsPosition st.heap k →
    b.IsPosition st.heap (k + t.length) → ∃ before after,
      callMethod (.text .slice) (.text s) [zero, a] line st = (.ok (.text before), st) ∧
      callMethod (.text .slice) (.text s) [b] line st = (.ok (.text after), st) ∧
      replaced = before ++ u ++ after
  positions : s.length ≤ 2 ^ 53 → (Value.number (Number.ofNat k)).IsPosition st.heap k ∧
    (Value.binary st.heap (.arith .add) (.number (Number.ofNat k))
      (.number (Number.ofNat t.length))).IsPosition st.heap (k + t.length)
  bytes : ∃ b before after, Text.findByte? t.toList s.toList = some b ∧
    Text.charIndex? s.toList b = some k ∧ slice? s.toList 0 b = some before ∧
    sliceFrom? s.toList (b + utf8Len t.toList) = some after ∧
    replaced.toList = before ++ u.toList ++ after

theorem found_of_first (h : Text.First t.toList s.toList k) : Found st s t u line
    (String.ofList (s.toList.take k ++ u.toList ++ s.toList.drop (k + t.length))) k := by
  have room : k + t.length ≤ s.length := h.add_length_le
  constructor
  · intro a b ha hb
    have here : (s.toList.drop k).take t.length = t.toList := h.take_drop
    rw [slice_run, Method.cut_between ha hb, List.drop_take, Nat.add_sub_cancel_left, here,
      String.ofList_toList]
  · intro j a b less ha hb
    refine ⟨_, fun same => h.before j less ?_, slice_run st s [a, b] line⟩
    rw [← same, String.toList_ofList, Method.cut_between ha hb, List.drop_take,
      Nat.add_sub_cancel_left]
    exact List.take_prefix _ _
  · intro zero a b hz ha hb
    refine ⟨_, _, slice_run st s [zero, a] line, slice_run st s [b] line, ?_⟩
    rw [Method.cut_between hz ha, Method.cut_from hb, List.drop_zero, String.ofList_append,
      String.ofList_append, String.ofList_toList]
  · intro short
    have sum : Value.binary st.heap (.arith .add) (.number (Number.ofNat k))
        (.number (Number.ofNat t.length)) = .number (Number.ofNat (k + t.length)) :=
      congrArg Value.number (Number.ofNat_add (room.trans short))
    rw [sum]
    exact ⟨Value.isPosition_ofNat (by omega), Value.isPosition_ofNat (room.trans short)⟩
  · have found : Text.find? t.toList s.toList = some k := Text.find?_eq_some_iff.2 h
    have byte : Text.findByte? t.toList s.toList = some (utf8Len (s.toList.take k)) := by
      rw [Text.findByte?_eq, found, Option.map_some]
    have index : Text.charIndex? s.toList (utf8Len (s.toList.take k)) = some k := by
      rw [← found, Text.find?_eq_bytes, byte, Option.bind_some]
    have behind : utf8Len (s.toList.take k) + utf8Len t.toList =
        utf8Len (s.toList.take (k + t.length)) := by
      have here : (s.toList.drop k).take t.length = t.toList := h.take_drop
      rw [← String.utf8Len_append, List.take_add, here]
    refine ⟨_, _, _, byte, index, Text.slice?_take _ _, ?_, String.toList_ofList⟩
    rw [behind, Text.sliceFrom?_take]

theorem search_agrees (st : State σ) (s t u : String) (line : Nat) :
    ∃ (place : Value) (found : Bool) (replaced : String),
      callMethod (.text .indexOf) (.text s) [.text t] line st = (.ok place, st) ∧
      callMethod (.text .includes) (.text s) [.text t] line st = (.ok (.bool found), st) ∧
      callMethod (.text .replace) (.text s) [.text t, .text u] line st =
        (.ok (.text replaced), st) ∧
      Value.binary st.heap .ne place (Value.unary st.heap .neg (.number (Number.ofNat 1))) =
        .bool found ∧
      (¬ t.toList <:+: s.toList ∧ found = false ∧ replaced = s ∨
        t.toList <:+: s.toList ∧ found = true ∧ ∃ k : Nat,
          place = .number (Number.ofNat k) ∧ Found st s t u line replaced k) := by
  have minus : Value.unary st.heap .neg (.number (Number.ofNat 1)) =
      .number (Number.nearest true 1 1) := congrArg Value.number Number.neg_ofNat_one
  refine ⟨_, _, _, indexOf_run st s t line, includes_run st s t line, replace_run st s t u line,
    ?_⟩
  rw [minus, Text.replaceFirst]
  cases found : Text.find? t.toList s.toList with
  | none =>
    refine ⟨?_, .inl ⟨Text.find?_eq_none_iff.1 found, rfl, String.ofList_toList⟩⟩
    rw [ne_run]
    exact congrArg Value.bool (by decide +kernel)
  | some k =>
    have first := Text.find?_eq_some_iff.1 found
    refine ⟨?_, .inr ⟨first.inside, rfl, k, rfl, found_of_first first⟩⟩
    rw [ne_run, Number.ofNat_beq_minus_one]
    rfl

end Action

end CanvasScript
