
namespace CanvasScript.Text

inductive Sequence where
  | none
  | escape
  | lengthened
  | parameters
  | signs
  | senseless
  | title
  | string
deriving DecidableEq

def isWhite (c : Char) : Bool := c = '\t' || c = '\n' || c = '\x0c' || c = '\r'

def Sequence.begin_ (c : Char) : Sequence :=
  if c ≤ '/' then lengthened
  else
    match c with
    | '[' => parameters
    | ']' => title
    | 'P' => string
    | 'X' => string
    | '^' => string
    | '_' => string
    | '\x7f' => escape
    | _ => none

def Sequence.next (s : Sequence) (c : Char) : Sequence :=
  let ends (within : Sequence) : Sequence := if '@' ≤ c && c ≤ '~' then none else within
  match s with
  | none => none
  | escape => if c.toNat < 0x80 then begin_ c else escape
  | lengthened => if '0' ≤ c && c ≤ '~' then none else lengthened
  | parameters =>
    if c ≤ '/' then signs else ends parameters
  | signs => if '0' ≤ c && c ≤ '?' then senseless else ends signs
  | senseless => ends senseless
  | title => title
  | string => string

def Sequence.feed (s : Sequence) (c : Char) : Sequence × Bool :=
  if c = '\x1b' then (escape, false)
  else if c = '\x18' || c = '\x1a' then (none, false)
  else if s = title && c = '\x07' then (none, false)
  else if s = title || s = string then (s, false)
  else if c < ' ' then if isWhite c then (none, true) else (s, false)
  else if s = none then (none, c ≠ '\x7f')
  else (s.next c, false)

def withoutControls (text : String) : String :=
  let step (state : Sequence × List Char) (c : Char) : Sequence × List Char :=
    let (s, stays) := state.1.feed c
    (s, if stays then c :: state.2 else state.2)
  String.ofList (text.toList.foldl step (.none, [])).2.reverse

end CanvasScript.Text
