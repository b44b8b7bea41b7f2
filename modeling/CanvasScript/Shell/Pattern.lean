import CanvasScript.Disk

namespace CanvasScript.Shell

open Text (Octets)

/-- A character and whether it was quoted, so that it stands for itself. -/
abbrev Marked := Char × Bool

inductive PatternItem where
  | char (c : Char)
  | any
  | many
  | set (negated : Bool) (ranges : List (Char × Char))

abbrev Pattern := List PatternItem

def setRanges (ranges : List (Char × Char)) :
    List Marked → Option (List (Char × Char) × List Marked)
  | [] => none
  | (']', false) :: rest =>
    if ranges.isEmpty then setRanges [(']', ']')] rest else some (ranges, rest)
  | [(_, _)] => none
  | (c, _) :: (d, quoted) :: rest =>
    match d, quoted, rest with
    | '-', false, (']', false) :: after => some (('-', '-') :: (c, c) :: ranges, after)
    | '-', false, (e, _) :: after => setRanges ((c, e) :: ranges) after
    | d, quoted, rest => setRanges ((c, c) :: ranges) ((d, quoted) :: rest)
termination_by cs => cs.length

/-- A bracket that is not closed stands for itself. -/
def Pattern.ofMarked (cs : List Marked) : Pattern :=
  match cs with
  | [] => []
  | ('*', false) :: rest => .many :: Pattern.ofMarked rest
  | ('?', false) :: rest => .any :: Pattern.ofMarked rest
  | ('[', false) :: rest =>
    let negated := match rest with
      | (c, false) :: _ => c = '!' || c = '^'
      | _ => false
    match setRanges [] (if negated then rest.drop 1 else rest) with
    | some (ranges, after) =>
      if _h : after.length < rest.length + 1 then .set negated ranges :: Pattern.ofMarked after
      else [.char '[']
    | none => .char '[' :: Pattern.ofMarked rest
  | (c, _) :: rest => .char c :: Pattern.ofMarked rest
termination_by cs.length

def PatternItem.holds (c : Char) : PatternItem → Bool
  | char d => c = d
  | any => true
  | many => true
  | set negated ranges => (ranges.any fun r => r.1 ≤ c && c ≤ r.2) != negated

def Pattern.describes : Pattern → List Char → Bool
  | [], [] => true
  | [], _ :: _ => false
  | .many :: rest, [] => Pattern.describes rest []
  | .many :: rest, c :: cs =>
    Pattern.describes rest (c :: cs) || Pattern.describes (.many :: rest) cs
  | _ :: _, [] => false
  | item :: rest, c :: cs => item.holds c && Pattern.describes rest cs
termination_by p cs => p.length + cs.length

abbrev Field := List Marked

def Field.text (f : Field) : Octets := String.ofList (f.map Prod.fst)

def Field.hasPattern (f : Field) : Bool :=
  (Pattern.ofMarked f).any fun
    | .char _ => false
    | _ => true

/-- The names in a directory that a pattern describes. A dot in front has to be written out. -/
def Field.namesLike (d : Disk) (directory : Octets) (f : Field) : List Octets :=
  let entries := ((d.list (if directory.isEmpty then "." else directory)).toOption).getD []
  (entries.map (·.1)).filter fun n =>
    ((f.head?.map (·.1)) = some '.' || !n.startsWith ".") &&
      (Pattern.ofMarked f).describes n.toList

def Field.pathsFrom (d : Disk) (before : Octets) : List Field → List Octets
  | [] => []
  | [last] =>
    if last.hasPattern then (last.namesLike d before).map (before ++ ·)
    else
      let path := before ++ last.text
      if d.has path then [path] else []
  | f :: rest =>
    if f.hasPattern then
      (f.namesLike d before).flatMap fun n =>
        if d.hasDirectory (before ++ n) then pathsFrom d (before ++ n ++ "/") rest else []
    else pathsFrom d (before ++ f.text ++ "/") rest

def Field.parts (f : Field) : List Field := f.splitOnP fun c => c.1 = '/'

def Field.arguments (d : Disk) (f : Field) : List Octets :=
  if f.hasPattern then
    match (pathsFrom d "" f.parts).mergeSort fun a b => a ≤ b with
    | [] => [f.text]
    | paths => paths
  else [f.text]

end CanvasScript.Shell
