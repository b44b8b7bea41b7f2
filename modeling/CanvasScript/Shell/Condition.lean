import CanvasScript.Disk
import CanvasScript.Shell.Arithmetic

namespace CanvasScript.Shell

open Text (Octets)

namespace Condition

inductive Fault where
  | number (text : Octets)
  | noBracket
  | noArgument (name : Octets)
  | unexpected (word : Octets)
  | unclosed

def Fault.message : Fault → Octets
  | number text => "Illegal number: " ++ text
  | noBracket => "missing ]"
  | noArgument name => name ++ ": argument expected"
  | unexpected word => word ++ ": unexpected operator"
  | unclosed => "closing paren expected"

def unaryNames : List Octets := ["-d", "-e", "-f", "-n", "-r", "-s", "-w", "-x", "-z"]

def binaryNames : List Octets := ["=", "!=", "<", ">", "-eq", "-ne", "-ge", "-gt", "-le", "-lt"]

def integer (w : Octets) : Except Fault Int :=
  match integerBy? (readDigits 10) w with
  | some n => .ok n
  | none => .error (.number w)

def unary (d : Disk) (name w : Octets) : Bool :=
  let found := (d.lookup w).toOption
  match name with
  | "-z" => w.isEmpty
  | "-n" => !w.isEmpty
  | "-d" => d.hasDirectory w
  | "-x" => d.hasDirectory w
  | "-f" => (found matches some (.file _))
  | "-s" => d.hasDirectory w || (d.read w).toOption.getD "" ≠ ""
  | _ => found.isSome

def binary (a name b : Octets) : Except Fault Bool := do
  match name with
  | "=" => return a = b
  | "!=" => return a ≠ b
  | "<" => return a < b
  | ">" => return b < a
  | name =>
    let n ← integer a
    let k ← integer b
    return match name with
      | "-eq" => n = k
      | "-ne" => n ≠ k
      | "-ge" => n ≥ k
      | "-gt" => n > k
      | "-le" => n ≤ k
      | _ => n < k

mutual

def alternatives (d : Disk) : Nat → List Octets → Except Fault (Bool × List Octets)
  | 0, _ => .error .unclosed
  | n + 1, ws => do
    let (a, rest) ← conjunction d n ws
    match rest with
    | "-o" :: rest =>
      let (b, rest) ← alternatives d n rest
      return (a || b, rest)
    | rest => return (a, rest)

def conjunction (d : Disk) : Nat → List Octets → Except Fault (Bool × List Octets)
  | 0, _ => .error .unclosed
  | n + 1, ws => do
    let (a, rest) ← primary d n ws
    match rest with
    | "-a" :: rest =>
      let (b, rest) ← conjunction d n rest
      return (a && b, rest)
    | rest => return (a, rest)

def primary (d : Disk) : Nat → List Octets → Except Fault (Bool × List Octets)
  | 0, _ => .error .unclosed
  | n + 1, ws =>
    match ws with
    | [] => .ok (false, [])
    | [w] => .ok (!w.isEmpty, [])
    | a :: name :: rest =>
      match if binaryNames.contains name then rest else [] with
      | b :: rest => do
        let v ← binary a name b
        return (v, rest)
      | [] =>
        if binaryNames.contains name && a ≠ "!" && a ≠ "(" then .error (.noArgument name)
        else if a = "!" then do
          let (v, rest) ← primary d n (name :: rest)
          return (!v, rest)
        else if a = "(" then do
          match ← alternatives d n (name :: rest) with
          | (v, ")" :: rest) => return (v, rest)
          | _ => throw .unclosed
        else if unaryNames.contains a then .ok (unary d a name, rest)
        else if name = "-a" || name = "-o" || name = ")" then .ok (!a.isEmpty, name :: rest)
        else .error (.unexpected a)

end

def value (d : Disk) (name : Octets) (args : List Octets) : Except Fault Bool := do
  if name = "[" && args.getLast? ≠ some "]" then throw .noBracket
  let ws := if name = "[" then args.dropLast else args
  match ← alternatives d (4 * (ws.length + 1)) ws with
  | (v, []) => return v
  | (_, w :: _) => throw (.unexpected w)

end Condition

end CanvasScript.Shell
