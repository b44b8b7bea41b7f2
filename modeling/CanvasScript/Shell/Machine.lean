import CanvasScript.Disk
import CanvasScript.Shell.Command

namespace CanvasScript.Shell

open Text (Octets)

inductive Channel where
  | pipe (waiting : Octets)
  | file (names : List Octets) (position : Nat) (append : Bool)
  | sink

structure Variable where
  value : Octets
  exported : Bool

structure Machine where
  disk : Disk
  channels : List Channel
  bindings : List (Octets × Variable)
  /-- The number of the channel that a descriptor leads to. -/
  descriptors : List (Nat × Nat)
  /-- The path of the working directory as it was reached. -/
  path : Octets
  status : Nat
  /-- The status of the last command whose output became part of a word. -/
  produced : Nat
  line : Nat
  speaker : Option Octets
  loops : Nat
  fuel : Nat

inductive Stop where
  | exit (status : Nat)
  | error
  | break_ (levels : Nat)
  | continue_ (levels : Nat)
  | killed (signal : Nat)
  | outOfFuel

abbrev Task := EStateM Stop Machine

namespace Machine

def leave (outer inner : Machine) : Machine :=
  { outer with
    disk := { outer.disk with root := inner.disk.root }
    channels := inner.channels
    fuel := inner.fuel
    status := inner.status }

def value? (m : Machine) (name : Octets) : Option Octets := (m.bindings.lookup name).map (·.value)

def setVariable (m : Machine) (name : Octets) (v : Variable) : Machine :=
  { m with bindings := (name, v) :: m.bindings.filter (·.1 ≠ name) }

def setValue (m : Machine) (name value : Octets) : Machine :=
  m.setVariable name ⟨value, ((m.bindings.lookup name).map (·.exported)).getD false⟩

def dropVariable (m : Machine) (name : Octets) : Machine :=
  { m with bindings := m.bindings.filter (·.1 ≠ name) }

def defaultPath : Octets := "/usr/local/sbin:/usr/local/bin:/usr/sbin:/usr/bin:/sbin:/bin"

def addChannel (m : Machine) (c : Channel) : Machine × Nat :=
  ({ m with channels := m.channels ++ [c] }, m.channels.length)

def setChannel (m : Machine) (number : Nat) (c : Channel) : Machine :=
  { m with channels := m.channels.set number c }

def setDescriptor (m : Machine) (descriptor channel : Nat) : Machine :=
  { m with descriptors := (descriptor, channel) :: m.descriptors.filter (·.1 ≠ descriptor) }

def closeDescriptor (m : Machine) (descriptor : Nat) : Machine :=
  { m with descriptors := m.descriptors.filter (·.1 ≠ descriptor) }

def channel? (m : Machine) (descriptor : Nat) : Option (Nat × Channel) := do
  let number ← m.descriptors.lookup descriptor
  return (number, ← m.channels[number]?)

def piped (m : Machine) (number : Nat) : Octets :=
  match m.channels[number]? with
  | some (.pipe text) => text
  | _ => ""

def overwrite (contents : Octets) (position : Nat) (text : Octets) : Octets :=
  let cs := contents.toList
  let gap := List.replicate (position - cs.length) '\x00'
  String.ofList (cs.take position ++ gap ++ text.toList ++ cs.drop (position + text.length))

def write (m : Machine) (descriptor : Nat) (text : Octets) : Except FileError Machine :=
  match m.channel? descriptor with
  | none => if text.isEmpty then .ok m else .error .badDescriptor
  | some (number, .pipe waiting) => .ok (m.setChannel number (.pipe (waiting ++ text)))
  | some (_, .sink) => .ok m
  | some (number, .file names position append) =>
    match m.disk.root.at? names with
    | some (.file contents) =>
      let start := if append then contents.length else position
      let m := { m with disk := m.disk.put names (.file (overwrite contents start text)) }
      .ok (m.setChannel number (.file names (start + text.length) append))
    | _ => .ok m

def readAll (m : Machine) (descriptor : Nat) : Except FileError (Octets × Machine) :=
  match m.channel? descriptor with
  | none => .error .badDescriptor
  | some (number, .pipe waiting) => .ok (waiting, m.setChannel number (.pipe ""))
  | some (_, .sink) => .ok ("", m)
  | some (number, .file names position append) =>
    match m.disk.root.at? names with
    | some t => do
      let contents ← Disk.contentsOf t
      let rest := String.ofList (contents.toList.drop position)
      return (rest, m.setChannel number (.file names (max position contents.length) append))
    | none => .ok ("", m)

end Machine

namespace Task

def setStatus (status : Nat) : Task Unit := modify fun m => { m with status := status }

def print (text : Octets) : Task Unit := modify fun m => (m.write 1 text).toOption.getD m

def printError (text : Octets) : Task Unit := modify fun m => (m.write 2 text).toOption.getD m

def complain (text : Octets) : Task Unit := do
  let m ← get
  let speaker := (m.speaker.map (· ++ ": ")).getD ""
  printError (s!"sh: {m.line}: " ++ speaker ++ text ++ "\n")

def fail (text : Octets) : Task α := do
  complain text
  throw .error

def misused (text : Octets) : Task Nat := do
  complain text
  return 2

def finally_ (body : Task α) (after : Task Unit) : Task α := do
  let result ← try body
    catch stop =>
      after
      throw stop
  after
  return result

end Task

end CanvasScript.Shell
