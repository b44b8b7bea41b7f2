
namespace CanvasScript.Text

/-- A text in which each character stands for the octet of its number. -/
abbrev Octets := String

def octet (n : Nat) : Char := Char.ofNat (n % 0x100)

def octetsOf (c : Char) : List Char :=
  let n := c.toNat
  let tail (k : Nat) : Char := octet (0x80 + k % 0x40)
  if n < 0x80 then [c]
  else if n < 0x800 then [octet (0xc0 + n / 0x40), tail n]
  else if n < 0x10000 then [octet (0xe0 + n / 0x1000), tail (n / 0x40), tail n]
  else [octet (0xf0 + n / 0x40000), tail (n / 0x1000), tail (n / 0x40), tail n]

def encode (s : String) : Octets := String.ofList (s.toList.flatMap octetsOf)

/-- The beginning of a character: how many octets are owed, the bounds of the next one, and the
value of the bits so far. -/
structure Beginning where
  owed : Nat
  low : Nat
  high : Nat
  bits : Nat

def Beginning.of? (n : Nat) : Option Beginning :=
  if n < 0xc2 then none
  else if n < 0xe0 then some ⟨1, 0x80, 0xbf, n - 0xc0⟩
  else if n = 0xe0 then some ⟨2, 0xa0, 0xbf, 0⟩
  else if n = 0xed then some ⟨2, 0x80, 0x9f, 0xd⟩
  else if n < 0xf0 then some ⟨2, 0x80, 0xbf, n - 0xe0⟩
  else if n = 0xf0 then some ⟨3, 0x90, 0xbf, 0⟩
  else if n < 0xf4 then some ⟨3, 0x80, 0xbf, n - 0xf0⟩
  else if n = 0xf4 then some ⟨3, 0x80, 0x8f, 4⟩
  else none

structure Decoder where
  begun : Option Beginning
  done : List (Option Char)

def Decoder.start (d : Decoder) (c : Char) : Decoder :=
  if c.toNat < 0x80 then ⟨none, some c :: d.done⟩
  else
    match Beginning.of? c.toNat with
    | some b => ⟨some b, d.done⟩
    | none => ⟨none, none :: d.done⟩

def Decoder.feed (d : Decoder) (c : Char) : Decoder :=
  match d.begun with
  | none => d.start c
  | some b =>
    if b.low ≤ c.toNat && c.toNat ≤ b.high then
      let bits := b.bits * 0x40 + c.toNat % 0x40
      if b.owed ≤ 1 then ⟨none, some (Char.ofNat bits) :: d.done⟩
      else ⟨some ⟨b.owed - 1, 0x80, 0xbf, bits⟩, d.done⟩
    else Decoder.start ⟨none, none :: d.done⟩ c

def characters (s : Octets) : List (Option Char) :=
  let d := s.toList.foldl Decoder.feed ⟨none, []⟩
  (if d.begun.isSome then none :: d.done else d.done).reverse

def decode? (s : Octets) : Option String :=
  ((characters s).mapM id).map String.ofList

def decodeLossy (s : Octets) : String :=
  String.ofList ((characters s).map fun c => c.getD '\ufffd')

end CanvasScript.Text
