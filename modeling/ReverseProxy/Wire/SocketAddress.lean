import ReverseProxy.Text.Numeral
import ReverseProxy.Text.Bytes

/-!
# Socket addresses

The address of a host and a port, as it is written in settings and in headers: four decimal numbers,
or eight hexadecimal groups in brackets, of which one run of zeros may be left out and the last two
may be written as four decimal numbers.  Decimal numbers of a host have no superfluous zeros; ports
may.
-/

namespace ReverseProxy.Wire

open Text

/-- The address of a host. -/
inductive HostAddress where
  | v4 (parts : List Nat)
  | v6 (groups : List Nat)
deriving DecidableEq, Repr

/-- The address of a host and a port. -/
structure SocketAddress where
  host : HostAddress
  port : Nat
deriving DecidableEq, Repr

namespace HostAddress

/-- The value of a hexadecimal digit. -/
def hexDigit? (c : Char) : Option Nat :=
  if c.toNat < 128 then Octet.hexValue? c.toNat.toUInt8 else none

/-- A number of one to `most` digits in base ten, without superfluous zeros in front, up to 255. -/
def part? (cs : List Char) : Option (Nat × List Char) :=
  let ds := cs.takeWhile Text.isDigit
  let n := digitsUpTo 256 ds
  if ds = [] ∨ 3 < ds.length ∨ 255 < n ∨ (ds.head? = some '0' ∧ 1 < ds.length) then none
  else some (n, cs.dropWhile Text.isDigit)

/-- What follows the character `c`. -/
def after? (c : Char) : List Char → Option (List Char)
  | [] => none
  | x :: cs => if x = c then some cs else none

/-- Four decimal numbers. -/
def v4? (cs : List Char) : Option (List Nat × List Char) := do
  let (a, cs) ← part? cs
  let (b, cs) ← part? (← after? '.' cs)
  let (c, cs) ← part? (← after? '.' cs)
  let (d, cs) ← part? (← after? '.' cs)
  return ([a, b, c, d], cs)

/-- A group of one to four hexadecimal digits. -/
def group? (cs : List Char) : Option (Nat × List Char) :=
  let isHex (c : Char) := (hexDigit? c).isSome
  let ds := cs.takeWhile isHex
  if ds = [] ∨ 4 < ds.length then none
  else some (ds.foldl (fun n c => n * 16 + (hexDigit? c).getD 0) 0, cs.dropWhile isHex)

/-- The two groups that four decimal numbers stand for. -/
def groupsOfParts : List Nat → List Nat
  | [a, b, c, d] => [a * 256 + b, c * 256 + d]
  | _ => []

/-- As many groups as stand here, up to `limit`, with colons between them; and whether the last two
were written as decimal numbers. The `first` has no colon before it. -/
def groups (first : Bool) : Nat → List Char → List Nat × Bool × List Char
  | 0, cs => ([], false, cs)
  | limit + 1, cs =>
      let start : Option (List Char) := if first then some cs else after? ':' cs
      match start with
      | none => ([], false, cs)
      | some inner =>
          match (if 1 ≤ limit then v4? inner else none) with
          | some (parts, rest) => (groupsOfParts parts, true, rest)
          | none =>
              match group? inner with
              | none => ([], false, cs)
              | some (g, rest) =>
                  let (gs, decimal, rest) := groups false limit rest
                  (g :: gs, decimal, rest)

/-- Eight groups, or fewer with a run of zeros left out. -/
def v6? (cs : List Char) : Option (List Nat × List Char) :=
  let (front, decimal, rest) := groups true 8 cs
  if front.length = 8 then some (front, rest)
  else if decimal then none
  else
    match (after? ':' rest).bind (after? ':') with
    | none => none
    | some rest =>
        let (back, _, rest) := groups true (7 - front.length) rest
        some (front ++ List.replicate (8 - front.length - back.length) 0 ++ back, rest)

/-! ### Writing -/

/-- The run of zeros that is left out: where the longest one begins, the first of several, and its
length. -/
def longestZeros (groups : List Nat) : Nat × Nat :=
  let step (acc : (Nat × Nat) × Nat × Nat) (g : Nat) : (Nat × Nat) × Nat × Nat :=
    let (longest, run, i) := acc
    if g = 0 then
      let run := run + 1
      (if longest.2 < run then (i + 1 - run, run) else longest, run, i + 1)
    else (longest, 0, i + 1)
  (groups.foldl step ((0, 0), 0, 0)).1

/-- Groups with colons between them. -/
def writeGroups (groups : List Nat) : String :=
  ":".intercalate (groups.map fun g => String.ofList (Nat.toDigits 16 g))

/-- Numbers with dots between them. -/
def writeParts (parts : List Nat) : String := ".".intercalate (parts.map toString)

/-- The text of an address, in its shortest form. -/
def write : HostAddress → String
  | .v4 parts => writeParts parts
  | .v6 groups =>
      match groups with
      | [0, 0, 0, 0, 0, 0xFFFF, g, h] =>
          "::ffff:" ++ writeParts [g / 256, g % 256, h / 256, h % 256]
      | _ =>
          let (start, length) := longestZeros groups
          if 1 < length then
            writeGroups (groups.take start) ++ "::" ++ writeGroups (groups.drop (start + length))
          else writeGroups groups

end HostAddress

namespace SocketAddress

open HostAddress

/-- A decimal number below `bound`, which may have superfluous zeros. -/
def number? (bound : Nat) (cs : List Char) : Option (Nat × List Char) :=
  let ds := cs.takeWhile Text.isDigit
  let n := digitsUpTo bound ds
  if ds = [] ∨ bound ≤ n then none else some (n, cs.dropWhile Text.isDigit)

/-- The port after an address, which ends the text. -/
def port? (cs : List Char) : Option Nat := do
  let (n, rest) ← number? 65536 (← after? ':' cs)
  if rest.isEmpty then some n else none

/-- The number of the network that a link-local address belongs to, which is read and left out of
account. -/
def skipScope (cs : List Char) : List Char :=
  match (after? '%' cs).bind (number? 4294967296) with
  | some (_, rest) => rest
  | none => cs

/-- Reads an address. -/
def parse? (s : String) : Option SocketAddress :=
  match v4? s.toList with
  | some (parts, rest) => (port? rest).map fun port => { host := .v4 parts, port }
  | none => do
      let (groups, rest) ← v6? (← after? '[' s.toList)
      let port ← port? (← after? ']' (skipScope rest))
      return { host := .v6 groups, port }

end SocketAddress

end ReverseProxy.Wire
