import FlowTrace.Address.IPv4

/-!
# IPv6 addresses — eight groups of sixteen bits

In text, one run of zero groups may be left out as `::`, and the last two groups may be an IPv4
address. The written form is unique: lower case, no leading zeros, the first of the longest runs of
at least two zero groups left out, and mapped IPv4 addresses with dots.
-/

namespace FlowTrace

structure IPv6 where
  groups : List UInt16
  length_groups : groups.length = 8
  deriving DecidableEq, Repr

namespace IPv6

def ofGroups? (groups : List UInt16) : Option IPv6 :=
  if h : groups.length = 8 then some ⟨groups, h⟩ else none

/-! ## Reading -/

/-- One to four hexadecimal digits. -/
def readGroup : Reader UInt16 := fun cs => do
  let (digits, rest) ← Reader.digits 16 cs
  if 4 < digits.length then none else some ((Reader.value 16 digits).toUInt16, rest)

/-- What precedes a group: a colon, except before the first one. -/
def readSeparator (first : Bool) (cs : List Char) : Option (List Char) :=
  if first then some cs else Reader.char ':' cs

def ipv4Groups (ip : IPv4) : List UInt16 :=
  [ip.a.toUInt16 * 256 + ip.b.toUInt16, ip.c.toUInt16 * 256 + ip.d.toUInt16]

/-- The groups of one side of `::`. -/
structure Side where
  groups : List UInt16
  /-- The last two groups were read from an IPv4 address, which ends the side. -/
  endsInIPv4 : Bool
  rest : List Char

/-- Reads as many groups as there are, up to `limit`. An IPv4 address is tried first wherever it has
room for its two groups. -/
def readSide (first : Bool) : Nat → List Char → Side
  | 0, cs => ⟨[], false, cs⟩
  | limit + 1, cs =>
    let start := readSeparator first cs
    match if limit = 0 then none else start.bind IPv4.read with
    | some (ip, rest) => ⟨ipv4Groups ip, true, rest⟩
    | none =>
      match start.bind readGroup with
      | some (group, rest) =>
        let side := readSide false limit rest
        { side with groups := group :: side.groups }
      | none => ⟨[], false, cs⟩

/-- Eight groups, or fewer groups around `::`, which stands for at least one zero group. -/
def read : Reader IPv6 := fun cs => do
  let front := readSide true 8 cs
  if front.groups.length = 8 then
    let ip ← ofGroups? front.groups
    some (ip, front.rest)
  else if front.endsInIPv4 then none
  else
    let cs ← Reader.char ':' front.rest
    let cs ← Reader.char ':' cs
    let back := readSide true (7 - front.groups.length) cs
    let zeros := List.replicate (8 - front.groups.length - back.groups.length) 0
    let ip ← ofGroups? (front.groups ++ zeros ++ back.groups)
    some (ip, back.rest)

/-! ## Writing -/

def hexDigit (n : Nat) : Char :=
  if n < 10 then Char.ofNat ('0'.toNat + n) else Char.ofNat ('a'.toNat + (n - 10))

/-- A group in lower case without leading zeros. -/
def groupText (g : UInt16) : String :=
  let n := g.toNat
  let digits := [n / 4096, n / 256 % 16, n / 16 % 16]
  String.ofList ((digits.dropWhile (· == 0) ++ [n % 16]).map hexDigit)

def groupsText (groups : List UInt16) : String :=
  String.intercalate ":" (groups.map groupText)

/-- The IPv4 address that is mapped into this one. -/
def mappedIPv4? (ip : IPv6) : Option IPv4 :=
  match ip.groups with
  | [0, 0, 0, 0, 0, 0xffff, g, h] =>
    some ⟨(g / 256).toUInt8, g.toUInt8, (h / 256).toUInt8, h.toUInt8⟩
  | _ => none

/-- The number of zero groups that stand at `start`. -/
def zerosAt (groups : List UInt16) (start : Nat) : Nat :=
  ((groups.drop start).takeWhile (· == 0)).length

/-- Start and length of the first longest run of zero groups. -/
def longestZeros (groups : List UInt16) : Nat × Nat :=
  (List.range groups.length).foldl
    (fun best start =>
      if best.2 < zerosAt groups start then (start, zerosAt groups start) else best)
    (0, 0)

def toText (ip : IPv6) : String :=
  match ip.mappedIPv4? with
  | some v4 => "::ffff:" ++ v4.toText
  | none =>
    let (start, length) := longestZeros ip.groups
    if 1 < length then
      groupsText (ip.groups.take start) ++ "::" ++ groupsText (ip.groups.drop (start + length))
    else groupsText ip.groups

end IPv6

end FlowTrace
