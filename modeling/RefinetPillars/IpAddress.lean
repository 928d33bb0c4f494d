import RefinetPillars.HexText

/-!
# Internet addresses

Addresses of both versions, how they are read from text, and the registries of
networks that are not public.
-/

namespace RefinetPillars

namespace IpAddress

open HexText

inductive Address where
  | v4 (bits : BitVec 32)
  | v6 (bits : BitVec 128)
deriving DecidableEq

section Reading

/-- A decimal number up to 255 without leading zeros. -/
def parseOctet (text : Text) : Option Nat :=
  let isDecimal := text.all fun digit => '0' ≤ digit && digit ≤ '9'
  let value := text.foldl (fun value digit => 10 * value + (digit.toNat - 48)) 0
  if text ≠ [] ∧ isDecimal ∧ text.length ≤ 3 ∧
      (text = ['0'] ∨ text.head? ≠ some '0') ∧ value ≤ 255 then
    some value
  else none

def parseV4 (text : Text) : Option (BitVec 32) := do
  let octets := text.splitOn '.'
  if octets.length = 4 then
    let values ← octets.mapM parseOctet
    some (.ofNat 32 (values.foldl (fun value octet => 256 * value + octet) 0))
  else none

def parseHextet (text : Text) : Option Nat := do
  let digits ← text.mapM digitValue
  if text ≠ [] ∧ text.length ≤ 4 then
    some (digits.foldl (fun value digit => 16 * value + digit) 0)
  else none

/-- A last part that is written like an address of version 4 stands for two. -/
def expandLast (parts : List Text) : Option (List Text) :=
  match parts.getLast? with
  | none => some parts
  | some last =>
      if '.' ∈ last then do
        let value ← parseV4 last
        some (parts.dropLast ++ [Nat.toDigits 16 (value.toNat / 65536),
          Nat.toDigits 16 (value.toNat % 65536)])
      else some parts

/-- The parts before and after a run of zeros, and the number of hextets that it
stands for.  The end of a text may be a part of the run. -/
def splitAtGap (parts : List Text) : Option (List Text × Nat × List Text) :=
  let inner := (List.range' 1 (parts.length - 2)).filter fun index =>
    parts[index]? = some []
  match inner with
  | [] => if parts.length = 8 then some (parts, 0, []) else none
  | [gap] =>
      let before := if parts.head? = some [] then [] else parts.take gap
      let after := if parts.getLast? = some [] then [] else parts.drop (gap + 1)
      if (parts.head? = some [] → gap = 1) ∧
          (parts.getLast? = some [] → gap + 2 = parts.length) ∧
          before.length + after.length < 8 then
        some (before, 8 - (before.length + after.length), after)
      else none
  | _ => none

/-- The address before a scope, if the scope is well formed. -/
def withoutScope (text : Text) : Option Text :=
  match text.splitOn '%' with
  | [address] => some address
  | [address, scope] => if scope = [] then none else some address
  | _ => none

def parseV6 (text : Text) : Option (BitVec 128) := do
  let address ← withoutScope text
  let parts := address.splitOn ':'
  if parts.length < 3 then none
  else
    let parts ← expandLast parts
    if 9 < parts.length then none
    else
      let (before, skipped, after) ← splitAtGap parts
      let high ← before.mapM parseHextet
      let low ← after.mapM parseHextet
      some (.ofNat 128 ((high ++ List.replicate skipped 0 ++ low).foldl
        (fun value hextet => 65536 * value + hextet) 0))

/-- `ipaddress.ip_address`. -/
def ipAddress (text : Text) : Option Address :=
  if '/' ∈ text then none
  else (parseV4 text).map .v4 <|> (parseV6 text).map .v6

end Reading

section Networks

/-- The addresses that begin with the first bits of a base. -/
structure Network (width : Nat) where
  base : Nat
  prefixLength : Nat

/-- Whether a network has an address. -/
def Network.has {width : Nat} (network : Network width)
    (address : BitVec width) : Bool :=
  address.toNat >>> (width - network.prefixLength) =
    network.base >>> (width - network.prefixLength)

def quad (first second third fourth length : Nat) : Network 32 :=
  ⟨((first * 256 + second) * 256 + third) * 256 + fourth, length⟩

/-- A network of version 6, by its first hextets. -/
def hextets (leading : List Nat) (length : Nat) : Network 128 :=
  ⟨(leading ++ List.replicate (8 - leading.length) 0).foldl
    (fun value hextet => 65536 * value + hextet) 0, length⟩

def privateNetworksV4 : List (Network 32) :=
  [quad 0 0 0 0 8, quad 10 0 0 0 8, quad 127 0 0 0 8, quad 169 254 0 0 16,
    quad 172 16 0 0 12, quad 192 0 0 0 24, quad 192 0 0 170 31,
    quad 192 0 2 0 24, quad 192 168 0 0 16, quad 198 18 0 0 15,
    quad 198 51 100 0 24, quad 203 0 113 0 24, quad 240 0 0 0 4,
    quad 255 255 255 255 32]

def exceptionsV4 : List (Network 32) := [quad 192 0 0 9 32, quad 192 0 0 10 32]

def privateNetworksV6 : List (Network 128) :=
  [hextets [0, 0, 0, 0, 0, 0, 0, 1] 128, hextets [] 128,
    hextets [0, 0, 0, 0, 0, 0xffff] 96, hextets [0x64, 0xff9b, 1] 48,
    hextets [0x100] 64, hextets [0x2001] 23, hextets [0x2001, 0xdb8] 32,
    hextets [0x2002] 16, hextets [0xfc00] 7, hextets [0xfe80] 10]

def exceptionsV6 : List (Network 128) :=
  [hextets [0x2001, 1, 0, 0, 0, 0, 0, 1] 128,
    hextets [0x2001, 1, 0, 0, 0, 0, 0, 2] 128, hextets [0x2001, 3] 32,
    hextets [0x2001, 4, 0x112] 48, hextets [0x2001, 0x20] 28,
    hextets [0x2001, 0x30] 28]

def reservedNetworksV6 : List (Network 128) :=
  [hextets [] 8, hextets [0x100] 8, hextets [0x200] 7, hextets [0x400] 6,
    hextets [0x800] 5, hextets [0x1000] 4, hextets [0x4000] 3,
    hextets [0x6000] 3, hextets [0x8000] 3, hextets [0xa000] 3,
    hextets [0xc000] 3, hextets [0xe000] 4, hextets [0xf000] 5,
    hextets [0xf800] 6, hextets [0xfe00] 9]

namespace Address

/-- The bits of `ipv4_mapped`. -/
def mapped : Address → Option (BitVec 32)
  | .v4 _ => none
  | .v6 bits =>
      if bits.toNat >>> 32 = 0xffff then some (.ofNat 32 bits.toNat) else none

/-- A mapped address stands for one of version 4. -/
def unmapped (address : Address) : Address :=
  (address.mapped.map .v4).getD address

def isPrivateV4 (bits : BitVec 32) : Bool :=
  privateNetworksV4.any (·.has bits) &&
    exceptionsV4.all fun network => !network.has bits

def isPrivate (address : Address) : Bool :=
  match address, address.mapped with
  | .v4 bits, _ => isPrivateV4 bits
  | .v6 _, some bits => isPrivateV4 bits
  | .v6 bits, none => privateNetworksV6.any (·.has bits) &&
      exceptionsV6.all fun network => !network.has bits

def isLoopback : Address → Bool
  | .v4 bits => (quad 127 0 0 0 8).has bits
  | .v6 bits => bits = 1

def isLinkLocal : Address → Bool
  | .v4 bits => (quad 169 254 0 0 16).has bits
  | .v6 bits => (hextets [0xfe80] 10).has bits

def isReserved : Address → Bool
  | .v4 bits => (quad 240 0 0 0 4).has bits
  | .v6 bits => reservedNetworksV6.any (·.has bits)

def isMulticast : Address → Bool
  | .v4 bits => (quad 224 0 0 0 4).has bits
  | .v6 bits => (hextets [0xff00] 8).has bits

def isUnspecified : Address → Bool
  | .v4 bits => bits = 0
  | .v6 bits => bits = 0

end Address

end Networks

end IpAddress

end RefinetPillars
