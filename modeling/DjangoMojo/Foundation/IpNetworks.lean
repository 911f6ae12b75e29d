import Mathlib.Algebra.Group.Nat.Defs
import DjangoMojo.Foundation.NginxSyntax

/-! # Networks of the Internet protocol

`ipaddress.ip_network` of a text and the text of the network it makes. An
address is a number of 32 or of 128 bits. The scope of an IPv6 address is any
text without a percent sign, and a network keeps it when no bit of its address
lies behind the mask.
-/

namespace DjangoMojo.Foundation

/-- A network by its address; the prefix is at most the width of the address. -/
structure IpNetwork where
  isV6 : Bool
  address : Nat
  scope : Option (List Char)
  length : Nat

namespace IpNetwork

def isDigit (char : Char) : Bool := '0' ≤ char ∧ char ≤ '9'

def decimal (digits : List Char) : Nat :=
  digits.foldl (fun number digit => 10 * number + (digit.toNat - '0'.toNat)) 0

/-- `_parse_octet`. -/
def parseOctet (text : List Char) : Option Nat :=
  if text.isEmpty || !text.all isDigit || 3 < text.length || (1 < text.length && text.head? = some '0')
  then none
  else if decimal text ≤ 255 then some (decimal text) else none

/-- `IPv4Address._ip_int_from_string`. -/
def parseV4 (text : List Char) : Option Nat :=
  match (text.splitOn '.').mapM parseOctet with
  | some [first, second, third, fourth] =>
    some (((first * 256 + second) * 256 + third) * 256 + fourth)
  | _ => none

def hexDigit (char : Char) : Option Nat :=
  if isDigit char then some (char.toNat - '0'.toNat)
  else if 'a' ≤ char ∧ char ≤ 'f' then some (char.toNat - 'a'.toNat + 10)
  else if 'A' ≤ char ∧ char ≤ 'F' then some (char.toNat - 'A'.toNat + 10)
  else none

/-- `_parse_hextet`. -/
def parseHextet (text : List Char) : Option Nat :=
  if text.isEmpty || 4 < text.length then none
  else (text.mapM hexDigit).map fun digits => digits.foldl (fun number digit => 16 * number + digit) 0

def joinHextets (hextets : List Nat) : Nat :=
  hextets.foldl (fun number hextet => 65536 * number + hextet) 0

/-- The indices of the empty parts that are neither the first nor the last. -/
def skips (parts : List (List Char)) : List Nat :=
  (List.range parts.length).filter fun index =>
    1 ≤ index && index + 1 < parts.length && (parts.getD index []).isEmpty

/-- The part of `_ip_int_from_string` that follows an IPv4 suffix. -/
def parseParts (parts : List (List Char)) : Option Nat :=
  if 9 < parts.length then none
  else
    match skips parts with
    | [] => if parts.length = 8 then (parts.mapM parseHextet).map joinHextets else none
    | [skip] =>
      -- An empty part at an end is part of the skip, which then covers that end.
      let high := if (parts.headD []).isEmpty then [] else parts.take skip
      let low := if (parts.getLastD []).isEmpty then [] else parts.drop (skip + 1)
      if (parts.headD []).isEmpty && skip ≠ 1 then none
      else if (parts.getLastD []).isEmpty && skip + 2 ≠ parts.length then none
      else if 8 ≤ high.length + low.length then none
      else
        (high.mapM parseHextet).bind fun highs => (low.mapM parseHextet).map fun lows =>
          joinHextets (highs ++ List.replicate (8 - (highs.length + lows.length)) 0 ++ lows)
    | _ => none

def hexText (number : Nat) : List Char :=
  let digits := [number / 4096 % 16, number / 256 % 16, number / 16 % 16, number % 16]
  let significant := digits.dropWhile (· = 0)
  (if significant.isEmpty then [0] else significant).map fun digit =>
    "0123456789abcdef".toList.getD digit '0'

/-- `IPv6Address._ip_int_from_string`. -/
def parseV6Number (text : List Char) : Option Nat :=
  let parts := text.splitOn ':'
  if parts.length < 3 then none
  else if (parts.getLastD []).contains '.' then
    (parseV4 (parts.getLastD [])).bind fun suffix =>
      parseParts (parts.dropLast ++ [hexText (suffix / 65536), hexText (suffix % 65536)])
  else parseParts parts

/-- `IPv6Address`: the number and the scope. -/
def parseV6 (text : List Char) : Option (Nat × Option (List Char)) :=
  match text.splitOn '%' with
  | [number] => (parseV6Number number).map fun found => (found, none)
  | [number, scope] =>
    if scope.isEmpty then none else (parseV6Number number).map fun found => (found, some scope)
  | _ => none

/-- `_prefix_from_prefix_string`. -/
def parseLength (width : Nat) (text : List Char) : Option Nat :=
  if text.isEmpty || !text.all isDigit then none
  else if decimal text ≤ width then some (decimal text) else none

/-- `_prefix_from_ip_int` of 32 bits: ones followed by zeros. -/
def maskLength (mask : Nat) : Option Nat :=
  (List.range 33).find? fun length => mask = 2 ^ 32 - 2 ^ (32 - length)

/-- `_prefix_from_ip_string`: a netmask or the mask of the host. -/
def parseMask (text : List Char) : Option Nat :=
  (parseV4 text).bind fun mask => maskLength mask <|> maskLength (2 ^ 32 - 1 - mask)

def masked (width length address : Nat) : Nat :=
  address / 2 ^ (width - length) * 2 ^ (width - length)

def ofV4 (address : List Char) (mask : Option (List Char)) : Option IpNetwork :=
  (parseV4 address).bind fun number =>
    (match mask with
      | none => some 32
      | some text => parseLength 32 text <|> parseMask text).map fun length =>
        ⟨false, masked 32 length number, none, length⟩

def ofV6 (address : List Char) (mask : Option (List Char)) : Option IpNetwork :=
  (parseV6 address).bind fun (number, scope) =>
    (match mask with
      | none => some 128
      | some text => parseLength 128 text).map fun length =>
        ⟨true, masked 128 length number,
          if masked 128 length number = number then scope else none, length⟩

/-- `ip_network(text, strict=False)`. -/
def parse (text : String) : Option IpNetwork :=
  match text.toList.splitOn '/' with
  | [address] => ofV4 address none <|> ofV6 address none
  | [address, mask] => ofV4 address (some mask) <|> ofV6 address (some mask)
  | _ => none

/-! ### The text of a network -/

def v4Text (address : Nat) : List Char :=
  List.intercalate ['.'] ([address / 2 ^ 24, address / 2 ^ 16 % 256, address / 2 ^ 8 % 256,
    address % 256].map fun octet => (toString octet).toList)

def hextets (address : Nat) : List Nat :=
  (List.range 8).map fun index => address / 2 ^ (112 - 16 * index) % 65536

/-- The longest run of zeros from an index on, where the first of two runs of a length
wins: its start and its length. -/
def longestZeros : Nat → List Nat → Nat × Nat
  | index, [] => (index, 0)
  | index, hextet :: rest =>
    let found := longestZeros (index + 1) rest
    let run := ((hextet :: rest).takeWhile (· = 0)).length
    if found.2 ≤ run then (index, run) else found

/-- `_compress_hextets`. -/
def compressed (numbers : List Nat) : List (List Char) :=
  let (start, run) := longestZeros 0 numbers
  let texts := numbers.map hexText
  if run ≤ 1 then texts
  else
    (if start = 0 then [[]] else []) ++ texts.take start ++ [[]] ++ texts.drop (start + run) ++
      (if start + run = numbers.length then [[]] else [])

def addressText (network : IpNetwork) : List Char :=
  if network.isV6 then List.intercalate [':'] (compressed (hextets network.address))
  else v4Text network.address

def head (network : IpNetwork) : String :=
  String.ofList (network.addressText ++ if network.scope.isSome then ['%'] else ['/'])

/-- What follows: the scope, if there is one, and the length of the prefix. -/
def tail (network : IpNetwork) : String :=
  match network.scope with
  | none => toString network.length
  | some scope => String.ofList scope ++ "/" ++ toString network.length

/-- `str(network)`. -/
def text (network : IpNetwork) : String := network.head ++ network.tail

end IpNetwork

/-! ## Addresses of the Internet protocol and their special ranges

What `ipaddress` says of an address: private, loopback, link-local, reserved or
multicast, by the networks that its tables list, and the IPv4 addresses that
an IPv6 address may carry. The scope of an address plays no part in it.
-/

structure IpAddress where
  isV6 : Bool
  number : Nat
  deriving DecidableEq

namespace IpNetwork

def v4 (first second third fourth length : Nat) : IpNetwork :=
  ⟨false, ((first * 256 + second) * 256 + third) * 256 + fourth, none, length⟩

def v6 (leading : List Nat) (length : Nat) : IpNetwork :=
  ⟨true, joinHextets leading * 2 ^ (128 - 16 * leading.length), none, length⟩

/-- `address in network`. -/
def contains (network : IpNetwork) (address : IpAddress) : Bool :=
  network.isV6 = address.isV6 &&
    masked (if network.isV6 then 128 else 32) network.length address.number = network.address

end IpNetwork

namespace IpAddress

open IpNetwork

/-- `ip_address(text)`. -/
def parse (text : String) : Option IpAddress :=
  (parseV4 text.toList).map (⟨false, ·⟩) <|> (parseV6 text.toList).map (⟨true, ·.1⟩)

def ipv4Mapped (address : IpAddress) : Option IpAddress :=
  if address.isV6 && address.number / 2 ^ 32 = 0xffff then
    some ⟨false, address.number % 2 ^ 32⟩
  else none

/-- `_IPv4Constants._private_networks`. -/
def privateV4 : List IpNetwork :=
  [v4 0 0 0 0 8, v4 10 0 0 0 8, v4 127 0 0 0 8, v4 169 254 0 0 16, v4 172 16 0 0 12,
    v4 192 0 0 0 24, v4 192 0 0 170 31, v4 192 0 2 0 24, v4 192 168 0 0 16, v4 198 18 0 0 15,
    v4 198 51 100 0 24, v4 203 0 113 0 24, v4 240 0 0 0 4, v4 255 255 255 255 32]

def privateV4Exceptions : List IpNetwork := [v4 192 0 0 9 32, v4 192 0 0 10 32]

/-- `_IPv6Constants._private_networks`. -/
def privateV6 : List IpNetwork :=
  [v6 [0, 0, 0, 0, 0, 0, 0, 1] 128, v6 [] 128, v6 [0, 0, 0, 0, 0, 0xffff] 96,
    v6 [0x64, 0xff9b, 1] 48, v6 [0x100] 64, v6 [0x2001] 23, v6 [0x2001, 0xdb8] 32, v6 [0x2002] 16,
    v6 [0xfc00] 7, v6 [0xfe80] 10]

def privateV6Exceptions : List IpNetwork :=
  [v6 [0x2001, 1, 0, 0, 0, 0, 0, 1] 128, v6 [0x2001, 1, 0, 0, 0, 0, 0, 2] 128, v6 [0x2001, 3] 32,
    v6 [0x2001, 4, 0x112] 48, v6 [0x2001, 0x20] 28, v6 [0x2001, 0x30] 28]

def reservedV6 : List IpNetwork :=
  [v6 [] 8, v6 [0x100] 8, v6 [0x200] 7, v6 [0x400] 6, v6 [0x800] 5, v6 [0x1000] 4, v6 [0x4000] 3,
    v6 [0x6000] 3, v6 [0x8000] 3, v6 [0xa000] 3, v6 [0xc000] 3, v6 [0xe000] 4, v6 [0xf000] 5,
    v6 [0xf800] 6, v6 [0xfe00] 9]

def isIn (address : IpAddress) (networks : List IpNetwork) : Bool :=
  networks.any (·.contains address)

def unmapped (address : IpAddress) : IpAddress := address.ipv4Mapped.getD address

def isPrivate (address : IpAddress) : Bool :=
  let judged := address.unmapped
  if judged.isV6 then judged.isIn privateV6 && !judged.isIn privateV6Exceptions
  else judged.isIn privateV4 && !judged.isIn privateV4Exceptions

def isLoopback (address : IpAddress) : Bool :=
  if address.isV6 then address.number = 1 else (v4 127 0 0 0 8).contains address

def isLinkLocal (address : IpAddress) : Bool :=
  if address.isV6 then (v6 [0xfe80] 10).contains address else (v4 169 254 0 0 16).contains address

def isReserved (address : IpAddress) : Bool :=
  if address.isV6 then address.isIn reservedV6 else (v4 240 0 0 0 4).contains address

def isMulticast (address : IpAddress) : Bool :=
  if address.isV6 then (v6 [0xff00] 8).contains address else (v4 224 0 0 0 4).contains address

def isSpecial (address : IpAddress) : Bool :=
  address.isPrivate || address.isLoopback || address.isLinkLocal || address.isReserved ||
    address.isMulticast

/-! ### IPv4 addresses inside IPv6 addresses -/

/-- IPv4-compatible, translated and NAT64 addresses carry an IPv4 address at the end. -/
def carriedAtEnd (address : IpAddress) : Bool :=
  let front := address.number / 2 ^ 32
  front = 0 || front = 0xffff0000 || front = 0x64ff9b * 2 ^ 64 ||
    address.number / 2 ^ 80 = 0x64ff9b0001

/-- The IPv4 addresses that the known forms of IPv6 addresses carry: mapped, compatible,
translated and NAT64 ones, 6to4, and the server and the client of Teredo. -/
def carried (address : IpAddress) : List IpAddress :=
  if address.isV6 then
    address.ipv4Mapped.toList ++
      (if address.carriedAtEnd then [⟨false, address.number % 2 ^ 32⟩] else []) ++
      (if address.number / 2 ^ 112 = 0x2002 then [⟨false, address.number / 2 ^ 80 % 2 ^ 32⟩]
        else []) ++
      (if address.number / 2 ^ 96 = 0x20010000 then
        [⟨false, address.number / 2 ^ 64 % 2 ^ 32⟩,
          ⟨false, 2 ^ 32 - 1 - address.number % 2 ^ 32⟩]
        else [])
  else []

def IsOffLimits (address : IpAddress) : Prop :=
  address.unmapped.isSpecial = true ∨ ∃ inner ∈ address.carried, inner.isSpecial = true

theorem unmapped_of_ipv4Mapped {address inner : IpAddress}
    (hmapped : address.ipv4Mapped = some inner) : address.unmapped = inner := by
  rw [unmapped, hmapped, Option.getD_some]

theorem unmapped_of_front {number : Nat} (hfront : number / 2 ^ 32 ≠ 0xffff) :
    unmapped ⟨true, number⟩ = ⟨true, number⟩ := by
  rw [unmapped, ipv4Mapped, if_neg (by simpa using hfront), Option.getD_none]

theorem contains_v6 {leading : List Nat} {length number : Nat} :
    (v6 leading length).contains ⟨true, number⟩ = true ↔
      number / 2 ^ (128 - length) * 2 ^ (128 - length) =
        joinHextets leading * 2 ^ (128 - 16 * leading.length) := by
  simp [contains, v6, masked]

theorem isReserved_of_small {number : Nat} (hsmall : number < 2 ^ 120) :
    isReserved ⟨true, number⟩ = true := by
  have hlow : (v6 [] 8).contains ⟨true, number⟩ = true := by
    rw [contains_v6]
    change number / 2 ^ 120 * 2 ^ 120 = 0 * 2 ^ 128
    simp only [Nat.div_eq_of_lt hsmall, Nat.zero_mul]
  simp [isReserved, isIn, reservedV6, hlow]

theorem isSpecial_of_carriedAtEnd {number : Nat}
    (hcarried : carriedAtEnd ⟨true, number⟩ = true) :
    (unmapped ⟨true, number⟩).isSpecial = true := by
  simp only [carriedAtEnd, Bool.or_eq_true, decide_eq_true_eq] at hcarried
  have hfront : number / 2 ^ 32 ≠ 0xffff := by omega
  have hsmall : number < 2 ^ 120 := by omega
  rw [unmapped_of_front hfront, isSpecial, isReserved_of_small hsmall]
  simp

theorem isSpecial_of_isPrivateV6 {address : IpAddress} (hv6 : address.isV6 = true)
    (hself : address.unmapped = address) (hin : address.isIn privateV6 = true)
    (hout : address.isIn privateV6Exceptions = false) : address.unmapped.isSpecial = true := by
  rw [hself, isSpecial, isPrivate, hself, if_pos hv6, hin, hout]
  simp

theorem isSpecial_of_sixToFour {number : Nat} (hfront : number / 2 ^ 112 = 0x2002) :
    (unmapped ⟨true, number⟩).isSpecial = true := by
  refine isSpecial_of_isPrivateV6 rfl (unmapped_of_front (by omega)) ?_ ?_
  · have hnet : (v6 [0x2002] 16).contains ⟨true, number⟩ = true := by
      rw [contains_v6]
      change number / 2 ^ 112 * 2 ^ 112 = 0x2002 * 2 ^ 112
      rw [hfront]
    simp [isIn, privateV6, hnet]
  · simp only [isIn, privateV6Exceptions, List.any_cons, List.any_nil, contains, v6, masked,
      joinHextets]
    simp
    omega

theorem isSpecial_of_teredo {number : Nat} (hfront : number / 2 ^ 96 = 0x20010000) :
    (unmapped ⟨true, number⟩).isSpecial = true := by
  refine isSpecial_of_isPrivateV6 rfl (unmapped_of_front (by omega)) ?_ ?_
  · have hnet : (v6 [0x2001] 23).contains ⟨true, number⟩ = true := by
      simp [contains, v6, masked, joinHextets]
      omega
    simp [isIn, privateV6, hnet]
  · simp only [isIn, privateV6Exceptions, List.any_cons, List.any_nil, contains, v6, masked,
      joinHextets]
    simp
    omega

/-- An address that carries a special one is special once a mapped one is read as the
address that it stands for. -/
theorem isSpecial_of_isOffLimits {address : IpAddress} (hoff : address.IsOffLimits) :
    address.unmapped.isSpecial = true := by
  obtain hspecial | ⟨inner, hinner, hspecial⟩ := hoff
  · exact hspecial
  obtain ⟨isV6, number⟩ := address
  rw [carried] at hinner
  split at hinner
  next hv6 =>
    simp only at hv6
    subst hv6
    simp only [List.mem_append, Option.mem_toList] at hinner
    obtain ((hmapped | hend) | hsix) | hteredo := hinner
    · rwa [unmapped_of_ipv4Mapped hmapped]
    · split at hend
      next hcarried => exact isSpecial_of_carriedAtEnd hcarried
      next => cases hend
    · split at hsix
      next hfront => exact isSpecial_of_sixToFour hfront
      next => cases hsix
    · split at hteredo
      next hfront => exact isSpecial_of_teredo hfront
      next => cases hteredo
  next => cases hinner

end IpAddress

end DjangoMojo.Foundation
